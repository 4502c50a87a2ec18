import SqlWire.Proofs.Calendar.Fields
import SqlWire.Proofs.Geometry.Recognition
import SqlWire.Proofs.Number.Decimal
import SqlWire.Row

/-!
# Parameters are read back from columns

A value that is written as a parameter, `Value.Fits` saying when its field can hold it, is read back
from a field of a column of the announced type, `Column.IsFor`, as a value of its kind:
`Column.exists_carries`.  `Value.ReadBack` says which one: the same value, but for decimals, which
are the same number, and times, which are kept to the microsecond.
-/

namespace SqlWire

/-- The type of a column whose fields are read as values of a kind: the one announced for parameters
of the kind, except that geometries come back from geometry columns. -/
def Target.columnType : Target → WireType
  | point | geometry => .geometry
  | target => target.wireType

namespace Value

/-- The value's field can hold it: years have two bytes, days of a time four, and the counts of a
geometry four, which nests no deeper than is read. -/
def Fits : Value → Prop
  | date d => 0 ≤ d.year ∧ d.year ≤ 65535
  | dateTime t => 0 ≤ t.date.year ∧ t.date.year ≤ 65535
  | time d => d.seconds / 86400 < 2 ^ 32
  | geometry g => g.CountsFit ∧ g.depth ≤ Geometry.maxDepth
  | _ => True

/-- What a value is read back as. -/
def ReadBack : Value → Value → Prop
  | decimal d, w => ∃ d', w = decimal d' ∧ d.SameNumber d'
  | time d, w => w = time d.wholeMicros
  | dateTime t, w => w = dateTime ⟨t.date, t.time.wholeMicros⟩
  | v, w => w = v

end Value

namespace Column

/-- The column has the type announced for the kind, unsigned integers if they are of that kind, and
text rather than bytes if it is for texts. -/
structure IsFor (c : Column) (target : Target) : Prop where
  type : c.type = target.columnType
  sign : c.isSigned = false ↔ target = .uint64
  charset : target = .text → c.isBinary = false

theorem IsFor.isSigned
    {c : Column} {target : Target} (hc : c.IsFor target) (htarget : target ≠ .uint64) :
  c.isSigned = true
  := by
  rw [← Bool.not_eq_false, hc.sign]
  exact htarget

theorem IsFor.admits
    {c : Column} {target : Target} (hc : c.IsFor target) :
  c.admits target = true
  := by
  have htype := hc.type
  cases target <;> simp only [Target.columnType, Target.wireType] at htype <;>
    simp [Column.admits, admitsNumbers, family, htype, WireType.isString, WireType.isCalendar]

/-- The value is written as a field of the column that holds the given bytes, and these are read as
a value of the kind that the value is read back as. -/
structure Carries (c : Column) (target : Target) (v : Value) (bs : Bytes) : Prop where
  written : v.binaryBytes none = .ok (target.wireType, Row.binaryField c bs)
  width : ∀ w ∈ c.type.binaryWidth, bs.length = w
  decoded : ∃ w, c.decode .binary target bs = .ok w ∧ v.ReadBack w

theorem IsFor.decode_eq_ok
    {c : Column} {target : Target} {bs : Bytes} {v : Value} (hc : c.IsFor target)
    (hread : (c.readAs .binary target bs.length).Reads bs v) :
  c.decode .binary target bs = .ok v
  := by
  rw [decode, if_pos hc.admits, hread.run]

/-- A field of the width of its column's type. -/
theorem IsFor.carries_fixed
    {c : Column} {target : Target} {v w : Value} {bs : Bytes} (hc : c.IsFor target)
    (hwidth : target.columnType.binaryWidth = some bs.length)
    (hwritten : v.binaryBytes none = .ok (target.wireType, bs))
    (hread : (c.readAs .binary target bs.length).Reads bs w) (hback : v.ReadBack w) :
  c.Carries target v bs
  := by
  rw [← hc.type] at hwidth
  constructor
  · rw [hwritten, Row.binaryField, hwidth]
  · intro n hn
    rw [hwidth] at hn
    exact Option.some.inj hn
  · exact ⟨w, hc.decode_eq_ok hread, hback⟩

/-- A field that comes behind its length. -/
theorem IsFor.carries_counted
    {c : Column} {target : Target} {v w : Value} {bs : Bytes} (hc : c.IsFor target)
    (hwidth : target.columnType.binaryWidth = none)
    (hwritten : v.binaryBytes none = .ok (target.wireType, Layout.lengthEncodedBytes bs))
    (hread : (c.readAs .binary target bs.length).Reads bs w) (hback : v.ReadBack w) :
  c.Carries target v bs
  := by
  rw [← hc.type] at hwidth
  constructor
  · rw [hwritten, Row.binaryField, hwidth]
  · intro n hn
    rw [hwidth] at hn
    cases hn
  · exact ⟨w, hc.decode_eq_ok hread, hback⟩

/-! ### Integers -/

/-- An integer of the column's width that is in the range of the kind. -/
theorem reads_readNarrow
    {c : Column} {target : Target} {w n : Nat} {least greatest i : Int}
    (hwidth : c.readIntegerBinary n target.name = c.readFixed w) (hsigned : c.isSigned = true)
    (hrange : least ≤ i ∧ i ≤ greatest)
    (hlow : -(256 ^ w : Nat) ≤ 2 * i) (hhigh : 2 * i < (256 ^ w : Nat)) :
  (c.readNarrow .binary n least greatest target).Reads (Bytes.ofIntLE w i) i
  := by
  apply Reader.Reads.lift (a := i)
  · rw [readInteger, hwidth, readFixed, if_pos hsigned]
    exact Reader.reads_sint hlow hhigh
  · rw [Number.narrow, if_pos hrange]

theorem carries_int8
    {c : Column} (hc : c.IsFor .int8) (i : Int8) :
  c.Carries .int8 (.int8 i) (Bytes.ofIntLE 1 i.toInt)
  := by
  have htype : c.type = .tiny := hc.type
  have hlow := i.le_toInt
  have hhigh := i.toInt_lt
  have number : (c.readInt8 .binary 1).Reads
      (Bytes.ofIntLE 1 i.toInt) i.toInt := by
    rw [readInt8, htype]
    apply reads_readNarrow (by rw [readIntegerBinary, htype]) (hc.isSigned (by decide)) <;> omega
  have back : Value.int8 (.ofInt i.toInt) = .int8 i := by rw [Int8.ofInt_toInt]
  exact hc.carries_fixed rfl rfl (number.map fun i => Value.int8 (.ofInt i)) back

theorem carries_int16
    {c : Column} (hc : c.IsFor .int16) (i : Int16) :
  c.Carries .int16 (.int16 i) (Bytes.ofIntLE 2 i.toInt)
  := by
  have htype : c.type = .short := hc.type
  have hlow := i.le_toInt
  have hhigh := i.toInt_lt
  have number : (c.readNarrow .binary 2 (-32768) 32767 .int16).Reads
      (Bytes.ofIntLE 2 i.toInt) i.toInt := by
    apply reads_readNarrow (by rw [readIntegerBinary, htype]) (hc.isSigned (by decide)) <;> omega
  have back : Value.int16 (.ofInt i.toInt) = .int16 i := by rw [Int16.ofInt_toInt]
  exact hc.carries_fixed rfl rfl (number.map fun i => Value.int16 (.ofInt i)) back

theorem carries_int32
    {c : Column} (hc : c.IsFor .int32) (i : Int32) :
  c.Carries .int32 (.int32 i) (Bytes.ofIntLE 4 i.toInt)
  := by
  have htype : c.type = .long := hc.type
  have hlow := i.le_toInt
  have hhigh := i.toInt_lt
  have number : (c.readNarrow .binary 4 (-2147483648) 2147483647 .int32).Reads
      (Bytes.ofIntLE 4 i.toInt) i.toInt := by
    apply reads_readNarrow (by rw [readIntegerBinary, htype]) (hc.isSigned (by decide)) <;> omega
  have back : Value.int32 (.ofInt i.toInt) = .int32 i := by rw [Int32.ofInt_toInt]
  exact hc.carries_fixed rfl rfl (number.map fun i => Value.int32 (.ofInt i)) back

theorem carries_int64
    {c : Column} (hc : c.IsFor .int64) (i : Int64) :
  c.Carries .int64 (.int64 i) (Bytes.ofIntLE 8 i.toInt)
  := by
  have htype : c.type = .longLong := hc.type
  have hlow := i.le_toInt
  have hhigh := i.toInt_lt
  have number : (c.readNarrow .binary 8 (-9223372036854775808)
      9223372036854775807 .int64).Reads
      (Bytes.ofIntLE 8 i.toInt) i.toInt := by
    apply reads_readNarrow (by rw [readIntegerBinary, htype]) (hc.isSigned (by decide)) <;> omega
  have back : Value.int64 (.ofInt i.toInt) = .int64 i := by rw [Int64.ofInt_toInt]
  exact hc.carries_fixed rfl rfl (number.map fun i => Value.int64 (.ofInt i)) back

theorem carries_uint64
    {c : Column} (hc : c.IsFor .uint64) (n : UInt64) :
  c.Carries .uint64 (.uint64 n) (Bytes.ofNatLE 8 n.toNat)
  := by
  have htype : c.type = .longLong := hc.type
  have hsign : c.isSigned = false := hc.sign.mpr rfl
  have hfits := n.toNat_lt
  have number : (c.readNarrow .binary 8 0 18446744073709551615 .uint64).Reads
      (Bytes.ofNatLE 8 n.toNat) n.toNat := by
    apply Reader.Reads.lift (a := (n.toNat : Int))
    · rw [readInteger, readIntegerBinary, htype]
      simp only [readFixed, hsign]
      exact (Reader.reads_uint_of_lt hfits).map Int.ofNat
    · rw [Number.narrow, if_pos (by omega)]
  have back : Value.uint64 (.ofNat (n.toNat : Int).toNat) = .uint64 n := by
    rw [Int.toNat_natCast, UInt64.ofNat_toNat]
  exact hc.carries_fixed rfl rfl (number.map fun i : Int => Value.uint64 (.ofNat i.toNat)) back

theorem carries_bool
    {c : Column} (hc : c.IsFor .bool) (b : Bool) :
  c.Carries .bool (.bool b) [if b then 1 else 0]
  := by
  have htype : c.type = .tiny := hc.type
  have hfamily : c.family = .integer := by rw [family, htype]
  have number : (c.readInteger .binary 1 Target.bool.name).Reads [if b then 1 else 0]
      (if b then 1 else 0) := by
    rw [readInteger, readIntegerBinary, htype]
    simp only [readFixed, hc.isSigned (by decide)]
    cases b with
    | true => exact Reader.reads_sint (w := 1) (i := 1) (by decide) (by decide)
    | false => exact Reader.reads_sint (w := 1) (i := 0) (by decide) (by decide)
  have truth : (c.readBool .binary 1).Reads [if b then 1 else 0] b := by
    have back : ((if b then 1 else 0 : Int) != 0) = b := by cases b <;> rfl
    have read := number.map (· != 0)
    rw [back] at read
    simp only [readBool, hfamily]
    exact read
  exact hc.carries_fixed rfl rfl (truth.map Value.bool) rfl

/-! ### Other numbers -/

theorem carries_float32
    {c : Column} (hc : c.IsFor .float32) (x : Single) :
  c.Carries .float32 (.float32 x) (Layout.single x)
  := by
  have htype : c.type = .float := hc.type
  have number : (c.readSingle .binary 4).Reads (Layout.single x) x := by
    rw [readSingle, if_pos ⟨htype, rfl⟩]
    exact Reader.reads_single x
  exact hc.carries_fixed rfl rfl (number.map Value.float32) rfl

theorem carries_float64
    {c : Column} (hc : c.IsFor .float64) (x : Double) :
  c.Carries .float64 (.float64 x) (Layout.double x)
  := by
  have htype : c.type = .double := hc.type
  have hfamily : c.family = .float := by rw [family, htype]
  have number : (c.readDouble .binary 8).Reads (Layout.double x) x := by
    simp only [readDouble, hfamily, htype]
    exact Reader.reads_double x
  exact hc.carries_fixed rfl rfl (number.map Value.float64) rfl

theorem carries_decimal
    {c : Column} (hc : c.IsFor .decimal) (d : Decimal) :
  c.Carries .decimal (.decimal d) (Utf8.encode d.toText)
  := by
  have htype : c.type = .newDecimal := hc.type
  have hfamily : c.family = .decimal := by rw [family, htype]
  obtain ⟨d', hread, hsame⟩ := Number.readDecimal_toText d Target.decimal.name
  have number : (c.readDecimal .binary (Utf8.encode d.toText).length).Reads
      (Utf8.encode d.toText) d' := by
    simp only [readDecimal, hfamily]
    exact (Reader.reads_text d.toText).lift hread
  exact hc.carries_counted rfl rfl (number.map Value.decimal) ⟨d', rfl, hsame⟩

/-! ### Texts and bytes -/

theorem carries_text
    {c : Column} (hc : c.IsFor .text) (s : String) :
  c.Carries .text (.text s) (Utf8.encode s)
  := by
  have htype : c.type = .varString := hc.type
  have hfamily : c.family = .text := by simp [family, htype, hc.charset rfl]
  have text : (c.readText .binary (Utf8.encode s).length).Reads (Utf8.encode s) s := by
    simp only [readText, hfamily, readBinaryText, htype]
    exact Reader.reads_text s
  exact hc.carries_counted rfl rfl (text.map Value.text) rfl

theorem carries_bytes
    {c : Column} (hc : c.IsFor .bytes) (bs : Bytes) :
  c.Carries .bytes (.bytes bs) bs
  := by
  have htype : c.type = .blob := hc.type
  have bytes : (c.readBytes bs.length).Reads bs bs := by
    have read : (Reader.bytes bs.length).Reads bs bs := Reader.reads_bytes rfl
    cases hbinary : c.isBinary <;> simp only [readBytes, family, htype, hbinary] <;> exact read
  exact hc.carries_counted rfl rfl (bytes.map Value.bytes) rfl

/-! ### Dates and times -/

/-- Bytes behind their number are behind their length, as far as one byte can hold it. -/
theorem counted_eq_lengthEncodedBytes
    {bs : Bytes} (h : bs.length < 0xFB) :
  Value.counted bs = Layout.lengthEncodedBytes bs
  := by
  rw [Layout.lengthEncodedBytes, Layout.lengthEncoded, if_pos h]
  rfl

theorem reads_readCalendar
    {c : Column} {n : Nat} {target : String} {bs : Bytes} {f : DateTimeField}
    (hread : (DateTimeField.read n).Reads bs f) (hzero : f.isZeroDate = false) :
  (c.readCalendar n target).Reads bs f
  := by
  apply hread.bind_nil
  rw [hzero]
  exact Reader.reads_pure f

theorem carries_date
    {c : Column} (hc : c.IsFor .date) {d : Date} (hyear : 0 ≤ d.year ∧ d.year ≤ 65535) :
  c.Carries .date (.date d) d.toField.dateBytes
  := by
  have htype : c.type = .date := hc.type
  have hfamily : c.family = .calendar := by rw [family, htype]
  have field : (c.readCalendar d.toField.dateBytes.length Target.date.name).Reads
      d.toField.dateBytes d.toField :=
    reads_readCalendar d.toField.reads_dateBytes d.isZeroDate_toField
  have date : (c.readDate .binary d.toField.dateBytes.length).Reads d.toField.dateBytes d := by
    simp only [readDate, hfamily]
    apply field.lift
    rw [Date.date?_toField hyear]
    rfl
  have written : (Value.date d).binaryBytes none =
      .ok (.date, Layout.lengthEncodedBytes d.toField.dateBytes) := by
    have short : d.toField.dateBytes.length < 0xFB := by
      rw [DateTimeField.length_dateBytes]
      decide
    change (do return (WireType.date, ← (do return Value.counted (← Value.dateBytes d)))) = _
    rw [Value.dateBytes_eq_ok hyear, ← counted_eq_lengthEncodedBytes short]
    rfl
  exact hc.carries_counted rfl written (date.map Value.date) rfl

theorem carries_time
    {c : Column} (hc : c.IsFor .time) {d : Duration} (hdays : d.seconds / 86400 < 2 ^ 32) :
  c.Carries .time (.time d) d.toField.bytes
  := by
  have htype : c.type = .time := hc.type
  have hfamily : c.family = .time := by rw [family, htype]
  have time : (c.readTime .binary d.toField.bytes.length).Reads d.toField.bytes
      d.toField.toDuration := by
    simp only [readTime, hfamily]
    exact (d.toField.reads_bytes).map TimeField.toDuration
  have written : (Value.time d).binaryBytes none =
      .ok (.time, Layout.lengthEncodedBytes d.toField.bytes) := by
    change (do return (WireType.time, ← Value.timeBytes d)) = _
    rw [Value.timeBytes_eq_ok hdays, counted_eq_lengthEncodedBytes d.toField.length_bytes]
    rfl
  rw [Duration.toDuration_toField hdays] at time
  exact hc.carries_counted rfl written (time.map Value.time) rfl

theorem carries_dateTime
    {c : Column} (hc : c.IsFor .dateTime) {t : DateTime}
    (hyear : 0 ≤ t.date.year ∧ t.date.year ≤ 65535) :
  c.Carries .dateTime (.dateTime t) t.toField.bytes
  := by
  have htype : c.type = .dateTime := hc.type
  have hfamily : c.family = .calendar := by rw [family, htype]
  have field : (c.readCalendar t.toField.bytes.length Target.dateTime.name).Reads
      t.toField.bytes t.toField :=
    reads_readCalendar t.toField.reads_bytes t.date.isZeroDate_toField
  have dateTime : (c.readDateTime .binary t.toField.bytes.length).Reads t.toField.bytes
      ⟨t.date, t.time.wholeMicros⟩ := by
    simp only [readDateTime, hfamily]
    apply field.lift
    rw [DateTime.dateTime?_toField hyear]
    rfl
  have written : (Value.dateTime t).binaryBytes none =
      .ok (.dateTime, Layout.lengthEncodedBytes t.toField.bytes) := by
    change (do return (WireType.dateTime, ← Value.dateTimeBytes t)) = _
    rw [Value.dateTimeBytes_eq_ok hyear, counted_eq_lengthEncodedBytes t.toField.length_bytes]
    rfl
  exact hc.carries_counted rfl written (dateTime.map Value.dateTime) rfl

/-! ### Geometries -/

/-- A geometry, its body behind a spatial reference of zero. -/
theorem reads_readGeometry
    {c : Column} (htype : c.type = .geometry) {g : Geometry}
    (hfits : g.CountsFit ∧ g.depth ≤ Geometry.maxDepth) :
  (c.readGeometry ([0, 0, 0, 0] ++ g.toBinary).length).Reads ([0, 0, 0, 0] ++ g.toBinary) g
  := by
  have little := (Geometry.encodes_little_iff g g.toBinary).mpr ⟨hfits.1, rfl⟩
  have field : (Geometry.readField ([0, 0, 0, 0] ++ (g.toBinary ++ [])).length).Reads
      ([0, 0, 0, 0] ++ (g.toBinary ++ [])) g :=
    Geometry.reads_readField rfl (little.mono fun _ _ => trivial) hfits.2
  rw [List.append_nil] at field
  simp only [readGeometry, htype]
  exact field

theorem carries_geometry
    {c : Column} (hc : c.IsFor .geometry) {g : Geometry}
    (hfits : g.CountsFit ∧ g.depth ≤ Geometry.maxDepth) :
  c.Carries .geometry (.geometry g) ([0, 0, 0, 0] ++ g.toBinary)
  := by
  have read := (reads_readGeometry hc.type hfits).map Value.geometry
  have written : (Value.geometry g).binaryBytes none =
      .ok (.blob, Layout.lengthEncodedBytes ([0, 0, 0, 0] ++ g.toBinary)) := by
    cases g <;> rfl
  exact hc.carries_counted rfl written read rfl

theorem carries_point
    {c : Column} (hc : c.IsFor .point) (p : Point) :
  c.Carries .point (.point p) ([0, 0, 0, 0] ++ (Geometry.point p).toBinary)
  := by
  have fits : (Geometry.point p).CountsFit ∧ (Geometry.point p).depth ≤ Geometry.maxDepth :=
    ⟨.intro nofun nofun, Nat.zero_le _⟩
  have point : (c.readPoint ([0, 0, 0, 0] ++ (Geometry.point p).toBinary).length).Reads
      ([0, 0, 0, 0] ++ (Geometry.point p).toBinary) p := by
    apply (reads_readGeometry hc.type fits).bind_nil
    exact Reader.reads_pure p
  exact hc.carries_counted rfl rfl (point.map Value.point) rfl

/-! ### Every kind -/

/-- Each value whose field can hold it is carried by the columns for its kind. -/
theorem exists_carries
    {c : Column} {target : Target} {v : Value} (hc : c.IsFor target) (htarget : v.target? = target)
    (hfits : v.Fits) :
  ∃ bs, c.Carries target v bs
  := by
  cases v <;> cases htarget
  case bool b => exact ⟨_, carries_bool hc b⟩
  case int8 i => exact ⟨_, carries_int8 hc i⟩
  case int16 i => exact ⟨_, carries_int16 hc i⟩
  case int32 i => exact ⟨_, carries_int32 hc i⟩
  case int64 i => exact ⟨_, carries_int64 hc i⟩
  case uint64 n => exact ⟨_, carries_uint64 hc n⟩
  case float32 x => exact ⟨_, carries_float32 hc x⟩
  case float64 x => exact ⟨_, carries_float64 hc x⟩
  case decimal d => exact ⟨_, carries_decimal hc d⟩
  case text s => exact ⟨_, carries_text hc s⟩
  case bytes bs => exact ⟨_, carries_bytes hc bs⟩
  case date d => exact ⟨_, carries_date hc hfits⟩
  case time d => exact ⟨_, carries_time hc hfits⟩
  case dateTime t => exact ⟨_, carries_dateTime hc hfits⟩
  case point p => exact ⟨_, carries_point hc p⟩
  case geometry g => exact ⟨_, carries_geometry hc hfits⟩

end Column

end SqlWire
