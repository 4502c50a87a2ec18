import SqlWire.Proofs.Failures
import SqlWire.Proofs.Reading

/-!
# Kinds that a column admits

Which kinds a column's fields can be read as is said twice: by `Column.admits`, before a field is
read, and by the readers of the kinds, family by family.  `Column.decode_admits` says that the two
agree: a reader whose kind is not admitted passes over the field and refuses it, whatever its bytes,
and a reader whose kind is admitted never refuses it so.  Points alone are different, since they are
read as geometries, of which only some are points: `Target.underlying` and `Target.restrict`.
-/

namespace SqlWire

/-- The failure is not that of a type that does not admit the kind. -/
def Error.IsNoMismatch (e : Error) : Prop :=
  e.kind ≠ .typeMismatch

theorem Error.isNoMismatch_short
    (needed available : Nat) :
  IsNoMismatch (.shortBuffer needed available)
  := nofun

theorem Error.IsOfValue.isNoMismatch
    {e : Error} (h : e.IsOfValue) :
  e.IsNoMismatch
  := by
  rcases h with h | h <;> simp [IsNoMismatch, h]

/-- The kind that a kind is read as: points are read as geometries. -/
def Target.underlying : Target → Target
  | point => geometry
  | target => target

/-- The value that was read, as one of the kind: only some geometries are points. -/
def Target.restrict : Target → Value → Except Error Value
  | point, .geometry (.point q) => .ok (.point q)
  | point, _ => .error (.typeMismatch .geometry point.name)
  | _, v => .ok v

/-- The truth values, integers, floating-point numbers and decimals. -/
def Target.isNumber : Target → Bool
  | bool | int8 | int16 | int32 | int64 | uint64 | float32 | float64 | decimal => true
  | _ => false

/-- The kinds that the columns of a family admit. -/
def Family.admits : Family → Target → Bool
  | integer, target | float, target | decimal, target => target.isNumber || target == .text
  | text, target => !(target == .point || target == .geometry)
  | bytes, target => target == .text || target == .bytes
  | bit, target => target.isNumber || target == .text || target == .bytes
  | calendar, target => target == .text || target == .date || target == .dateTime
  | time, target => target == .text || target == .time
  | geometry, target => target == .bytes || target == .point || target == .geometry
  | null, _ => false

namespace Reader

theorem failsWith_value
    {α : Type} {outcome : Except Error α} (h : SqlWire.FailsWith Error.IsOfValue outcome) :
  (Reader.lift outcome).FailsWith Error.IsNoMismatch
  :=
  failsWith_lift (h.mono fun _ => Error.IsOfValue.isNoMismatch)

/-- A value that is made of the one read, if there is one that fits. -/
theorem FailsWith.value
    {α β : Type} {r : Reader α} {next : α → Except Error β}
    (hr : r.FailsWith Error.IsNoMismatch)
    (hnext : ∀ a, SqlWire.FailsWith Error.IsOfValue (next a)) :
  (r >>= fun a => Reader.lift (next a)).FailsWith Error.IsNoMismatch
  :=
  hr.bind fun a => failsWith_value (hnext a)

end Reader

open Reader

/-! ### Geometries are refused by their bytes alone -/

namespace Geometry

theorem failsWith_readMany
    {α : Type} {P : Error → Prop} {item : Reader α} (h : item.FailsWith P) (n : Nat)
    (read : List α) :
  (readMany item n read).FailsWith P
  := by
  induction n generalizing read with
  | zero => apply failsWith_pure
  | succ n ih => exact h.bind fun a => ih (a :: read)

theorem failsWith_readNumber
    (order : ByteOrder) :
  (readNumber order).FailsWith Error.IsNoMismatch
  :=
  (failsWith_bytes Error.isNoMismatch_short 4).map order.value

theorem failsWith_readPoint
    (order : ByteOrder) :
  (readPoint order).FailsWith Error.IsNoMismatch
  := by
  have coordinate : (readCoordinate order).FailsWith Error.IsNoMismatch :=
    (failsWith_bytes Error.isNoMismatch_short 8).map fun bs => Double.ofBits (order.value bs)
  exact coordinate.bind fun x => coordinate.map (Point.mk x)

theorem failsWith_readCounted
    {α : Type} {item : Reader α} (order : ByteOrder) (h : item.FailsWith Error.IsNoMismatch) :
  (readCounted order item).FailsWith Error.IsNoMismatch
  :=
  (failsWith_readNumber order).bind fun n => failsWith_readMany h n []

theorem failsWith_readOrder :
  readOrder.FailsWith Error.IsNoMismatch
  := by
  apply (failsWith_byte Error.isNoMismatch_short).bind
  intro b
  split
  · apply failsWith_pure
  · exact failsWith_fail nofun

theorem failsWith_readMember
    {α : Type} {body : Reader Geometry} {as : Geometry → Except Error α}
    (h : body.FailsWith Error.IsNoMismatch)
    (has : ∀ g, SqlWire.FailsWith Error.IsNoMismatch (as g)) :
  (readMember body as).FailsWith Error.IsNoMismatch
  :=
  h.lift has

theorem failsWith_asPoint
    (g : Geometry) :
  SqlWire.FailsWith Error.IsNoMismatch (asPoint g)
  := by
  cases g with
  | point q => apply failsWith_ok
  | _ => exact failsWith_error nofun

theorem failsWith_asRun
    (g : Geometry) :
  SqlWire.FailsWith Error.IsNoMismatch (asRun g)
  := by
  cases g with
  | lineString points => apply failsWith_ok
  | _ => exact failsWith_error nofun

theorem failsWith_asRings
    (g : Geometry) :
  SqlWire.FailsWith Error.IsNoMismatch (asRings g)
  := by
  cases g with
  | polygon rings => apply failsWith_ok
  | _ => exact failsWith_error nofun

theorem failsWith_readBody
    {member : Reader Geometry} (h : member.FailsWith Error.IsNoMismatch) :
  (readBody member).FailsWith Error.IsNoMismatch
  := by
  apply failsWith_readOrder.bind
  intro order
  apply (failsWith_readNumber order).bind
  intro code
  have run := failsWith_readCounted order (failsWith_readPoint order)
  split
  · exact (failsWith_readPoint order).map _
  · exact run.map _
  · exact (failsWith_readCounted order run).map _
  · exact (failsWith_readCounted order (failsWith_readMember h failsWith_asPoint)).map _
  · exact (failsWith_readCounted order (failsWith_readMember h failsWith_asRun)).map _
  · exact (failsWith_readCounted order (failsWith_readMember h failsWith_asRings)).map _
  · exact (failsWith_readCounted order h).map _
  · exact failsWith_fail nofun

theorem failsWith_readNested
    (levels : Nat) :
  (readNested levels).FailsWith Error.IsNoMismatch
  := by
  induction levels with
  | zero => exact failsWith_readBody (failsWith_fail nofun)
  | succ levels ih => exact failsWith_readBody ih

theorem failsWith_readField
    (n : Nat) :
  (readField n).FailsWith Error.IsNoMismatch
  := by
  have position : Reader.position.FailsWith Error.IsNoMismatch := fun _ => failsWith_ok _
  apply position.bind
  intro start
  apply (failsWith_skip Error.isNoMismatch_short 4).bind
  intro _
  apply (failsWith_readNested maxDepth).bind
  intro g
  apply position.bind
  intro stop
  dsimp only
  split
  · exact failsWith_fail nofun
  · exact (failsWith_skip Error.isNoMismatch_short _).map fun _ => g

end Geometry

namespace Column

variable {c : Column} {p : Protocol} {target : Target}

/-- Which kinds a column admits is a matter of its family. -/
theorem admits_eq
    (c : Column) (target : Target) :
  c.admits target = c.family.admits target
  := by
  cases target with
  | bool | int8 | int16 | int32 | int64 | uint64 | float32 | float64 | decimal =>
    rw [admits, admitsNumbers]
    cases c.family <;> rfl
  | _ =>
    cases htype : c.type <;> cases hbinary : c.isBinary <;>
      simp only [admits, family, htype, hbinary] <;> rfl

theorem family_eq_integer
    (h : c.type.isInteger) :
  c.family = .integer
  := by
  cases htype : c.type <;> simp [htype, WireType.isInteger] at h <;> rw [family, htype]

theorem family_eq_decimal
    (h : c.type.isDecimal) :
  c.family = .decimal
  := by
  cases htype : c.type <;> simp [htype, WireType.isDecimal] at h <;> rw [family, htype]

theorem family_eq_calendar
    (h : c.type.isCalendar) :
  c.family = .calendar
  := by
  cases htype : c.type <;> simp [htype, WireType.isCalendar] at h <;> rw [family, htype]

/-- Strings are bytes or text by their character set. -/
theorem family_of_isString
    (h : c.type.isString) :
  c.family = if c.isBinary then .bytes else .text
  := by
  cases htype : c.type <;> simp [htype, WireType.isString] at h <;> rw [family, htype]

/-! ### Kinds that are not admitted -/

/-- Nothing comes after a refusal. -/
theorem mismatch_bind
    {α β : Type} (n : Nat) (target : String) (next : α → Reader β) :
  (c.mismatch n target >>= next) = c.mismatch n target
  := rfl

theorem readIntegerText_eq_mismatch
    (h : c.admitsNumbers = false) (n : Nat) (target : String) :
  c.readIntegerText n target = c.mismatch n target
  := by
  rw [readIntegerText]
  cases hfamily : c.family <;> simp [admitsNumbers, hfamily] at h <;> rfl

theorem readInteger_eq_mismatch
    (h : c.admitsNumbers = false) (p : Protocol) (n : Nat) (target : String) :
  c.readInteger p n target = c.mismatch n target
  := by
  have text := readIntegerText_eq_mismatch h n target
  cases p with
  | text => exact text
  | binary =>
    -- every type with a layout of its own is one of numbers
    rw [readInteger, readIntegerBinary]
    cases htype : c.type <;> simp [admitsNumbers, family, htype] at h <;> exact text

theorem readNarrow_eq_mismatch
    (h : c.admitsNumbers = false) (p : Protocol) (n : Nat) (least greatest : Int)
    (target : Target) :
  c.readNarrow p n least greatest target = c.mismatch n target.name
  := by
  rw [readNarrow, readInteger_eq_mismatch h, mismatch_bind]

theorem readInt8_eq_mismatch
    (h : c.admitsNumbers = false) (p : Protocol) (n : Nat) :
  c.readInt8 p n = c.mismatch n Target.int8.name
  := by
  rw [readInt8]
  split
  next htype => simp [admitsNumbers, family, htype] at h
  next => apply readNarrow_eq_mismatch h

theorem readSingle_eq_mismatch
    (h : c.admitsNumbers = false) (p : Protocol) (n : Nat) :
  c.readSingle p n = c.mismatch n Target.float32.name
  := by
  rw [readSingle]
  split
  next hfloat => simp [admitsNumbers, family, hfloat.1] at h
  next => cases hfamily : c.family <;> simp [admitsNumbers, hfamily] at h <;> rfl

theorem readGeometry_eq_mismatch
    (h : c.family ≠ .geometry) (n : Nat) :
  c.readGeometry n = c.mismatch n Target.geometry.name
  := by
  rw [readGeometry]
  split
  next htype => simp [family, htype] at h
  next => rfl

/-- A kind that is not admitted is refused, and the field passed over. -/
theorem readAs_eq_mismatch
    (h : c.admits target = false) (p : Protocol) (n : Nat) :
  c.readAs p target.underlying n = c.mismatch n target.underlying.name
  := by
  cases target with
  | int8 => simp only [Target.underlying, readAs, readInt8_eq_mismatch h, mismatch_bind]
  | int16 | int32 | int64 | uint64 =>
    simp only [Target.underlying, readAs, readNarrow_eq_mismatch h, mismatch_bind]
  | float32 => simp only [Target.underlying, readAs, readSingle_eq_mismatch h, mismatch_bind]
  | bool | float64 | decimal | text | bytes | date | time | dateTime =>
    -- these readers tell the families apart just as the table does
    rw [admits_eq] at h
    simp only [Target.underlying, readAs, readBool, readDouble, readDecimal, readText, readBytes,
      readDate, readTime, readDateTime]
    cases hfamily : c.family <;> simp [Family.admits, Target.isNumber, hfamily] at h <;> rfl
  | point | geometry =>
    have hfamily : c.family ≠ .geometry := by
      rintro hfamily
      simp [admits_eq, Family.admits, hfamily] at h
    simp only [Target.underlying, readAs, readGeometry_eq_mismatch hfamily, mismatch_bind]

/-! ### Kinds that are admitted -/

theorem failsWith_readFixed
    (c : Column) (w : Nat) :
  (c.readFixed w).FailsWith Error.IsNoMismatch
  := by
  rw [readFixed]
  split
  · apply failsWith_sint Error.isNoMismatch_short
  · exact (failsWith_uint Error.isNoMismatch_short w).map Int.ofNat

theorem failsWith_readIntegerText
    (h : c.admitsNumbers = true) (n : Nat) (target : String) :
  (c.readIntegerText n target).FailsWith Error.IsNoMismatch
  := by
  rw [readIntegerText]
  cases hfamily : c.family with
  | integer | float | decimal | text =>
    exact (failsWith_text Error.isNoMismatch_short n).value fun s =>
      Number.failsWith_readInteger s target
  | bit =>
    exact (failsWith_bytes Error.isNoMismatch_short n).map fun bs =>
      ((BitField.value bs).toNat : Int)
  | bytes | calendar | time | geometry | null => simp [admitsNumbers, hfamily] at h

theorem failsWith_readIntegerBinary
    (h : c.admitsNumbers = true) (n : Nat) (target : String) :
  (c.readIntegerBinary n target).FailsWith Error.IsNoMismatch
  := by
  rw [readIntegerBinary]
  split
  case h_3 => exact (failsWith_uint Error.isNoMismatch_short 2).map Int.ofNat
  case h_4 =>
    exact (c.failsWith_readFixed 3).bind fun i =>
      (failsWith_skip Error.isNoMismatch_short 1).map fun _ => i
  case h_7 =>
    exact (failsWith_single Error.isNoMismatch_short).value fun x =>
      Number.failsWith_truncate x.toDouble target
  case h_8 =>
    exact (failsWith_double Error.isNoMismatch_short).value fun x =>
      Number.failsWith_truncate x target
  case h_9 => apply failsWith_readIntegerText h
  all_goals apply failsWith_readFixed

theorem failsWith_readInteger
    (h : c.admitsNumbers = true) (p : Protocol) (n : Nat) (target : String) :
  (c.readInteger p n target).FailsWith Error.IsNoMismatch
  := by
  cases p with
  | text => apply failsWith_readIntegerText h
  | binary => apply failsWith_readIntegerBinary h

theorem failsWith_readNarrow
    (h : c.admitsNumbers = true) (p : Protocol) (n : Nat) (least greatest : Int)
    (target : Target) :
  (c.readNarrow p n least greatest target).FailsWith Error.IsNoMismatch
  :=
  (failsWith_readInteger h p n target.name).value fun i =>
    Number.failsWith_narrow least greatest i target.name

theorem failsWith_readBitByte
    (n : Nat) :
  (readBitByte n).FailsWith Error.IsNoMismatch
  := by
  rw [readBitByte]
  split
  · exact failsWith_fail nofun
  · exact (failsWith_sint Error.isNoMismatch_short 1).bind fun i =>
      (failsWith_skip Error.isNoMismatch_short (n - 1)).map fun _ => i

theorem failsWith_readInt8
    (h : c.admitsNumbers = true) (p : Protocol) (n : Nat) :
  (c.readInt8 p n).FailsWith Error.IsNoMismatch
  := by
  rw [readInt8]
  split
  · apply failsWith_readBitByte
  · apply failsWith_readNarrow h

theorem failsWith_readDouble
    (h : c.admitsNumbers = true) (p : Protocol) (n : Nat) :
  (c.readDouble p n).FailsWith Error.IsNoMismatch
  := by
  have text : (do
      let s ← Reader.text n
      Reader.lift (Number.readDouble s Target.float64.name)).FailsWith Error.IsNoMismatch :=
    (failsWith_text Error.isNoMismatch_short n).value fun s => Number.failsWith_readDouble s _
  unfold readDouble
  cases hfamily : c.family with
  | integer =>
    cases p with
    | text => exact text
    | binary => exact (failsWith_readIntegerBinary h n _).map Double.ofInt
  | float =>
    cases p with
    | text => exact text
    | binary =>
      dsimp only
      split
      · exact (failsWith_single Error.isNoMismatch_short).map Single.toDouble
      · exact failsWith_double Error.isNoMismatch_short
  | decimal | text => exact text
  | bit =>
    exact (failsWith_bytes Error.isNoMismatch_short n).map fun bs =>
      Double.ofInt (BitField.value bs).toNat
  | bytes | calendar | time | geometry | null => simp [admitsNumbers, hfamily] at h

theorem failsWith_readSingle
    (h : c.admitsNumbers = true) (p : Protocol) (n : Nat) :
  (c.readSingle p n).FailsWith Error.IsNoMismatch
  := by
  rw [readSingle]
  -- the families are told apart a second time behind the four bytes of a float
  split
  · exact failsWith_single Error.isNoMismatch_short
  cases hfamily : c.family with
  | bytes | calendar | time | geometry | null => simp [admitsNumbers, hfamily] at h
  | _ => exact (failsWith_readDouble h p n).map Double.toSingle

theorem failsWith_readDecimal
    (h : c.admitsNumbers = true) (p : Protocol) (n : Nat) :
  (c.readDecimal p n).FailsWith Error.IsNoMismatch
  := by
  have text : (do
      let s ← Reader.text n
      Reader.lift (Number.readDecimal s Target.decimal.name)).FailsWith Error.IsNoMismatch :=
    (failsWith_text Error.isNoMismatch_short n).value fun s => Number.failsWith_readDecimal s _
  unfold readDecimal
  cases hfamily : c.family with
  | integer =>
    cases p with
    | text => exact text
    | binary =>
      exact (failsWith_readIntegerBinary h n _).value fun i => failsWith_decimalOr _ _
  | float =>
    cases p with
    | text => exact text
    | binary => exact (failsWith_readDouble h .binary n).value fun x => failsWith_decimalOr _ _
  | decimal | text => exact text
  | bit =>
    exact (failsWith_bytes Error.isNoMismatch_short n).map fun bs =>
      Decimal.ofUInt64 (BitField.value bs)
  | bytes | calendar | time | geometry | null => simp [admitsNumbers, hfamily] at h

theorem failsWith_readBool
    (h : c.admitsNumbers = true) (p : Protocol) (n : Nat) :
  (c.readBool p n).FailsWith Error.IsNoMismatch
  := by
  have number : (do
      let s ← Reader.text n
      let d ← Reader.lift (Number.readDecimal s Target.bool.name)
      return !d.isZero).FailsWith Error.IsNoMismatch :=
    (failsWith_text Error.isNoMismatch_short n).bind fun s =>
      (failsWith_value (Number.failsWith_readDecimal s _)).map fun d => !d.isZero
  unfold readBool
  cases hfamily : c.family with
  | text => exact (failsWith_text Error.isNoMismatch_short n).map (· != "0")
  | bit =>
    exact (failsWith_bytes Error.isNoMismatch_short n).map fun bs => BitField.value bs != 0
  | integer => exact (failsWith_readInteger h p n _).map (· != 0)
  | float =>
    cases p with
    | text => exact number
    | binary => exact (failsWith_readDouble h .binary n).map fun x => !x.datum.isZero
  | decimal => exact number
  | bytes | calendar | time | geometry | null => simp [admitsNumbers, hfamily] at h

theorem failsWith_readPlainText
    (c : Column) (n : Nat) :
  (c.readPlainText n).FailsWith Error.IsNoMismatch
  := by
  apply (failsWith_text Error.isNoMismatch_short n).bind
  intro s
  split
  · exact failsWith_fail nofun
  · apply failsWith_pure

theorem failsWith_readBinaryText
    (c : Column) (n : Nat) :
  (c.readBinaryText n).FailsWith Error.IsNoMismatch
  := by
  have layout : (DateTimeField.read n).FailsWith Error.IsNoMismatch :=
    DateTimeField.failsWith_read Error.isNoMismatch_short n
  have integer (h : c.admitsNumbers = true) :
      (do return toString (← c.readIntegerBinary n Target.text.name) :
        Reader String).FailsWith Error.IsNoMismatch :=
    (failsWith_readIntegerBinary h n _).map toString
  rw [readBinaryText]
  cases htype : c.type with
  | year =>
    exact (failsWith_uint Error.isNoMismatch_short 2).map (Digits.pad c.length.toNat)
  | tiny | short | int24 | long | longLong =>
    exact integer (by simp [admitsNumbers, family, htype])
  | float => exact (failsWith_single Error.isNoMismatch_short).map Single.toText
  | double => exact (failsWith_double Error.isNoMismatch_short).map Double.toText
  | time =>
    exact (TimeField.failsWith_read Error.isNoMismatch_short n).map fun f =>
      f.toText n c.decimals.toNat
  | date | newDate => exact layout.value fun f => DateTimeField.failsWith_dateText f n c.zeroDates
  | dateTime | timestamp =>
    exact layout.value fun f =>
      DateTimeField.failsWith_dateTimeText f n c.decimals.toNat c.zeroDates
  | _ => exact failsWith_text Error.isNoMismatch_short n

theorem failsWith_readText
    (h : c.admits .text = true) (p : Protocol) (n : Nat) :
  (c.readText p n).FailsWith Error.IsNoMismatch
  := by
  rw [admits_eq] at h
  unfold readText
  cases hfamily : c.family with
  | bit => exact (failsWith_bytes Error.isNoMismatch_short n).map BitField.literal
  | geometry | null => simp [Family.admits, hfamily] at h
  | _ =>
    cases p with
    | text => apply failsWith_readPlainText
    | binary => apply failsWith_readBinaryText

theorem failsWith_readBytes
    (h : c.admits .bytes = true) (n : Nat) :
  (c.readBytes n).FailsWith Error.IsNoMismatch
  := by
  rw [admits_eq] at h
  rw [readBytes]
  cases hfamily : c.family with
  | bit | text | bytes | geometry => exact failsWith_bytes Error.isNoMismatch_short n
  | _ => simp [Family.admits, Target.isNumber, hfamily] at h

theorem failsWith_readCalendar
    (c : Column) (n : Nat) (target : String) :
  (c.readCalendar n target).FailsWith Error.IsNoMismatch
  := by
  apply (DateTimeField.failsWith_read Error.isNoMismatch_short n).bind
  intro f
  split
  · exact failsWith_fail nofun
  · apply failsWith_pure

theorem failsWith_readDate
    (h : c.admits .date = true) (p : Protocol) (n : Nat) :
  (c.readDate p n).FailsWith Error.IsNoMismatch
  := by
  have text : (do
      let s ← Reader.text n
      Reader.lift (Temporal.readDate s Target.date.name)).FailsWith Error.IsNoMismatch :=
    (failsWith_text Error.isNoMismatch_short n).value fun s => Temporal.failsWith_readDate s _
  rw [admits_eq] at h
  unfold readDate
  cases hfamily : c.family with
  | calendar =>
    cases p with
    | text => exact text
    | binary =>
      exact (c.failsWith_readCalendar n _).value fun f => failsWith_denoted f f.date? _
  | text => exact text
  | _ => simp [Family.admits, Target.isNumber, hfamily] at h

theorem failsWith_readDateTime
    (h : c.admits .dateTime = true) (p : Protocol) (n : Nat) :
  (c.readDateTime p n).FailsWith Error.IsNoMismatch
  := by
  have text : (do
      let s ← Reader.text n
      Reader.lift (Temporal.readDateTime s Target.dateTime.name)).FailsWith Error.IsNoMismatch :=
    (failsWith_text Error.isNoMismatch_short n).value fun s => Temporal.failsWith_readDateTime s _
  rw [admits_eq] at h
  unfold readDateTime
  cases hfamily : c.family with
  | calendar =>
    cases p with
    | text => exact text
    | binary =>
      exact (c.failsWith_readCalendar n _).value fun f => failsWith_denoted f f.dateTime? _
  | text => exact text
  | _ => simp [Family.admits, Target.isNumber, hfamily] at h

theorem failsWith_readTime
    (h : c.admits .time = true) (p : Protocol) (n : Nat) :
  (c.readTime p n).FailsWith Error.IsNoMismatch
  := by
  have text : (do
      let s ← Reader.text n
      Reader.lift (Temporal.readDuration s Target.time.name)).FailsWith Error.IsNoMismatch :=
    (failsWith_text Error.isNoMismatch_short n).value fun s => Temporal.failsWith_readDuration s _
  rw [admits_eq] at h
  unfold readTime
  cases hfamily : c.family with
  | time =>
    cases p with
    | text => exact text
    | binary =>
      exact (TimeField.failsWith_read Error.isNoMismatch_short n).map TimeField.toDuration
  | text => exact text
  | _ => simp [Family.admits, Target.isNumber, hfamily] at h

theorem failsWith_readGeometry
    (h : c.type = .geometry) (n : Nat) :
  (c.readGeometry n).FailsWith Error.IsNoMismatch
  := by
  simp only [readGeometry, h]
  apply Geometry.failsWith_readField

/-- A kind that is admitted is not refused, as far as it is read. -/
theorem failsWith_readAs
    (h : c.admits target = true) (p : Protocol) (n : Nat) :
  (c.readAs p target.underlying n).FailsWith Error.IsNoMismatch
  := by
  cases target with
  | bool => exact (failsWith_readBool h p n).map Value.bool
  | int8 => exact (failsWith_readInt8 h p n).map fun i => Value.int8 (.ofInt i)
  | int16 => exact (failsWith_readNarrow h p n _ _ _).map fun i => Value.int16 (.ofInt i)
  | int32 => exact (failsWith_readNarrow h p n _ _ _).map fun i => Value.int32 (.ofInt i)
  | int64 => exact (failsWith_readNarrow h p n _ _ _).map fun i => Value.int64 (.ofInt i)
  | uint64 => exact (failsWith_readNarrow h p n _ _ _).map fun i => Value.uint64 (.ofNat i.toNat)
  | float32 => exact (failsWith_readSingle h p n).map Value.float32
  | float64 => exact (failsWith_readDouble h p n).map Value.float64
  | decimal => exact (failsWith_readDecimal h p n).map Value.decimal
  | text => exact (failsWith_readText h p n).map Value.text
  | bytes => exact (failsWith_readBytes h n).map Value.bytes
  | date => exact (failsWith_readDate h p n).map Value.date
  | time => exact (failsWith_readTime h p n).map Value.time
  | dateTime => exact (failsWith_readDateTime h p n).map Value.dateTime
  | point | geometry =>
    have htype : c.type = .geometry := beq_iff_eq.mp h
    exact (failsWith_readGeometry htype n).map Value.geometry

/-! ### Points -/

/-- A point is read as a geometry, and then has to be one. -/
theorem readAs_point
    (c : Column) (p : Protocol) (n : Nat) :
  c.readAs p .point n =
    c.readAs p .geometry n >>= fun v => Reader.lift (Target.point.restrict v)
  := by
  funext cursor
  simp only [readAs, readPoint, Bind.bind, Reader.bind]
  rcases c.readGeometry n cursor with ⟨e | g, cursor'⟩
  · rfl
  · cases g <;> rfl

/-- Only points are restricted: a value is refused exactly when it is not a point. -/
theorem restrict_eq_error_iff
    {v : Value} {e : Error} :
  target.restrict v = .error e ↔
    (target = .point ∧ ∀ q, v ≠ .geometry (.point q)) ∧
      e = .typeMismatch .geometry Target.point.name
  := by
  cases target with
  | point =>
    cases v with
    | geometry g => cases g <;> simp [Target.restrict, eq_comm]
    | _ => simp [Target.restrict, eq_comm]
  | _ => simp [Target.restrict]

/-- Every kind is read as the one below it, and the value then restricted to the kind. -/
theorem run_readAs
    (c : Column) (p : Protocol) (target : Target) (n : Nat) (field : Bytes) :
  (c.readAs p target n).run field =
    (c.readAs p target.underlying n).run field >>= target.restrict
  := by
  cases target with
  | point => rw [readAs_point, run_bind_lift, Target.underlying]
  | _ =>
    simp only [Target.underlying]
    cases (c.readAs p _ n).run field <;> rfl

/-! ### Fields -/

/-- Of an admitted kind, only points can be refused for their type: those that are read as another
geometry. -/
theorem kind_run_readAs
    {e : Error} {n : Nat} {field : Bytes} (h : c.admits target = true)
    (he : (c.readAs p target n).run field = .error e) :
  e.kind = .typeMismatch ↔
    target = .point ∧
      ∃ g, (∀ q, g ≠ .point q) ∧ (c.readAs p .geometry n).run field = .ok (.geometry g)
  := by
  have below : SqlWire.FailsWith Error.IsNoMismatch ((c.readAs p target.underlying n).run field) :=
    failsWith_readAs h p n (.ofBytes field)
  rw [run_readAs] at he
  cases hread : (c.readAs p target.underlying n).run field with
  | error e' =>
    obtain rfl : e' = e := by
      rw [hread] at he
      exact Except.error.inj he
    constructor
    · intro hkind
      exact absurd hkind (below e' hread)
    · rintro ⟨rfl, g, -, hg⟩
      rw [Target.underlying, hg] at hread
      cases hread
  | ok v =>
    rw [hread] at he
    obtain ⟨⟨rfl, hv⟩, rfl⟩ := restrict_eq_error_iff.mp he
    obtain ⟨g, rfl⟩ : ∃ g, Value.geometry g = v := exists_of_run_map hread
    constructor
    · intro _
      exact ⟨rfl, g, fun q hq => hv q (congrArg Value.geometry hq), hread⟩
    · intro _
      rfl

/-- A kind that is not admitted is refused, by the check and by its reader, whatever the bytes; a
field is read as a kind that is admitted just as its reader reads it, and refused for its type only
if it is read as a point but is another geometry.  Strings of bytes admit no numbers. -/
theorem decode_admits
    (c : Column) (p : Protocol) (target : Target) (field : Bytes) :
  (c.admits target = false →
    c.decode p target field = .error (.typeMismatch c.type target.name) ∧
    ∀ n cursor, (c.readAs p target.underlying n cursor).1 =
      .error (.typeMismatch c.type target.underlying.name)) ∧
  (c.admits target = true →
    c.decode p target field =
      (c.readAs p target.underlying field.length).run field >>= target.restrict ∧
    ∀ e, c.decode p target field = .error e →
      (e.kind = .typeMismatch ↔
        target = .point ∧ ∃ g, (∀ q, g ≠ .point q) ∧
          (c.readAs p .geometry field.length).run field = .ok (.geometry g))) ∧
  (c.type.isString → c.isBinary → target.isNumber → c.admits target = false)
  := by
  refine ⟨?refused, ?read, ?strings⟩
  case refused =>
    intro h
    constructor
    · rw [decode, if_neg (Bool.eq_false_iff.mp h)]
    · intro n cursor
      rw [readAs_eq_mismatch h]
      rfl
  case read =>
    intro h
    rw [decode, if_pos h]
    exact ⟨run_readAs c p target field.length field, fun e => kind_run_readAs h⟩
  case strings =>
    intro hstring hbinary hnumber
    rw [admits_eq, family_of_isString hstring, if_pos hbinary]
    cases target <;> first | rfl | cases hnumber

/-- An empty line string is no point; a string of bytes is no integer, although its bytes are those
of a number. -/
theorem decode_admits_line :
  let c := ofNameAndType "g" .geometry
  let line : Bytes := [0, 0, 0, 0, 1, 2, 0, 0, 0, 0, 0, 0, 0]
  let s := ofNameAndType "s" .varString
  c.admits .point = true ∧
    c.decode .text .point line = .error (.typeMismatch .geometry "Point") ∧
    (Error.typeMismatch .geometry "Point").kind = .typeMismatch ∧
    s.admits .int32 = false ∧
    s.decode .binary .int32 [0x34, 0x32] = .error (.typeMismatch .varString "i32")
  := by
  intro c line s
  obtain ⟨-, read, -⟩ := decode_admits c .text .point line
  obtain ⟨refused, -, strings⟩ := decode_admits s .binary .int32 [0x34, 0x32]
  have admitted : c.admits .point = true := by decide
  have geometry : (c.readAs .text .geometry line.length).run line =
      .ok (.geometry (.lineString [])) := by
    rfl
  have restricted : c.decode .text .point line = .error (.typeMismatch .geometry "Point") := by
    rw [(read admitted).1, Target.underlying, geometry]
    rfl
  have none : s.admits .int32 = false := strings (by decide) (by decide) (by decide)
  exact ⟨admitted, restricted,
    ((read admitted).2 _ restricted).mpr ⟨rfl, .lineString [], nofun, geometry⟩, none,
    (refused none).1⟩

end Column

end SqlWire
