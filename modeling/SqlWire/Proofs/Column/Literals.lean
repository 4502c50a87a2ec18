import SqlWire.Proofs.Calendar.Texts
import SqlWire.Proofs.Column.Admission
import SqlWire.Proofs.Column.RoundTrip
import SqlWire.Proofs.Number.Integer
import SqlWire.Proofs.Text.Quoting

/-!
# Literals are read back from text columns

The content of the literal that a value is written as, `Target.content?`, is read back as the value
from a column in text form of a type that holds its kind, `Target.IsHeldBy`, under every status of
the server: `Value.decode_textBytes`.  Truth values, integers and decimals are their own content;
that of a text, a date or a time is what the server scans between the quotes.
-/

namespace SqlWire

namespace Target

/-- The types of columns that hold values of a kind with a literal, the announced one among them. -/
def IsHeldBy : Target → WireType → Prop
  | bool, type | int8, type | int16, type | int32, type | int64, type | uint64, type =>
    type.isInteger
  | decimal, type => type.isDecimal
  | text, type => type.isString
  | date, type => type.isDateOnly
  | dateTime, type => type.isCalendar ∧ ¬ type.isDateOnly
  | time, type => type = .time
  | _, _ => False

/-- The content of a literal of the kind, as a server of the given status reads it. -/
def content? (target : Target) (status : UInt16) (literal : Bytes) : Option Bytes :=
  match target with
  | text | date | time | dateTime => do
    let (content, rest) ←
      Quoted.scan (if status.toNat.testBit 9 then .quotesOnly else .backslash) literal
    if rest.isEmpty then content else none
  | _ => literal

/-- Nothing is behind the closing quote of a literal. -/
theorem content?_quoted
    {target : Target} (h : target = text ∨ target = date ∨ target = time ∨ target = dateTime)
    (status : UInt16) (s : String) :
  target.content? status (Value.quoted (.ofStatus status) s) = some (Utf8.encode s)
  := by
  have scanned : Quoted.scan (.ofStatus status)
      (Quoted.literal (.ofStatus status) (Utf8.encode s) ++ []) = some (Utf8.encode s, []) :=
    Quoted.scan_literal _ _ nofun
  rw [List.append_nil, Quoted.Escaping.ofStatus_eq] at scanned
  rw [Quoted.Escaping.ofStatus_eq, Value.quoted]
  rcases h with rfl | rfl | rfl | rfl <;> rw [content?, scanned] <;> rfl

end Target

/-- The years of the value's dates have four digits. -/
def Value.HasShortYear : Value → Prop
  | date d => 0 ≤ d.year ∧ d.year ≤ 9999
  | dateTime t => 0 ≤ t.date.year ∧ t.date.year ≤ 9999
  | _ => True

namespace Column

/-- The value is written as a literal whose content is read, from the column in text form, as what
the value is read back as. -/
def ReadsLiteral (c : Column) (status : UInt16) (target : Target) (v : Value) : Prop :=
  ∃ literal content w, v.textBytes (.ofStatus status) none = .ok literal ∧
    target.content? status literal = some content ∧
    c.decode .text target content = .ok w ∧ v.ReadBack w

variable {c : Column} {status : UInt16} {target : Target} {v w : Value} {s : String}

theorem isCalendar_of_isDateOnly
    {type : WireType} (h : type.isDateOnly) :
  type.isCalendar
  := by
  cases type <;> first | rfl | cases h

theorem admits_of_isHeldBy
    (h : target.IsHeldBy c.type) :
  c.admits target = true
  := by
  rw [admits_eq]
  cases target with
  | bool | int8 | int16 | int32 | int64 | uint64 =>
    rw [family_eq_integer h]
    rfl
  | decimal =>
    rw [family_eq_decimal h]
    rfl
  | text =>
    rw [family_of_isString h]
    split <;> rfl
  | date =>
    rw [family_eq_calendar (isCalendar_of_isDateOnly h)]
    rfl
  | dateTime =>
    rw [family_eq_calendar h.1]
    rfl
  | time =>
    have htype : c.type = .time := h
    rw [family, htype]
    rfl
  | float32 | float64 | bytes | point | geometry => cases h

/-- A literal whose content is a text. -/
theorem readsLiteral_of_reads
    {literal : Bytes} (hheld : target.IsHeldBy c.type)
    (hwritten : v.textBytes (.ofStatus status) none = .ok literal)
    (hcontent : target.content? status literal = some (Utf8.encode s))
    (hread : (c.readAs .text target (Utf8.encode s).length).Reads (Utf8.encode s) w)
    (hback : v.ReadBack w) :
  c.ReadsLiteral status target v
  := by
  use literal, Utf8.encode s, w
  rw [decode, if_pos (admits_of_isHeldBy hheld), hread.run]
  exact ⟨hwritten, hcontent, rfl, hback⟩

/-! ### Integers -/

theorem reads_readInteger_text
    {i : Int} (htype : c.type.isInteger) (hfits : i.natAbs < 2 ^ 96) (target : String) :
  (c.readInteger .text (Utf8.encode (toString i)).length target).Reads
    (Utf8.encode (toString i)) i
  := by
  rw [readInteger, readIntegerText, family_eq_integer htype]
  exact (Reader.reads_text (toString i)).lift (Number.readInteger_toString hfits target)

theorem reads_readNarrow_text
    {least greatest i : Int} {target : Target} (htype : c.type.isInteger)
    (hrange : least ≤ i ∧ i ≤ greatest) (hfits : i.natAbs < 2 ^ 96) :
  (c.readNarrow .text (Utf8.encode (toString i)).length least greatest target).Reads
    (Utf8.encode (toString i)) i
  := by
  apply (reads_readInteger_text htype hfits target.name).lift
  rw [Number.narrow, if_pos hrange]

theorem reads_readBool_text
    {i : Int} (htype : c.type.isInteger) (hfits : i.natAbs < 2 ^ 96) :
  (c.readBool .text (Utf8.encode (toString i)).length).Reads (Utf8.encode (toString i)) (i != 0)
  := by
  simp only [readBool, family_eq_integer htype]
  exact (reads_readInteger_text htype hfits _).map (· != 0)

theorem readsLiteral_bool
    (htype : c.type.isInteger) (b : Bool) :
  c.ReadsLiteral status .bool (.bool b)
  := by
  have truth {i : Int} (hfits : i.natAbs < 2 ^ 96) :=
    (reads_readBool_text htype hfits).map Value.bool
  cases b with
  | true => exact readsLiteral_of_reads htype rfl rfl (truth (i := 1) (by decide)) rfl
  | false => exact readsLiteral_of_reads htype rfl rfl (truth (i := 0) (by decide)) rfl

theorem readsLiteral_int8
    (htype : c.type.isInteger) (i : Int8) :
  c.ReadsLiteral status .int8 (.int8 i)
  := by
  have hlow := i.le_toInt
  have hhigh := i.toInt_lt
  have number : (c.readInt8 .text (Utf8.encode (toString i.toInt)).length).Reads
      (Utf8.encode (toString i.toInt)) i.toInt := by
    rw [readInt8]
    -- bit fields have a reader of their own, and are not integers
    split
    next hbit => simp [hbit, WireType.isInteger] at htype
    next => apply reads_readNarrow_text htype <;> omega
  have back : Value.int8 (.ofInt i.toInt) = .int8 i := by rw [Int8.ofInt_toInt]
  exact readsLiteral_of_reads htype rfl rfl (number.map fun i => Value.int8 (.ofInt i)) back

theorem readsLiteral_int16
    (htype : c.type.isInteger) (i : Int16) :
  c.ReadsLiteral status .int16 (.int16 i)
  := by
  have hlow := i.le_toInt
  have hhigh := i.toInt_lt
  have number : (c.readNarrow .text (Utf8.encode (toString i.toInt)).length
      (-32768) 32767 .int16).Reads (Utf8.encode (toString i.toInt)) i.toInt :=
    reads_readNarrow_text htype (by omega) (by omega)
  have back : Value.int16 (.ofInt i.toInt) = .int16 i := by rw [Int16.ofInt_toInt]
  exact readsLiteral_of_reads htype rfl rfl (number.map fun i => Value.int16 (.ofInt i)) back

theorem readsLiteral_int32
    (htype : c.type.isInteger) (i : Int32) :
  c.ReadsLiteral status .int32 (.int32 i)
  := by
  have hlow := i.le_toInt
  have hhigh := i.toInt_lt
  have number : (c.readNarrow .text (Utf8.encode (toString i.toInt)).length
      (-2147483648) 2147483647 .int32).Reads (Utf8.encode (toString i.toInt)) i.toInt :=
    reads_readNarrow_text htype (by omega) (by omega)
  have back : Value.int32 (.ofInt i.toInt) = .int32 i := by rw [Int32.ofInt_toInt]
  exact readsLiteral_of_reads htype rfl rfl (number.map fun i => Value.int32 (.ofInt i)) back

theorem readsLiteral_int64
    (htype : c.type.isInteger) (i : Int64) :
  c.ReadsLiteral status .int64 (.int64 i)
  := by
  have hlow := i.le_toInt
  have hhigh := i.toInt_lt
  have number : (c.readNarrow .text (Utf8.encode (toString i.toInt)).length
      (-9223372036854775808) 9223372036854775807 .int64).Reads
      (Utf8.encode (toString i.toInt)) i.toInt :=
    reads_readNarrow_text htype (by omega) (by omega)
  have back : Value.int64 (.ofInt i.toInt) = .int64 i := by rw [Int64.ofInt_toInt]
  exact readsLiteral_of_reads htype rfl rfl (number.map fun i => Value.int64 (.ofInt i)) back

theorem readsLiteral_uint64
    (htype : c.type.isInteger) (n : UInt64) :
  c.ReadsLiteral status .uint64 (.uint64 n)
  := by
  have hfits := n.toNat_lt
  have number : (c.readNarrow .text (Utf8.encode (toString (n.toNat : Int))).length
      0 18446744073709551615 .uint64).Reads (Utf8.encode (toString (n.toNat : Int))) n.toNat :=
    reads_readNarrow_text htype (by omega) (by omega)
  have back : Value.uint64 (.ofNat (n.toNat : Int).toNat) = .uint64 n := by
    rw [Int.toNat_natCast, UInt64.ofNat_toNat]
  exact readsLiteral_of_reads htype rfl rfl
    (number.map fun i : Int => Value.uint64 (.ofNat i.toNat)) back

/-! ### Decimals and texts -/

theorem readsLiteral_decimal
    (htype : c.type.isDecimal) (d : Decimal) :
  c.ReadsLiteral status .decimal (.decimal d)
  := by
  obtain ⟨d', hread, hsame⟩ := Number.readDecimal_toText d Target.decimal.name
  have number : (c.readDecimal .text (Utf8.encode d.toText).length).Reads
      (Utf8.encode d.toText) d' := by
    simp only [readDecimal, family_eq_decimal htype]
    exact (Reader.reads_text d.toText).lift hread
  exact readsLiteral_of_reads htype rfl rfl (number.map Value.decimal) ⟨d', rfl, hsame⟩

theorem readsLiteral_text
    (htype : c.type.isString) (s : String) :
  c.ReadsLiteral status .text (.text s)
  := by
  have hcalendar : c.type.isCalendar = false := by
    cases hc : c.type <;> simp [hc, WireType.isString] at htype <;> rfl
  have plain : (c.readPlainText (Utf8.encode s).length).Reads (Utf8.encode s) s := by
    apply (Reader.reads_text s).bind_nil
    rw [hcalendar]
    exact Reader.reads_pure s
  have text : (c.readText .text (Utf8.encode s).length).Reads (Utf8.encode s) s := by
    cases hbinary : c.isBinary <;> simp only [readText, family_of_isString htype, hbinary] <;>
      exact plain
  have written : (Value.text s).textBytes (.ofStatus status) none =
      .ok (Value.quoted (.ofStatus status) (String.ofList s.toList)) := rfl
  rw [String.ofList_toList] at written
  exact readsLiteral_of_reads htype written (Target.content?_quoted (by decide) status s)
    (text.map Value.text) rfl

/-! ### Dates and times -/

theorem readsLiteral_date
    (htype : c.type.isDateOnly) {d : Date} (hyear : 0 ≤ d.year ∧ d.year ≤ 9999) :
  c.ReadsLiteral status .date (.date d)
  := by
  have date : (c.readDate .text (Utf8.encode d.toText).length).Reads (Utf8.encode d.toText) d := by
    simp only [readDate, family_eq_calendar (isCalendar_of_isDateOnly htype)]
    exact (Reader.reads_text d.toText).lift (Temporal.readDate_toText hyear _)
  exact readsLiteral_of_reads htype rfl (Target.content?_quoted (by decide) status _)
    (date.map Value.date) rfl

theorem readsLiteral_dateTime
    (htype : c.type.isCalendar ∧ ¬ c.type.isDateOnly) {t : DateTime}
    (hyear : 0 ≤ t.date.year ∧ t.date.year ≤ 9999) :
  c.ReadsLiteral status .dateTime (.dateTime t)
  := by
  have dateTime : (c.readDateTime .text (Utf8.encode (Value.dateTimeText t)).length).Reads
      (Utf8.encode (Value.dateTimeText t)) ⟨t.date, t.time.wholeMicros⟩ := by
    simp only [readDateTime, family_eq_calendar htype.1]
    exact (Reader.reads_text _).lift (Temporal.readDateTime_dateTimeText hyear _)
  exact readsLiteral_of_reads htype rfl (Target.content?_quoted (by decide) status _)
    (dateTime.map Value.dateTime) rfl

theorem readsLiteral_time
    (htype : c.type = .time) (d : Duration) :
  c.ReadsLiteral status .time (.time d)
  := by
  have time : (c.readTime .text (Utf8.encode d.toText).length).Reads (Utf8.encode d.toText)
      d.wholeMicros := by
    simp only [readTime, family, htype]
    exact (Reader.reads_text d.toText).lift (Temporal.readDuration_toText d _)
  exact readsLiteral_of_reads htype rfl (Target.content?_quoted (by decide) status _)
    (time.map Value.time) rfl

end Column

/-! ### Every kind -/

/-- A value of a kind that a column's type holds is written as a literal whose content is read back
from the column, under every status of the server. -/
theorem Value.decode_textBytes
    {c : Column} {target : Target} {v : Value} (status : UInt16) (htarget : v.target? = some target)
    (hheld : target.IsHeldBy c.type) (hyear : v.HasShortYear) :
  ∃ literal content w, v.textBytes (.ofStatus status) none = .ok literal ∧
    target.content? status literal = some content ∧
    c.decode .text target content = .ok w ∧ v.ReadBack w
  := by
  change c.ReadsLiteral status target v
  cases v <;> cases htarget
  case bool b => exact Column.readsLiteral_bool hheld b
  case int8 i => exact Column.readsLiteral_int8 hheld i
  case int16 i => exact Column.readsLiteral_int16 hheld i
  case int32 i => exact Column.readsLiteral_int32 hheld i
  case int64 i => exact Column.readsLiteral_int64 hheld i
  case uint64 n => exact Column.readsLiteral_uint64 hheld n
  case decimal d => exact Column.readsLiteral_decimal hheld d
  case text s => exact Column.readsLiteral_text hheld s
  case date d => exact Column.readsLiteral_date hheld hyear
  case time d => exact Column.readsLiteral_time hheld d
  case dateTime t => exact Column.readsLiteral_dateTime hheld hyear
  all_goals exact hheld.elim

/-- Half a second into the leap second at the end of a year, and some nanoseconds, which are not
kept. -/
theorem Value.decode_textBytes_leap :
  let t : DateTime := ⟨⟨2016, 12, 31, by decide⟩, ⟨23, 59, 59, 1500000999, by decide⟩⟩
  let c := Column.ofNameAndType "t" .timestamp
  (dateTime t).target? = some .dateTime ∧ Target.dateTime.IsHeldBy c.type ∧
    (dateTime t).HasShortYear ∧
    ∃ literal content, (dateTime t).textBytes (.ofStatus 0x0200) none = .ok literal ∧
      literal = plain "'2016-12-31 23:59:60.500000'" ∧
      Target.dateTime.content? 0x0200 literal = some content ∧
      c.decode .text .dateTime content =
        .ok (.dateTime ⟨t.date, ⟨23, 59, 59, 1500000000, by decide⟩⟩)
  := by
  intro t c
  have hheld : Target.dateTime.IsHeldBy c.type := ⟨rfl, nofun⟩
  have hyear : (dateTime t).HasShortYear := ⟨by decide, by decide⟩
  obtain ⟨literal, content, w, hwritten, hcontent, hdecoded, rfl⟩ :=
    decode_textBytes (v := dateTime t) 0x0200 rfl hheld hyear
  have shown : literal = plain "'2016-12-31 23:59:60.500000'" := by
    have literally : (dateTime t).textBytes (.ofStatus 0x0200) none =
        .ok (plain "'2016-12-31 23:59:60.500000'") := by
      decide +kernel
    exact Except.ok.inj (hwritten.symm.trans literally)
  have kept : t.time.wholeMicros = ⟨23, 59, 59, 1500000000, by decide⟩ := by decide
  rw [kept] at hdecoded
  exact ⟨rfl, hheld, hyear, literal, content, hwritten, shown, hcontent, hdecoded⟩

end SqlWire
