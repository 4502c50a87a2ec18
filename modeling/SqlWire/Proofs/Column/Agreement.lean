import SqlWire.Proofs.Column.Framing
import SqlWire.Proofs.Layout
import SqlWire.Proofs.Number.Integer

/-!
# Fields are read alike in both protocols

An integer is read from its decimal text as it is read from its two's complement, of whatever exact
kind the value is to be, and fails only by overflow.  A decimal, a bit field, a geometry or a string
is the same field in both protocols, and is read by the same reader.  Both are said by
`Column.readKind_text_binary`.
-/

namespace SqlWire

/-- The number of bytes that hold the integers of a type. -/
def WireType.integerWidth : WireType → Option Nat
  | tiny => some 1
  | short | year => some 2
  | int24 => some 3
  | long => some 4
  | longLong => some 8
  | _ => none

namespace Column

open Reader

/-! ### Integers and their fields -/

/-- The integers that `w` bytes of the column hold; years have no sign, whatever the flag. -/
def HoldsIn (c : Column) (w : Nat) (i : Int) : Prop :=
  if c.isSigned ∧ c.type ≠ .year then -(256 ^ w : Nat) ≤ 2 * i ∧ 2 * i < (256 ^ w : Nat)
  else 0 ≤ i ∧ i < (256 ^ w : Nat)

instance (c : Column) (w : Nat) (i : Int) : Decidable (c.HoldsIn w i) := by
  unfold HoldsIn
  infer_instance

/-- The integers that the fields of the column hold. -/
def Holds (c : Column) (i : Int) : Prop :=
  ∃ w ∈ c.type.integerWidth, c.HoldsIn w i

/-- The field of an integer: its decimal text, or its two's complement in the width of the type. -/
def integerField (c : Column) (i : Int) : Protocol → Bytes
  | .text => Utf8.encode (toString i)
  | .binary => Bytes.ofIntLE (c.type.binaryWidth.getD 0) i

theorem Holds.family
    {c : Column} {i : Int} (h : c.Holds i) :
  c.family = .integer
  := by
  obtain ⟨w, hw, -⟩ := h
  cases htype : c.type <;> simp [WireType.integerWidth, htype] at hw <;>
    simp [Column.family, htype]

theorem Holds.not_isCalendar
    {c : Column} {i : Int} (h : c.Holds i) :
  c.type.isCalendar = false
  := by
  have hfamily := h.family
  cases htype : c.type <;> simp [Column.family, htype] at hfamily <;> rfl

theorem Holds.natAbs_lt
    {c : Column} {i : Int} (h : c.Holds i) :
  i.natAbs < 2 ^ 96
  := by
  obtain ⟨w, hw, hi⟩ := h
  have hwidth : 256 ^ w ≤ 2 ^ 64 := by
    cases htype : c.type <;> simp [WireType.integerWidth, htype] at hw <;> subst hw <;> decide
  rw [HoldsIn] at hi
  split at hi <;> omega

theorem reads_uint_ofIntLE
    {w : Nat} {i : Int} (hlow : 0 ≤ i) (hhigh : i < (256 ^ w : Nat)) :
  (do return ((← uint w : Nat) : Int)).Reads (Bytes.ofIntLE w i) i
  := by
  rw [Bytes.ofIntLE_of_nonneg hlow hhigh]
  have read := (reads_uint_of_lt (w := w) (n := i.toNat) (by omega)).map Int.ofNat
  rw [Int.ofNat_eq_natCast, Int.toNat_of_nonneg hlow] at read
  apply read

theorem reads_readFixed
    {c : Column} {w : Nat} {i : Int} (hyear : c.type ≠ .year) (h : c.HoldsIn w i) :
  (c.readFixed w).Reads (Bytes.ofIntLE w i) i
  := by
  rw [readFixed]
  rw [HoldsIn] at h
  cases hsigned : c.isSigned with
  | true =>
    rw [if_pos ⟨hsigned, hyear⟩] at h
    apply reads_sint h.1 h.2
  | false =>
    rw [if_neg (by simp [hsigned])] at h
    apply reads_uint_ofIntLE h.1 h.2

theorem reads_readIntegerBinary
    {c : Column} {i : Int} (h : c.Holds i) (target : String) :
  (c.readIntegerBinary (c.integerField i .binary).length target).Reads
    (c.integerField i .binary) i
  := by
  obtain ⟨w, hw, hi⟩ := h
  rw [readIntegerBinary, integerField]
  cases htype : c.type <;> rw [htype] at hw <;> cases hw
  case tiny | short | long | longLong => exact reads_readFixed (by rw [htype]; decide) hi
  case int24 =>
    obtain ⟨filling, hfield⟩ := Bytes.exists_ofIntLE_succ 3 i
    change Reads _ (Bytes.ofIntLE (3 + 1) i) i
    rw [hfield]
    apply (reads_readFixed (by rw [htype]; decide) hi).bind
    exact (reads_skip (List.length_singleton (a := filling))).map fun _ => i
  case year =>
    rw [HoldsIn, if_neg (by simp [htype])] at hi
    exact reads_uint_ofIntLE hi.1 hi.2

theorem reads_readIntegerText
    {c : Column} {i : Int} (h : c.Holds i) (target : String) :
  (c.readIntegerText (c.integerField i .text).length target).Reads (c.integerField i .text) i
  := by
  simp only [readIntegerText, h.family]
  exact (reads_text (toString i)).lift (Number.readInteger_toString h.natAbs_lt target)

theorem reads_readInteger
    {c : Column} {i : Int} (h : c.Holds i) (p : Protocol) (target : String) :
  (c.readInteger p (c.integerField i p).length target).Reads (c.integerField i p) i
  := by
  cases p with
  | text => apply reads_readIntegerText h
  | binary => apply reads_readIntegerBinary h

/-! ### One outcome in both protocols -/

/-- The fields of the integer have one outcome in both protocols, which is no failure but an
overflow. -/
def ReadsAlike {α : Type} (c : Column) (i : Int) (r : Protocol → Nat → Reader α) : Prop :=
  ∃ outcome : Except Error α, (∀ e, outcome = .error e → e.kind = .overflow) ∧
    ∀ p, (r p (c.integerField i p).length).run (c.integerField i p) = outcome

variable {c : Column} {i : Int} {α β : Type}

theorem ReadsAlike.of_reads
    {r : Protocol → Nat → Reader α} {a : α}
    (h : ∀ p, (r p (c.integerField i p).length).Reads (c.integerField i p) a) :
  c.ReadsAlike i r
  :=
  ⟨.ok a, nofun, fun p => (h p).run⟩

theorem ReadsAlike.lift
    {r : Protocol → Nat → Reader α} {next : α → Except Error β} (h : c.ReadsAlike i r)
    (hnext : ∀ a e, next a = .error e → e.kind = .overflow) :
  c.ReadsAlike i fun p n => r p n >>= fun a => Reader.lift (next a)
  := by
  obtain ⟨outcome, hoverflow, hr⟩ := h
  use outcome >>= next
  constructor
  · cases outcome with
    | ok a => apply hnext a
    | error e =>
      rintro _ ⟨⟩
      apply hoverflow e rfl
  · intro p
    rw [run_bind_lift, hr]

theorem ReadsAlike.map
    {r : Protocol → Nat → Reader α} (f : α → β) (h : c.ReadsAlike i r) :
  c.ReadsAlike i fun p n => r p n >>= fun a => pure (f a)
  := by
  have lifted : c.ReadsAlike i fun p n => r p n >>= fun a => Reader.lift (.ok (f a)) := h.lift nofun
  apply lifted

theorem kind_of_narrow
    {least greatest i : Int} {target : String} {e : Error}
    (h : Number.narrow least greatest i target = .error e) :
  e.kind = .overflow
  := by
  rw [Number.narrow] at h
  split at h
  · cases h
  · cases h
    rfl

theorem readsAlike_readInteger
    (h : c.Holds i) (target : String) :
  c.ReadsAlike i fun p n => c.readInteger p n target
  :=
  .of_reads fun p => reads_readInteger h p target

theorem readsAlike_readNarrow
    (h : c.Holds i) (least greatest : Int) (target : Target) :
  c.ReadsAlike i fun p n => c.readNarrow p n least greatest target
  :=
  (readsAlike_readInteger h target.name).lift fun _ _ => kind_of_narrow

theorem readsAlike_readInt8
    (h : c.Holds i) :
  c.ReadsAlike i c.readInt8
  := by
  have htype : c.type ≠ .bit := by
    intro htype
    have hfamily := h.family
    simp [family, htype] at hfamily
  unfold readInt8
  split
  · contradiction
  · apply readsAlike_readNarrow h

/-- The decimal that the integer is. -/
theorem readsAlike_readDecimal
    (h : c.Holds i) :
  c.ReadsAlike i c.readDecimal
  := by
  obtain ⟨d, hd⟩ := Decimal.exists_ofInt? h.natAbs_lt
  apply ReadsAlike.of_reads (a := d)
  intro p
  unfold readDecimal
  rw [h.family]
  cases p with
  | text =>
    exact (reads_text (toString i)).lift (Number.readDecimal_toString hd Target.decimal.name)
  | binary =>
    apply (reads_readIntegerBinary h Target.decimal.name).lift
    rw [hd]
    rfl

theorem readsAlike_readBool
    (h : c.Holds i) :
  c.ReadsAlike i c.readBool
  := by
  unfold readBool
  simp only [h.family]
  exact (readsAlike_readInteger h Target.bool.name).map (· != 0)

/-- Only calendar columns have a policy for texts. -/
theorem readPlainText_of_not_isCalendar
    (hcalendar : c.type.isCalendar = false) (n : Nat) :
  c.readPlainText n = Reader.text n
  := by
  simp only [readPlainText, hcalendar, Bool.false_and, Bool.false_eq_true, if_false]
  apply bind_pure_self

/-- The decimal text of the integer; that of a year would be filled up. -/
theorem reads_readBinaryText
    (h : c.Holds i) (hyear : c.type ≠ .year) :
  (c.readBinaryText (c.integerField i .binary).length).Reads (c.integerField i .binary)
    (toString i)
  := by
  have text := (reads_readIntegerBinary h Target.text.name).map (toString ·)
  obtain ⟨w, hw, -⟩ := h
  rw [readBinaryText]
  cases htype : c.type <;> rw [htype] at hw <;> cases hw
  case year => contradiction
  case tiny | short | int24 | long | longLong => exact text

theorem readsAlike_readText
    (h : c.Holds i) (hyear : c.type ≠ .year) :
  c.ReadsAlike i c.readText
  := by
  apply ReadsAlike.of_reads (a := toString i)
  intro p
  unfold readText
  rw [h.family]
  cases p with
  | text =>
    rw [readPlainText_of_not_isCalendar h.not_isCalendar]
    apply reads_text
  | binary => apply reads_readBinaryText h hyear

/-- The kinds of values as which integers are read without rounding; the text of a year is left out,
because it is filled up in one of the protocols only. -/
def IsExactFor (c : Column) : Option Target → Prop
  | none | some .bool | some .int8 | some .int16 | some .int32 | some .int64 | some .uint64
  | some .decimal => True
  | some .text => c.type ≠ .year
  | _ => False

theorem readsAlike_readAs
    {target : Target} (h : c.Holds i) (hexact : c.IsExactFor target) :
  c.ReadsAlike i fun p => c.readAs p target
  := by
  cases target with
  | bool => exact (readsAlike_readBool h).map Value.bool
  | int8 => exact (readsAlike_readInt8 h).map fun i => Value.int8 (.ofInt i)
  | int16 => exact (readsAlike_readNarrow h _ _ _).map fun i => Value.int16 (.ofInt i)
  | int32 => exact (readsAlike_readNarrow h _ _ _).map fun i => Value.int32 (.ofInt i)
  | int64 => exact (readsAlike_readNarrow h _ _ _).map fun i => Value.int64 (.ofInt i)
  | uint64 => exact (readsAlike_readNarrow h _ _ _).map fun i => Value.uint64 (.ofNat i.toNat)
  | decimal => exact (readsAlike_readDecimal h).map Value.decimal
  | text => exact (readsAlike_readText h hexact).map Value.text
  | float32 | float64 | bytes | date | time | dateTime | point | geometry => cases hexact

/-- The natural kind of a column of integers is one of integers. -/
theorem Holds.naturalTarget
    (h : c.Holds i) :
  ∃ target, c.naturalTarget = some target ∧ c.IsExactFor target
  := by
  obtain ⟨w, hw, -⟩ := h
  cases htype : c.type <;> rw [htype] at hw <;> cases hw
  case int24 | year => simp [Column.naturalTarget, htype, IsExactFor]
  case tiny | short | long | longLong =>
    cases hsigned : c.isSigned <;> simp [Column.naturalTarget, htype, hsigned, IsExactFor]

theorem readsAlike_readKind
    {kind : Option Target} (h : c.Holds i) (hexact : c.IsExactFor kind) :
  c.ReadsAlike i fun p => c.readKind p kind
  := by
  cases kind with
  | some target => apply readsAlike_readAs h hexact
  | none =>
    obtain ⟨target, hnatural, hexact⟩ := h.naturalTarget
    have natural : (fun p => c.readKind p none) = fun p => c.readAs p target := by
      funext p n
      simp [readKind, readNatural, h.not_isCalendar, hnatural]
    rw [natural]
    apply readsAlike_readAs h hexact

/-! ### Fields of one form -/

/-- The fields of the column have one form in both protocols. -/
def HasOneForm (c : Column) : Prop :=
  c.type.isDecimal ∨ c.type = .bit ∨ c.type = .geometry ∨ c.type.isString

theorem HasOneForm.family
    (h : c.HasOneForm) :
  c.family = .decimal ∨ c.family = .bit ∨ c.family = .geometry ∨ c.family = .text ∨
    c.family = .bytes
  := by
  cases htype : c.type <;>
    simp [HasOneForm, htype, WireType.isDecimal, WireType.isString] at h <;>
    cases hbinary : c.isBinary <;> simp [Column.family, htype, hbinary]

theorem HasOneForm.not_isCalendar
    (h : c.HasOneForm) :
  c.type.isCalendar = false
  := by
  cases htype : c.type <;>
    simp [HasOneForm, htype, WireType.isDecimal, WireType.isString] at h <;> rfl

theorem HasOneForm.type_ne_float
    (h : c.HasOneForm) :
  c.type ≠ .float
  := by
  intro htype
  simp [HasOneForm, htype, WireType.isDecimal, WireType.isString] at h

theorem HasOneForm.readNarrow
    (h : c.HasOneForm) :
  c.readNarrow .text = c.readNarrow .binary
  := by
  funext n least greatest target
  have integer : c.readIntegerBinary n target.name = c.readIntegerText n target.name := by
    cases htype : c.type <;>
      simp [HasOneForm, htype, WireType.isDecimal, WireType.isString] at h <;>
      simp only [readIntegerBinary, htype]
  simp only [Column.readNarrow, readInteger, integer]

theorem HasOneForm.readText
    (h : c.HasOneForm) :
  c.readText .text = c.readText .binary
  := by
  funext n
  have plain : c.readPlainText n = c.readBinaryText n := by
    rw [readPlainText_of_not_isCalendar h.not_isCalendar, readBinaryText]
    cases htype : c.type <;>
      simp [HasOneForm, htype, WireType.isDecimal, WireType.isString] at h <;> rfl
  rcases h.family with hfamily | hfamily | hfamily | hfamily | hfamily <;>
    simp only [Column.readText, hfamily, plain]

/-- The readers that ask for the protocol only where forms differ. -/
theorem HasOneForm.readers
    (h : c.HasOneForm) (n : Nat) :
  c.readBool .text n = c.readBool .binary n ∧
  c.readDouble .text n = c.readDouble .binary n ∧
  c.readDecimal .text n = c.readDecimal .binary n ∧
  c.readDate .text n = c.readDate .binary n ∧
  c.readTime .text n = c.readTime .binary n ∧
  c.readDateTime .text n = c.readDateTime .binary n
  := by
  rcases h.family with hfamily | hfamily | hfamily | hfamily | hfamily <;>
    simp only [readBool, readDouble, readDecimal, readDate, readTime, readDateTime, hfamily,
      and_self]

theorem HasOneForm.readAs
    (h : c.HasOneForm) (target : Target) :
  c.readAs .text target = c.readAs .binary target
  := by
  funext n
  obtain ⟨hbool, hdouble, hdecimal, hdate, htime, hdateTime⟩ := h.readers n
  have hint8 : c.readInt8 .text n = c.readInt8 .binary n := by
    rw [readInt8, readInt8, h.readNarrow]
  have hsingle : c.readSingle .text n = c.readSingle .binary n := by
    simp only [readSingle, h.type_ne_float, hdouble, false_and, if_false]
  cases target <;>
    simp only [Column.readAs, h.readNarrow, h.readText, hbool, hint8, hsingle, hdouble, hdecimal,
      hdate, htime, hdateTime]

theorem HasOneForm.readKind
    (h : c.HasOneForm) (kind : Option Target) :
  c.readKind .text kind = c.readKind .binary kind
  := by
  funext n
  cases kind with
  | some target => exact congrFun (h.readAs target) n
  | none =>
    simp only [Column.readKind, readNatural, h.not_isCalendar, h.readAs, Bool.false_eq_true,
      if_false]

/-! ### Both protocols -/

/-- The value of a field of the given kind, or of the natural one when none is given. -/
def decodeKind (c : Column) (p : Protocol) (kind : Option Target) (field : Bytes) :
    Except Error Value :=
  match kind with
  | some target => c.decode p target field
  | none => c.decodeNatural p field

/-- Kinds are refused alike in both protocols. -/
theorem decodeKind_congr
    {kind : Option Target} {field field' : Bytes}
    (h : (c.readKind .text kind field.length).run field =
      (c.readKind .binary kind field'.length).run field') :
  c.decodeKind .text kind field = c.decodeKind .binary kind field'
  := by
  cases kind with
  | none => exact h
  | some target =>
    simp only [decodeKind, decode]
    split
    · exact h
    · rfl

/-- The decimal text of an integer that a column holds is read as any exact kind as its two's
complement is, both with a value or both with an overflow; a field of a column whose fields have
one form is read alike in both protocols, as any kind. -/
theorem readKind_text_binary
    (c : Column) (kind : Option Target) :
  (∀ i, c.Holds i → c.IsExactFor kind →
    let text := c.integerField i .text
    let binary := c.integerField i .binary
    (c.readKind .text kind text.length).run text =
        (c.readKind .binary kind binary.length).run binary ∧
      c.decodeKind .text kind text = c.decodeKind .binary kind binary ∧
      ∀ e, (c.readKind .text kind text.length).run text = .error e → e.kind = .overflow) ∧
  (c.HasOneForm →
    c.readKind .text kind = c.readKind .binary kind ∧
      ∀ field, c.decodeKind .text kind field = c.decodeKind .binary kind field)
  := by
  constructor
  · intro i h hexact text binary
    obtain ⟨outcome, hoverflow, hread⟩ := readsAlike_readKind h hexact
    have same := (hread .text).trans (hread .binary).symm
    use same, decodeKind_congr same
    intro e he
    apply hoverflow e ((hread .text).symm.trans he)
  · intro h
    use h.readKind kind
    intro field
    apply decodeKind_congr
    rw [h.readKind]

/-- The least integer beyond those of eight bytes with a sign overflows as one of them, from its
text as from its bytes; two bits are the same bytes in both protocols. -/
theorem readKind_text_binary_overflow :
  let c := { ofNameAndType "n" .longLong with flags := 0x20 }
  let b := ofNameAndType "b" .bit
  (c.Holds (2 ^ 63) ∧ c.IsExactFor (some .int64) ∧ b.HasOneForm) ∧
    c.decodeKind .text (some .int64) (Utf8.encode (toString (2 ^ 63 : Int))) =
      .error (.overflow "9223372036854775808" "i64") ∧
    c.decodeKind .binary (some .int64) [0, 0, 0, 0, 0, 0, 0, 0x80] =
      .error (.overflow "9223372036854775808" "i64") ∧
    b.decodeKind .text none [3] = b.decodeKind .binary none [3]
  := by
  intro c b
  have holds : c.Holds (2 ^ 63) := ⟨8, rfl, by decide⟩
  have oneForm : b.HasOneForm := .inr (.inl rfl)
  have field : c.integerField (2 ^ 63) .binary = [0, 0, 0, 0, 0, 0, 0, 0x80] := by decide
  have overflow : c.decodeKind .binary (some .int64) [0, 0, 0, 0, 0, 0, 0, 0x80] =
      .error (.overflow "9223372036854775808" "i64") := by
    subst c
    rfl
  obtain ⟨-, same, -⟩ := (readKind_text_binary c (some .int64)).1 (2 ^ 63) holds trivial
  rw [field, overflow] at same
  exact ⟨⟨holds, trivial, oneForm⟩, same, overflow,
    ((readKind_text_binary b none).2 oneForm).2 [3]⟩

end Column

end SqlWire
