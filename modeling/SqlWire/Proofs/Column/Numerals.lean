import SqlWire.Proofs.Column.Admission
import SqlWire.Proofs.Column.Agreement
import SqlWire.Proofs.Text.Utf8

/-!
# Integers of fields that are texts

A column whose numbers come as text, `Column.CarriesText`, tells two failures of integers apart: a
field that is no numeric literal is malformed, and a literal that does not fit overflows.
`Column.decode_numeral` says which fields are malformed, and for those that are a sign and digits,
however many, what their integer is and whether it fits.
-/

namespace SqlWire

/-- The least and the greatest integer of a kind, where the kind is one of integers. -/
def Target.bounds? : Target → Option (Int × Int)
  | int8 => some (-2 ^ 7, 2 ^ 7 - 1)
  | int16 => some (-2 ^ 15, 2 ^ 15 - 1)
  | int32 => some (-2 ^ 31, 2 ^ 31 - 1)
  | int64 => some (-2 ^ 63, 2 ^ 63 - 1)
  | uint64 => some (0, 2 ^ 64 - 1)
  | _ => none

/-- The value of the kind that an integer in its bounds is. -/
def Target.ofInteger : Target → Int → Value
  | int8, i => .int8 (.ofInt i)
  | int16, i => .int16 (.ofInt i)
  | int32, i => .int32 (.ofInt i)
  | int64, i => .int64 (.ofInt i)
  | uint64, i => .uint64 (.ofNat i.toNat)
  | _, _ => .null

/-- The integer that a value is. -/
def Value.integer? : Value → Option Int
  | int8 i => some i.toInt
  | int16 i => some i.toInt
  | int32 i => some i.toInt
  | int64 i => some i.toInt
  | uint64 n => some n.toNat
  | _ => none

namespace Target

variable {target : Target} {least greatest i : Int}

/-- The integers of every kind have fewer than 96 bits. -/
theorem natAbs_lt_of_bounds?
    (h : target.bounds? = some (least, greatest)) (hi : least ≤ i ∧ i ≤ greatest) :
  i.natAbs < 2 ^ 96
  := by
  cases target <;> cases h <;> omega

theorem ofInteger_eq
    (h : target.bounds? = some (least, greatest)) (hi : least ≤ i ∧ i ≤ greatest) :
  (target.ofInteger i).target? = some target ∧ (target.ofInteger i).integer? = some i
  := by
  cases target with
  | int8 =>
    cases h
    exact ⟨rfl, congrArg some (Int8.toInt_ofInt_of_le hi.1 (by omega))⟩
  | int16 =>
    cases h
    exact ⟨rfl, congrArg some (Int16.toInt_ofInt_of_le hi.1 (by omega))⟩
  | int32 =>
    cases h
    exact ⟨rfl, congrArg some (Int32.toInt_ofInt_of_le hi.1 (by omega))⟩
  | int64 =>
    cases h
    exact ⟨rfl, congrArg some (Int64.toInt_ofInt_of_le hi.1 (by omega))⟩
  | uint64 =>
    cases h
    have number : (UInt64.ofNat i.toNat).toNat = i.toNat :=
      UInt64.toNat_ofNat_of_lt' (by rw [UInt64.size]; omega)
    refine ⟨rfl, congrArg some ?_⟩
    rw [number]
    omega
  | _ => cases h

/-- An integer in the bounds of a kind is a value of it, and any other overflows. -/
theorem narrow_ofInteger
    (h : target.bounds? = some (least, greatest)) (i : Int) :
  let outcome := Number.narrow least greatest i target.name >>= fun i => .ok (target.ofInteger i)
  (least ≤ i ∧ i ≤ greatest →
    ∃ v, outcome = .ok v ∧ v.target? = some target ∧ v.integer? = some i) ∧
  (¬ (least ≤ i ∧ i ≤ greatest) → ∃ e, outcome = .error e ∧ e.kind = .overflow)
  := by
  intro outcome
  constructor
  · intro hrange
    obtain ⟨hkind, hinteger⟩ := ofInteger_eq h hrange
    refine ⟨target.ofInteger i, ?_, hkind, hinteger⟩
    simp only [outcome, Number.narrow, if_pos hrange]
    rfl
  · intro hrange
    refine ⟨.overflow (toString i) target.name, ?_, rfl⟩
    simp only [outcome, Number.narrow, if_neg hrange]
    rfl

end Target

/-! ### Failures of literals -/

namespace Literal

theorem toNat_lt_of_isDigit
    {c : Char} (h : Digits.isDigit c) :
  c.toNat < 0x80
  := by
  have bounds := Digits.toNat_of_isDigit h
  omega

theorem toNat_lt_of_isSign
    {c : Char} (h : isSign c) :
  c.toNat < 0x80
  := by
  rw [isSign, Bool.or_eq_true, beq_iff_eq, beq_iff_eq] at h
  rcases h with rfl | rfl <;> decide

theorem Exponent.toNat_lt_of_mem_write
    {e : Exponent} (h : e.WellFormed) {c : Char} (hc : c ∈ e.write) :
  c.toNat < 0x80
  := by
  obtain ⟨hmarker, hsign, hdigits⟩ := h
  rw [Digits.isNumber_iff] at hdigits
  rw [isMarker, Bool.or_eq_true, beq_iff_eq, beq_iff_eq] at hmarker
  rw [write, List.cons_append, List.mem_cons, List.mem_append, Option.mem_toList] at hc
  rcases hc with rfl | hc | hc
  · rcases hmarker with hmarker | hmarker <;> rw [hmarker] <;> decide
  · exact toNat_lt_of_isSign (hsign c hc)
  · exact toNat_lt_of_isDigit (hdigits.2 c hc)

/-- A literal is written in ASCII. -/
theorem toNat_lt_of_mem_write
    {l : Literal} (h : l.WellFormed) {c : Char} (hc : c ∈ l.write) :
  c.toNat < 0x80
  := by
  rw [write, List.mem_append, List.mem_append, List.mem_append, Option.mem_toList] at hc
  rcases hc with ((hc | hc) | hc) | hc
  · exact toNat_lt_of_isSign (h.sign c hc)
  · exact toNat_lt_of_isDigit (h.whole c hc)
  · split at hc
    next =>
      rcases List.mem_cons.mp hc with rfl | hc
      · decide
      · exact toNat_lt_of_isDigit (h.fraction c hc)
    next => cases hc
  · cases hexponent : l.exponent with
    | none =>
      rw [hexponent] at hc
      cases hc
    | some e =>
      rw [hexponent] at hc
      exact Exponent.toNat_lt_of_mem_write (h.exponent e hexponent) hc

/-- The bytes of a literal are those of its characters, and nothing else is read as one. -/
theorem ofString?_decode_eq_none_iff
    (field : Bytes) :
  ofString? (Utf8.decode field) = none ↔
    ¬ ∃ l : Literal, l.WellFormed ∧ field = Utf8.encode (String.ofList l.write)
  := by
  rw [← Option.not_isSome_iff_eq_none, Option.isSome_iff_exists]
  apply not_congr
  constructor
  · rintro ⟨l, hl⟩
    obtain ⟨hwell, htext⟩ := ofChars?_eq_some_iff.mp hl
    refine ⟨l, hwell, ?_⟩
    rw [← htext, String.ofList_toList]
    symm
    apply Utf8.encode_decode
    intro c hc
    rw [htext] at hc
    exact toNat_lt_of_mem_write hwell hc
  · rintro ⟨l, hwell, rfl⟩
    rw [Utf8.decode_encode, ofString?, String.toList_ofList]
    exact ⟨l, ofChars?_write hwell⟩

end Literal

namespace Number

theorem failsWith_readInteger_of_literal
    {s : String} {l : Literal} (hs : Literal.ofString? s = some l) (target : String) :
  FailsWith (·.kind = .overflow) (readInteger s target)
  := by
  intro e he
  rw [eq_overflow_of_readInteger hs he]
  rfl

theorem failsWith_narrow_overflow
    (least greatest i : Int) (target : String) :
  FailsWith (·.kind = .overflow) (narrow least greatest i target)
  := by
  rw [narrow]
  split
  · apply failsWith_ok
  · exact failsWith_error rfl

end Number

namespace Column

variable {c : Column} {p : Protocol} {target : Target} {least greatest : Int}

/-- Integers of every kind are read and kept within the bounds of the kind; only the first byte of a
bit field is read in a way of its own. -/
theorem readAs_eq_readNarrow
    (ht : target.bounds? = some (least, greatest)) (hbit : target = .int8 → c.type ≠ .bit)
    (length : Nat) :
  c.readAs p target length =
    c.readNarrow p length least greatest target >>= fun i => pure (target.ofInteger i)
  := by
  cases target with
  | int8 =>
    cases ht
    have whole : c.readInt8 p length = c.readNarrow p length (-128) 127 .int8 := by
      rw [readInt8]
      split
      next htype => exact absurd htype (hbit rfl)
      next => rfl
    rw [readAs, whole]
    rfl
  | int16 | int32 | int64 | uint64 =>
    cases ht
    rfl
  | _ => cases ht

/-- The column's numbers come as text: decimals and texts in both protocols, integers and
floating-point numbers in text form. -/
def CarriesText (c : Column) (p : Protocol) : Prop :=
  c.type.isDecimal ∨ (c.type.isString ∧ c.isBinary = false) ∨
    (p = .text ∧ (c.type.isInteger ∨ c.type = .float ∨ c.type = .double))

theorem CarriesText.family
    (h : c.CarriesText p) :
  c.family = .integer ∨ c.family = .float ∨ c.family = .decimal ∨ c.family = .text
  := by
  rcases h with hdecimal | ⟨hstring, hbinary⟩ | ⟨-, hinteger | hfloat | hdouble⟩
  · exact .inr (.inr (.inl (family_eq_decimal hdecimal)))
  · rw [family_of_isString hstring, hbinary]
    exact .inr (.inr (.inr rfl))
  · exact .inl (family_eq_integer hinteger)
  · exact .inr (.inl (by rw [Column.family, hfloat]))
  · exact .inr (.inl (by rw [Column.family, hdouble]))

/-- What differs between the protocols is not carried as text in the binary one. -/
theorem CarriesText.readNarrow
    (h : c.CarriesText p) :
  c.readNarrow p = c.readNarrow .text
  := by
  cases p with
  | text => rfl
  | binary =>
    have oneForm : c.HasOneForm := by
      rcases h with hdecimal | ⟨hstring, -⟩ | ⟨hprotocol, -⟩
      · exact .inl hdecimal
      · exact .inr (.inr (.inr hstring))
      · cases hprotocol
    exact oneForm.readNarrow.symm

theorem CarriesText.run_readNarrow
    (h : c.CarriesText p) (field : Bytes) (least greatest : Int) (target : Target) :
  (c.readNarrow p field.length least greatest target).run field =
    Number.readInteger (Utf8.decode field) target.name >>= fun i =>
      Number.narrow least greatest i target.name
  := by
  have text : c.readIntegerText field.length target.name =
      Reader.text field.length >>= fun s => Reader.lift (Number.readInteger s target.name) := by
    rw [readIntegerText]
    rcases h.family with hfamily | hfamily | hfamily | hfamily <;> rw [hfamily]
  rw [h.readNarrow, Column.readNarrow, Column.readInteger, text, Reader.run_bind_lift,
    Reader.run_bind_lift, Reader.run_text]
  rfl

/-- A field is read as an integer in two steps: the integer part of the literal that it is, and the
bounds of the kind. -/
theorem CarriesText.decode_eq
    (h : c.CarriesText p) (ht : target.bounds? = some (least, greatest)) (field : Bytes) :
  c.decode p target field =
    (Number.readInteger (Utf8.decode field) target.name >>= fun i =>
      Number.narrow least greatest i target.name) >>= fun i => .ok (target.ofInteger i)
  := by
  have admitted : c.admits target = true := by
    rw [admits_eq]
    rcases h.family with hfamily | hfamily | hfamily | hfamily <;> rw [hfamily] <;>
      cases target <;> first | rfl | cases ht
  have unlike : c.type ≠ .bit := by
    intro hbit
    rcases h.family with hfamily | hfamily | hfamily | hfamily <;>
      simp [Column.family, hbit] at hfamily
  rw [decode, if_pos admitted, readAs_eq_readNarrow ht (fun _ => unlike), Reader.run_map,
    h.run_readNarrow field]

/-- A field that is no numeric literal is malformed, and no other is; one that is a sign, or none,
and digits gives the integer that they make, or overflows if that is out of bounds. -/
theorem decode_numeral
    (h : c.CarriesText p) (ht : target.bounds? = some (least, greatest)) (field : Bytes) :
  ((∃ e, c.decode p target field = .error e ∧ e.kind = .malformedLiteral) ↔
    ¬ ∃ l : Literal, l.WellFormed ∧ field = Utf8.encode (String.ofList l.write)) ∧
  ∀ (sign : Option Char) (ds : List Char), (∀ s ∈ sign, Literal.isSign s) → Digits.isNumber ds →
    field = Utf8.encode (String.ofList (sign.toList ++ ds)) →
    let i := Literal.integer sign ds
    (least ≤ i ∧ i ≤ greatest →
      ∃ v, c.decode p target field = .ok v ∧ v.target? = some target ∧ v.integer? = some i) ∧
    (¬ (least ≤ i ∧ i ≤ greatest) →
      ∃ e, c.decode p target field = .error e ∧ e.kind = .overflow)
  := by
  have steps := h.decode_eq ht field
  constructor
  · rw [← Literal.ofString?_decode_eq_none_iff, steps]
    constructor
    · rintro ⟨e, he, hkind⟩
      by_contra hliteral
      obtain ⟨l, hl⟩ := Option.ne_none_iff_exists'.mp hliteral
      have overflow := ((Number.failsWith_readInteger_of_literal hl target.name).bind fun i =>
        Number.failsWith_narrow_overflow least greatest i target.name).bind fun i =>
          failsWith_ok (P := (·.kind = .overflow)) (target.ofInteger i)
      rw [overflow e he] at hkind
      cases hkind
    · intro hnone
      refine ⟨.malformed (Utf8.decode field) target.name, ?_, rfl⟩
      simp only [Number.readInteger, Number.readDecimal, hnone]
      rfl
  · rintro sign ds hsign hds rfl i
    rw [Utf8.decode_encode, Number.readInteger_ofDigits hsign hds] at steps
    rw [steps]
    constructor
    · intro hrange
      obtain ⟨hkind, hinteger⟩ := Target.ofInteger_eq ht hrange
      refine ⟨target.ofInteger i, ?_, hkind, hinteger⟩
      rw [if_pos (Target.natAbs_lt_of_bounds? ht hrange)]
      change (Number.narrow least greatest i target.name >>= fun i => .ok (target.ofInteger i)) = _
      rw [Number.narrow, if_pos hrange]
      rfl
    · intro hrange
      split
      next =>
        refine ⟨.overflow (toString i) target.name, ?_, rfl⟩
        change (Number.narrow least greatest i target.name >>= fun i =>
          .ok (target.ofInteger i)) = _
        rw [Number.narrow, if_neg hrange]
        rfl
      next => exact ⟨_, rfl, rfl⟩

/-- Forty zeros in front do not count, and the integer after the greatest one of four bytes
overflows. -/
theorem decode_numeral_zeros :
  let c := ofNameAndType "n" .newDecimal
  let seven := '-' :: List.replicate 40 '0' ++ ['7']
  let beyond := "2147483648".toList
  (c.CarriesText .binary ∧ Target.int32.bounds? = some (-2 ^ 31, 2 ^ 31 - 1)) ∧
    (∃ v, c.decode .binary .int32 (Utf8.encode (String.ofList seven)) = .ok v ∧
      v.target? = some .int32 ∧ v.integer? = some (-7)) ∧
    ∃ e, c.decode .binary .int32 (Utf8.encode (String.ofList beyond)) = .error e ∧
      e.kind = .overflow
  := by
  intro c seven beyond
  have carries : c.CarriesText .binary := .inl rfl
  have bounds : Target.int32.bounds? = some (-2 ^ 31, 2 ^ 31 - 1) := rfl
  have minus : ∀ s ∈ some '-', Literal.isSign s := by
    rintro _ ⟨⟩
    rfl
  have ok := ((decode_numeral carries bounds (Utf8.encode (String.ofList seven))).2 (some '-')
    (List.replicate 40 '0' ++ ['7']) minus (by decide) rfl).1 (by decide)
  have overflow := ((decode_numeral carries bounds (Utf8.encode (String.ofList beyond))).2 none
    beyond nofun (by decide) rfl).2 (by decide)
  exact ⟨⟨carries, bounds⟩, ok, overflow⟩

end Column

end SqlWire
