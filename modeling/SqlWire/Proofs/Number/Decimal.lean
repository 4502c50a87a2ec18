import Mathlib.Tactic.Use
import SqlWire.Number.Reading
import SqlWire.Proofs.Number.Literal
import SqlWire.Proofs.Text.Digits

/-!
# Decimals are read back

The text of a decimal is a literal, `Decimal.literal`, whose digits all fit, so that the text is
read as the same number: `Number.readDecimal_toText`.  The sign of a zero is not kept.
-/

namespace SqlWire

namespace Decimal

/-- The digits of a decimal, of which the last `scale` are behind the point. -/
def digits (d : Decimal) : List Char :=
  Digits.fill (d.scale + 1) (Digits.ofNat d.coefficient)

/-- The parts of the text of a decimal. -/
def literal (d : Decimal) : Literal where
  sign := if d.negative then some '-' else none
  whole := d.digits.take (d.digits.length - d.scale)
  pointed := !(d.digits.drop (d.digits.length - d.scale)).isEmpty
  fraction := d.digits.drop (d.digits.length - d.scale)
  exponent := none

theorem write_literal
    (d : Decimal) :
  d.toText.toList = d.literal.write
  := by
  have hsign : (if d.negative then ['-'] else []) = d.literal.sign.toList := by
    rw [literal]
    cases d.negative <;> rfl
  have hpoint (fraction : List Char) :
      (if fraction.isEmpty then [] else '.' :: fraction) =
        if !fraction.isEmpty then '.' :: fraction else [] := by
    cases fraction <;> rfl
  rw [toText, String.toList_ofList, hsign, hpoint, Literal.write]
  apply (List.append_nil _).symm

theorem scale_lt_length_digits
    (d : Decimal) :
  d.scale < d.digits.length
  := by
  rw [digits, Digits.length_fill]
  omega

theorem wellFormed_literal
    (d : Decimal) :
  d.literal.WellFormed
  := by
  have hdigits : ∀ c ∈ d.digits, Digits.isDigit c :=
    Digits.isDigit_of_mem_fill fun _ => Digits.isDigit_of_mem_ofNat
  have hlength := d.scale_lt_length_digits
  constructor
  · intro c hc
    rw [literal] at hc
    cases hnegative : d.negative with
    | false => simp [hnegative] at hc
    | true =>
      obtain rfl : '-' = c := by simpa [hnegative] using hc
      rfl
  · intro c hc
    apply hdigits c (List.mem_of_mem_take hc)
  · intro c hc
    apply hdigits c (List.mem_of_mem_drop hc)
  · intro hpointed
    simpa [literal] using hpointed
  · left
    apply List.ne_nil_of_length_pos
    rw [literal, List.length_take]
    omega
  · intro e he
    cases he

/-- Digits behind the point are appended as long as they fit. -/
theorem appendFraction_of_lt
    {n scale : Nat} {ds : List Char} (hscale : scale + ds.length ≤ maxScale)
    (hfits : n * 10 ^ ds.length + Digits.value ds < limit) :
  appendFraction n scale ds = some (n * 10 ^ ds.length + Digits.value ds, scale + ds.length)
  := by
  induction ds generalizing n scale with
  | nil => simp [appendFraction, Digits.value]
  | cons c ds ih =>
    have step : n * 10 ^ (c :: ds).length + Digits.value (c :: ds) =
        (10 * n + Digits.digitValue c) * 10 ^ ds.length + Digits.value ds := by
      rw [← Digits.foldl_value, ← Digits.foldl_value, List.foldl_cons]
    rw [List.length_cons] at hscale
    rw [step] at hfits ⊢
    have power : 0 < 10 ^ ds.length := Nat.pow_pos (by decide)
    have grows := Nat.le_mul_of_pos_right (10 * n + Digits.digitValue c) power
    rw [appendFraction, if_pos ⟨by omega, by omega⟩, ih (by omega) hfits, List.length_cons,
      Nat.add_assoc, Nat.add_comm 1]

theorem ofDigits?_of_lt
    {whole fraction : List Char} (hscale : fraction.length ≤ maxScale)
    (hfits : Digits.value (whole ++ fraction) < limit) :
  ofDigits? whole fraction = some (Digits.value (whole ++ fraction), fraction.length)
  := by
  rw [Digits.value_append] at hfits ⊢
  have power : 0 < 10 ^ fraction.length := Nat.pow_pos (by decide)
  have grows := Nat.le_mul_of_pos_right (Digits.value whole) power
  have hwhole : Digits.value whole < limit := by omega
  rw [ofDigits?, Digits.below?_eq (by decide), if_pos hwhole]
  change appendFraction (Digits.value whole) 0 fraction = _
  rw [appendFraction_of_lt (by omega) hfits, Nat.zero_add]

/-- The literal of a decimal denotes it, but for the sign of a zero. -/
theorem ofLiteral?_literal
    (d : Decimal) :
  ofLiteral? d.literal = ofUnsignedZero? d.negative d.coefficient d.scale
  := by
  have hwhole : d.literal.whole ++ d.literal.fraction = d.digits := List.take_append_drop _ _
  have hvalue : Digits.value (d.literal.whole ++ d.literal.fraction) = d.coefficient := by
    rw [hwhole, digits, Digits.value_fill, Digits.value_ofNat]
  have hscale : d.literal.fraction.length = d.scale := by
    have hlength := d.scale_lt_length_digits
    rw [literal, List.length_drop]
    omega
  have hnegative : d.literal.isNegative = d.negative := by
    rw [literal, Literal.isNegative]
    cases d.negative <;> rfl
  have hparts : ofDigits? d.literal.whole d.literal.fraction = some (d.coefficient, d.scale) := by
    rw [ofDigits?_of_lt (hscale ▸ d.scale_le) (hvalue ▸ d.coefficient_lt), hvalue, hscale]
  rw [ofLiteral?, hparts, hnegative]
  rfl

/-- The decimal without a sign if it is zero. -/
def withoutZeroSign (d : Decimal) : Decimal :=
  { d with negative := d.negative && d.coefficient != 0 }

theorem sameNumber_withoutZeroSign
    (d : Decimal) :
  d.SameNumber d.withoutZeroSign
  := by
  use rfl
  by_cases hzero : d.coefficient = 0
  · right
    apply hzero
  · left
    simp [withoutZeroSign, hzero]

theorem exists_ofUnsignedZero?
    {coefficient scale : Nat} (hcoefficient : coefficient < 2 ^ 96) (hscale : scale ≤ 28)
    (negative : Bool) :
  ∃ d, ofUnsignedZero? negative coefficient scale = some d
  :=
  ⟨_, dif_pos ⟨hcoefficient, hscale⟩⟩

/-- The sign that a zero has lost is none that its integer part had. -/
theorem truncate_of_ofUnsignedZero?
    {negative : Bool} {coefficient scale : Nat} {d : Decimal}
    (h : ofUnsignedZero? negative coefficient scale = some d) :
  d.truncate =
    if negative then -((coefficient / 10 ^ scale : Nat) : Int) else (coefficient / 10 ^ scale : Nat)
  := by
  rw [ofUnsignedZero?, ofParts?] at h
  split at h
  next =>
    cases h
    rw [truncate]
    by_cases hzero : coefficient = 0
    · simp [hzero]
    · simp [hzero]
  next => cases h

end Decimal

namespace Number

/-- The decimal of a literal is cut off at the point; without one the literal overflows. -/
theorem readInteger_of_ofLiteral?
    {s : String} {l : Literal} (hs : Literal.ofString? s = some l) (target : String) :
  (∀ d, Decimal.ofLiteral? l = some d → readInteger s target = .ok d.truncate) ∧
  (Decimal.ofLiteral? l = none → readInteger s target = .error (.overflow s target))
  := by
  constructor
  · intro d hd
    simp only [readInteger, readDecimal, hs, hd]
    rfl
  · intro hnone
    simp only [readInteger, readDecimal, hs, hnone]
    rfl

/-- A literal can only be too large. -/
theorem eq_overflow_of_readInteger
    {s target : String} {l : Literal} {e : Error} (hs : Literal.ofString? s = some l)
    (h : readInteger s target = .error e) :
  e = .overflow s target
  := by
  obtain ⟨hok, hoverflow⟩ := readInteger_of_ofLiteral? hs target
  cases hdecimal : Decimal.ofLiteral? l with
  | some d =>
    rw [hok d hdecimal] at h
    cases h
  | none =>
    rw [hoverflow hdecimal] at h
    exact (Except.error.inj h).symm

/-- The text of a decimal is read as the decimal, but for the sign of a zero. -/
theorem readDecimal_toText_eq
    (d : Decimal) (target : String) :
  readDecimal d.toText target = .ok d.withoutZeroSign
  := by
  have hliteral : Literal.ofString? d.toText = some d.literal := by
    rw [Literal.ofString?, d.write_literal, Literal.ofChars?_write d.wellFormed_literal]
  have hdecimal := d.ofLiteral?_literal
  rw [Decimal.ofUnsignedZero?, Decimal.ofParts?, dif_pos ⟨d.coefficient_lt, d.scale_le⟩]
    at hdecimal
  simp only [readDecimal, hliteral, hdecimal]
  rfl

theorem readDecimal_toText
    (d : Decimal) (target : String) :
  ∃ d', readDecimal d.toText target = .ok d' ∧ d.SameNumber d'
  :=
  ⟨d.withoutZeroSign, readDecimal_toText_eq d target, d.sameNumber_withoutZeroSign⟩

end Number

end SqlWire
