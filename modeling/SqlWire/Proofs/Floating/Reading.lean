import SqlWire.Proofs.Floating.Conversion
import SqlWire.Proofs.Number.Literal

/-!
# Floating-point numbers of texts

A literal is read as the nearest number of eight bytes, which is an infinity for literals from
`2 ^ 1024 - 2 ^ 970` on, `Double.isSome_number?_ofLiteral`; narrowed to four bytes, it is one from
`2 ^ 128 - 2 ^ 103 - 2 ^ 74` on, `Double.isSome_number?_toSingle_ofLiteral`.  That is a little less
than the point `2 ^ 128 - 2 ^ 103` from which literals are too large for four bytes, since those
close below it are rounded up to it first.  The texts that are read without being literals,
`Double.IsName`, name numbers that are not finite.
-/

namespace SqlWire

namespace Literal

variable {l : Literal}

/-- An exponent below the one at which digits are no longer taken is taken as it is. -/
theorem Exponent.saturated_eq
    {e : Exponent} (h : Digits.value e.digits < 0x10000) :
  e.saturated = Digits.value e.digits
  := by
  rw [saturated]
  generalize e.digits = ds at h
  induction ds using List.reverseRecOn with
  | nil => rfl
  | append_singleton ds c ih =>
    rw [Digits.value, List.foldl_concat] at h
    have before := ih (by rw [Digits.value]; omega)
    rw [List.foldl_concat, before, if_pos (by rw [Digits.value]; omega), Digits.value, Digits.value,
      List.foldl_concat]

/-- The significand and the power of ten make up the number that the literal denotes. -/
theorem abs_number
    (h : ∀ e ∈ l.exponent, Digits.value e.digits < 0x10000) :
  |l.number| = l.significand * 10 ^ l.power
  := by
  have power : l.power = l.shift - l.fraction.length := by
    cases hexponent : l.exponent with
    | none => simp only [Literal.power, shift, hexponent, Option.map_none, Option.getD_none]
    | some e =>
      simp only [Literal.power, shift, hexponent, Option.map_some, Option.getD_some, Exponent.shift,
        Exponent.saturated_eq (h e hexponent)]
  have magnitude : (0 : ℚ) ≤ l.mantissa * 10 ^ l.shift :=
    mul_nonneg l.mantissa_nonneg (by positivity)
  have sign : |l.number| = l.mantissa * 10 ^ l.shift := by
    rw [number, withSign, Number.abs_signed l.isNegative magnitude]
  rw [sign, power, mantissa, zpow_sub₀ (by norm_num), zpow_natCast, div_mul_eq_mul_div,
    mul_div_assoc]

theorem significand_lt
    (hl : l.WellFormed) :
  l.significand < 10 ^ (l.whole.length + l.fraction.length)
  := by
  rw [significand, Digits.longValue_eq, ← List.length_append]
  apply Digits.value_lt
  intro c hc
  rcases List.mem_append.mp hc with hc | hc
  · exact hl.whole c hc
  · exact hl.fraction c hc

end Literal

namespace Double

variable {l : Literal} {cs : List Char} {x : Double}

/-! ### Literals -/

/-- The number nearest to a literal is finite below the point half a unit above the greatest number
of eight bytes. -/
theorem isSome_number?_ofLiteral
    (hl : l.WellFormed) :
  (ofLiteral l).number?.isSome ↔ (l.significand * 10 ^ l.power : ℚ) < 2 ^ 1024 - 2 ^ 970
  := by
  have point : Format.binary64.overflowThreshold =
      ((2 ^ 53 : ℕ) - 1 / 2) * 2 ^ (Format.binary64.leastExponent + (2045 : ℕ)) := by
    have exponent : Format.binary64.leastExponent + Format.binary64.specialExponent - 2 =
        Format.binary64.leastExponent + (2045 : ℕ) := by decide
    rw [Format.overflowThreshold, exponent, Nat.cast_pow, Nat.cast_ofNat]
    rfl
  have unit : (0 : ℚ) < 2 ^ (Format.binary64.leastExponent + (2045 : ℕ)) := by positivity
  rw [← Format.binary64_overflowThreshold, point, ← ofScaled_lt_iff (by norm_num) le_rfl
    (even_two.pow_of_ne_zero (by norm_num)) (by norm_num) le_rfl (l.significand_lt hl),
    Option.isSome_iff_exists]
  apply exists_congr
  intro q
  refine (and_iff_left_of_imp fun hq => ?_).symm
  refine lt_of_lt_of_le (Format.abs_lt_of_mem_number? (by decide) hq) ?_
  rw [point]
  exact mul_le_mul_of_nonneg_right (by linarith) unit.le

/-- Narrowed to four bytes, the number nearest to a literal is finite below the point that is half a
unit of eight bytes under that from which numbers are too large for four. -/
theorem isSome_number?_toSingle_ofLiteral
    (hl : l.WellFormed) :
  (ofLiteral l).toSingle.number?.isSome ↔
    (l.significand * 10 ^ l.power : ℚ) < 2 ^ 128 - 2 ^ 103 - 2 ^ 74
  := by
  have exponent : Format.binary64.leastExponent + (1149 : ℕ) = 75 := by decide
  have point : Format.binary32.overflowThreshold =
      (2 ^ 53 - 2 ^ 28 : ℕ) * 2 ^ (Format.binary64.leastExponent + (1149 : ℕ)) := by
    rw [Format.binary32_overflowThreshold, exponent]
    norm_num
  have half : (2 ^ 128 - 2 ^ 103 - 2 ^ 74 : ℚ) =
      ((2 ^ 53 - 2 ^ 28 : ℕ) - 1 / 2) * 2 ^ (Format.binary64.leastExponent + (1149 : ℕ)) := by
    rw [exponent]
    norm_num
  rw [isSome_number?_toSingle, point, half]
  exact ofScaled_lt_iff (by norm_num) (by norm_num) (by decide) (by norm_num) (by norm_num)
    (l.significand_lt hl)

/-! ### Names -/

/-- The text is a name of an infinity or of what is not a number: one of three words in any case,
with an optional sign. -/
def IsName (cs : List Char) : Prop :=
  ∃ (sign : Option Char) (word : List Char), (∀ c ∈ sign, Literal.isSign c) ∧
    cs = sign.toList ++ word ∧
    String.ofList (word.map Ascii.lower) ∈ ["inf", "infinity", "nan"]

/-- A word of three does not start with a sign. -/
theorem not_isSign_of_mem_head?
    {word : List Char} (h : String.ofList (word.map Ascii.lower) ∈ ["inf", "infinity", "nan"]) :
  ∀ c ∈ word.head?, ¬ Literal.isSign c
  := by
  intro c hc hsign
  obtain ⟨rest, rfl⟩ := List.head?_eq_some_iff.mp hc
  rw [Literal.isSign, Bool.or_eq_true, beq_iff_eq, beq_iff_eq] at hsign
  have same : Ascii.lower c = c := by
    rcases hsign with rfl | rfl <;> rfl
  simp only [List.map_cons, same, List.mem_cons, List.not_mem_nil, or_false, ← String.toList_inj,
    String.toList_ofList] at h
  rcases hsign with rfl | rfl <;> rcases h with h | h | h <;> cases h

theorem isSome_ofName?_iff :
  (ofName? cs).isSome ↔ IsName cs
  := by
  constructor
  · rcases hsign : Literal.takeSign cs with ⟨sign, word⟩
    obtain ⟨htext, hsigns⟩ := Literal.eq_append_of_takeSign hsign
    intro h
    simp only [ofName?, hsign] at h
    refine ⟨sign, word, hsigns, htext, ?_⟩
    split at h
    next hinfinity => rcases hinfinity with hword | hword <;> simp [hword]
    next =>
      split at h
      next hnan => simp [hnan]
      next => cases h
  · rintro ⟨sign, word, hsigns, rfl, hword⟩
    have taken := Literal.takeSign_append hsigns (not_isSign_of_mem_head? hword)
    simp only [List.mem_cons, List.not_mem_nil, or_false] at hword
    simp only [ofName?, taken]
    rcases hword with hword | hword | hword <;> simp [hword]

/-- What is named is not finite. -/
theorem number?_of_ofName?
    (h : ofName? cs = some x) :
  x.number? = none
  := by
  rcases hsign : Literal.takeSign cs with ⟨sign, word⟩
  simp only [ofName?, hsign] at h
  split at h
  next =>
    rw [← Option.some.inj h, number?_ofBits, Format.number?_infinity]
  next =>
    split at h
    next =>
      rw [← Option.some.inj h, number?_ofBits]
      exact Format.number?_infinity_add _ (by decide)
    next => cases h

end Double

end SqlWire
