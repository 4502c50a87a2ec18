import SqlWire.Proofs.Number.Decimal

/-!
# Digits that do not fit are rounded away

Reading digit by digit, a decimal keeps as many digits behind the point as its scale and its
coefficient have room for, and rounds by the first that does not fit.  That is rounding half up of
the whole number that the digits make: `Decimal.ofDigits?_eq` says that the digits kept are
`Decimal.fit?`, the greatest number of places at which the rounded number is within the limit.
-/

namespace SqlWire

namespace Decimal

/-! ### Rounding half up -/

/-- The number without its last `dropped` digits, a half rounded up. -/
def roundOff (n dropped : Nat) : Nat :=
  (2 * n + 10 ^ dropped) / (2 * 10 ^ dropped)

theorem roundOff_zero
    (n : Nat) :
  roundOff n 0 = n
  := by
  rw [roundOff]
  omega

/-- Rounding leaves at least what cutting off leaves. -/
theorem le_roundOff
    {m n dropped : Nat} (h : m * 10 ^ dropped ≤ n) :
  m ≤ roundOff n dropped
  := by
  have power : 0 < 10 ^ dropped := Nat.pow_pos (by decide)
  rw [roundOff, Nat.le_div_iff_mul_le (by omega), Nat.mul_left_comm]
  omega

/-- A number behind which a digit and others are cut off is rounded up by five and above. -/
theorem roundOff_append
    {n d rest places : Nat} (hd : d ≤ 9) (hrest : rest < 10 ^ places) :
  roundOff (n * 10 ^ (places + 1) + (d * 10 ^ places + rest)) (places + 1) =
    if d < 5 then n else n + 1
  := by
  rw [roundOff, Nat.pow_succ]
  generalize 10 ^ places = b at hrest
  have cut : 2 * (n * (b * 10) + (d * b + rest)) + b * 10 =
      2 * (b * 10) * n + (2 * (d * b + rest) + b * 10) := by
    rw [Nat.mul_add, Nat.mul_comm n, ← Nat.mul_assoc, Nat.add_assoc]
  rw [cut, Nat.mul_add_div (by omega)]
  split
  next hlow =>
    have small := Nat.mul_le_mul_right b (Nat.le_of_lt_succ hlow : d ≤ 4)
    rw [Nat.div_eq_of_lt (by omega), Nat.add_zero]
  next hhigh =>
    have least := Nat.mul_le_mul_right b (Nat.le_of_not_lt hhigh)
    have greatest := Nat.mul_le_mul_right b hd
    have carried : (2 * (d * b + rest) + b * 10) / (2 * (b * 10)) = 1 :=
      Nat.div_eq_of_lt_le (by omega) (by omega)
    rw [carried]

/-! ### As many places as fit -/

/-- The number rounded to the greatest number of places, at most as many as given, at which it is
within the limit; it has `digits` digits behind the point itself. -/
def fit? (n digits : Nat) : Nat → Option (Nat × Nat)
  | 0 => if roundOff n digits < limit then some (roundOff n digits, 0) else none
  | places + 1 =>
    if roundOff n (digits - (places + 1)) < limit then
      some (roundOff n (digits - (places + 1)), places + 1)
    else fit? n digits places

variable {n digits places most coefficient : Nat}

theorem fit?_of_lt
    (h : roundOff n (digits - places) < limit) :
  fit? n digits places = some (roundOff n (digits - places), places)
  := by
  cases places <;> exact if_pos h

theorem fit?_eq_some_iff :
  fit? n digits most = some (coefficient, places) ↔
    places ≤ most ∧ coefficient = roundOff n (digits - places) ∧ coefficient < limit ∧
      ∀ more, places < more → more ≤ most → limit ≤ roundOff n (digits - more)
  := by
  induction most with
  | zero =>
    rw [fit?, Nat.le_zero]
    constructor
    · intro h
      split at h
      next hfits =>
        cases h
        exact ⟨rfl, rfl, hfits, by omega⟩
      next => cases h
    · rintro ⟨rfl, rfl, hfits, -⟩
      exact if_pos hfits
  | succ most ih =>
    rw [fit?]
    split
    next hfits =>
      constructor
      · intro h
        cases h
        exact ⟨Nat.le_refl _, rfl, hfits, by omega⟩
      · rintro ⟨hle, rfl, -, hmore⟩
        rcases Nat.lt_or_eq_of_le hle with hlt | rfl
        · exact absurd hfits (Nat.not_lt.mpr (hmore _ hlt (Nat.le_refl _)))
        · rfl
    next hfits =>
      rw [ih]
      constructor
      · rintro ⟨hle, hcoefficient, hlimit, hmore⟩
        refine ⟨by omega, hcoefficient, hlimit, ?_⟩
        intro more hlow hhigh
        rcases Nat.lt_or_eq_of_le hhigh with hlt | rfl
        · exact hmore more hlow (Nat.le_of_lt_succ hlt)
        · exact Nat.le_of_not_lt hfits
      · rintro ⟨hle, rfl, hlimit, hmore⟩
        refine ⟨?_, rfl, hlimit, fun more hlow hhigh => hmore more hlow (by omega)⟩
        rcases Nat.lt_or_eq_of_le hle with hlt | rfl
        · omega
        · contradiction

theorem fit?_eq_none_iff :
  fit? n digits most = none ↔ ∀ places ≤ most, limit ≤ roundOff n (digits - places)
  := by
  induction most with
  | zero => simp [fit?]
  | succ most ih =>
    rw [fit?]
    split
    next hfits =>
      simp only [reduceCtorEq, false_iff, not_forall]
      exact ⟨most + 1, Nat.le_refl _, Nat.not_le.mpr hfits⟩
    next hfits =>
      rw [ih]
      constructor
      · intro h places hplaces
        rcases Nat.lt_or_eq_of_le hplaces with hlt | rfl
        · exact h places (Nat.le_of_lt_succ hlt)
        · exact Nat.le_of_not_lt hfits
      · intro h places hplaces
        exact h places (by omega)

/-- Places at which the number does not fit may be left out. -/
theorem fit?_eq_of_forall_le
    {least : Nat} (hle : least ≤ most)
    (h : ∀ places, least < places → places ≤ most → limit ≤ roundOff n (digits - places)) :
  fit? n digits most = fit? n digits least
  := by
  induction most with
  | zero => rw [Nat.le_zero.mp hle]
  | succ most ih =>
    rcases Nat.lt_or_eq_of_le hle with hlt | rfl
    · rw [fit?, if_neg (Nat.not_lt.mpr (h _ hlt (Nat.le_refl _)))]
      exact ih (Nat.le_of_lt_succ hlt) fun places hlow hhigh => h places hlow (by omega)
    · rfl

/-! ### Reading digits -/

/-- A digit that does not fit is rounded into the others. -/
theorem carry_eq_fit?
    {scale rest behind : Nat} {c : Char} (hn : n < limit) (hc : Digits.isDigit c)
    (hrest : rest < 10 ^ behind) :
  carry n scale c =
    fit? (n * 10 ^ (behind + 1) + (Digits.digitValue c * 10 ^ behind + rest))
      (scale + (behind + 1)) scale
  := by
  have hd := Digits.digitValue_le hc
  have rounded := roundOff_append (n := n) hd hrest
  generalize hwhole : n * 10 ^ (behind + 1) + (Digits.digitValue c * 10 ^ behind + rest) = whole
    at rounded ⊢
  have dropped : scale + (behind + 1) - scale = behind + 1 := Nat.add_sub_cancel_left _ _
  unfold carry
  split
  next hlow =>
    rw [if_pos hlow] at rounded
    rw [fit?_of_lt (by rw [dropped, rounded]; exact hn), dropped, rounded]
  next hhigh =>
    rw [if_neg hhigh] at rounded
    split
    next hfits => rw [fit?_of_lt (by rw [dropped, rounded]; exact hfits), dropped, rounded]
    next hlimit =>
      have carried : limit ≤ n + 1 := Nat.le_of_not_lt hlimit
      cases scale with
      | zero => rw [fit?, Nat.zero_add, rounded, if_neg hlimit]
      | succ scale =>
        -- the greatest coefficient ends in five, so that its last digit is rounded up in turn
        obtain ⟨m, rfl⟩ : ∃ m, n = 10 * m + 5 :=
          ⟨7922816251426433759354395033, by rw [limit] at hn carried; omega⟩
        have behindLess : Digits.digitValue c * 10 ^ behind + rest < 10 ^ (behind + 1) := by
          have digit := Nat.mul_le_mul_right (10 ^ behind) hd
          rw [Nat.pow_succ]
          omega
        have again : roundOff whole (behind + 2) = m + 1 := by
          have split : (10 * m + 5) * 10 ^ (behind + 1) =
              m * 10 ^ (behind + 1 + 1) + 5 * 10 ^ (behind + 1) := by
            rw [Nat.add_mul, Nat.pow_succ 10 (behind + 1), Nat.mul_comm 10 m, Nat.mul_assoc,
              Nat.mul_comm 10]
          rw [← hwhole, split, Nat.add_assoc]
          exact roundOff_append (by decide) behindLess
        have droppedMore : scale + 1 + (behind + 1) - scale = behind + 2 := by omega
        have half : (10 * m + 5 + 5) / 10 = m + 1 := by omega
        rw [fit?, dropped, rounded, if_neg hlimit, fit?_of_lt, droppedMore, again, half]
        rw [droppedMore, again]
        omega

/-- Reading digit by digit keeps as many digits as fit, rounded by those behind. -/
theorem appendFraction_eq_fit?
    {scale : Nat} {ds : List Char} (hscale : scale ≤ maxScale) (hn : n < limit)
    (hds : ∀ c ∈ ds, Digits.isDigit c) :
  appendFraction n scale ds =
    fit? (n * 10 ^ ds.length + Digits.value ds) (scale + ds.length)
      (min maxScale (scale + ds.length))
  := by
  induction ds generalizing n scale with
  | nil =>
    have whole : n * 10 ^ ([] : List Char).length + Digits.value [] = n := Nat.mul_one n
    have all : min maxScale (scale + ([] : List Char).length) = scale := Nat.min_eq_right hscale
    have fits : roundOff n (scale + ([] : List Char).length - scale) = n := by
      rw [Nat.add_sub_cancel_left]
      exact roundOff_zero n
    rw [whole, all, fit?_of_lt, fits, appendFraction]
    rwa [fits]
  | cons c ds ih =>
    rw [List.forall_mem_cons] at hds
    have hvalue := Digits.value_lt hds.2
    have step : n * 10 ^ (c :: ds).length + Digits.value (c :: ds) =
        (10 * n + Digits.digitValue c) * 10 ^ ds.length + Digits.value ds := by
      rw [← Digits.foldl_value, ← Digits.foldl_value, List.foldl_cons]
    rw [appendFraction]
    split
    next hfits =>
      have more : scale + 1 ≤ maxScale := hfits.1
      rw [ih more hfits.2 hds.2, step, List.length_cons, Nat.add_assoc, Nat.add_comm 1]
    next hfull =>
      have full : ∀ places, scale < places → places ≤ min maxScale (scale + (c :: ds).length) →
          limit ≤ roundOff (n * 10 ^ (c :: ds).length + Digits.value (c :: ds))
            (scale + (c :: ds).length - places) := by
        intro places hlow hhigh
        have large : limit ≤ 10 * n + Digits.digitValue c := by omega
        have fewer : scale + (c :: ds).length - places ≤ ds.length := by
          rw [List.length_cons]
          omega
        have kept := Nat.mul_le_mul large (Nat.pow_le_pow_right (by decide : 0 < 10) fewer)
        rw [step]
        exact le_roundOff (Nat.le_trans kept (Nat.le_add_right _ _))
      rw [fit?_eq_of_forall_le (by omega) full, carry_eq_fit? hn hds.1 hvalue, Digits.value_cons,
        List.length_cons]

/-- The digits before and behind the point, of which as many are kept as fit. -/
theorem ofDigits?_eq
    (whole : List Char) {fraction : List Char} (hfraction : ∀ c ∈ fraction, Digits.isDigit c) :
  ofDigits? whole fraction =
    fit? (Digits.value (whole ++ fraction)) fraction.length (min maxScale fraction.length)
  := by
  rw [ofDigits?, Digits.below?_eq (by decide), Digits.value_append]
  split
  next hfits =>
    have kept := appendFraction_eq_fit? (Nat.zero_le maxScale) hfits hfraction
    rw [Nat.zero_add] at kept
    exact kept
  next hlarge =>
    symm
    apply fit?_eq_none_iff.mpr
    intro places hplaces
    have large := Nat.le_of_not_lt hlarge
    have kept := Nat.mul_le_mul large
      (Nat.pow_le_pow_right (by decide : 0 < 10) (Nat.sub_le fraction.length places))
    exact le_roundOff (Nat.le_trans kept (Nat.le_add_right _ _))

end Decimal

end SqlWire
