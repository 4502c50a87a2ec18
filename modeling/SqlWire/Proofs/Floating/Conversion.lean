import SqlWire.Floating.Reading
import SqlWire.Proofs.Floating.Rounding

/-!
# Conversions of floating-point numbers

What happens to the number of a pattern in another format: a wider one keeps it,
`Single.number?_toDouble`, and in a narrower one it stays finite as long as it is below the point
from which numbers are rounded to infinities, `Double.isSome_number?_toSingle`.  Decimals have
numbers that are rounded, too, and those far from the range of the format are no exception,
`Double.ofScaled_lt_iff`.
-/

namespace SqlWire

namespace Format

variable {f g : Format} {bits : ℕ}

/-- A pattern has no number and its conversion has none, or it is rounded. -/
theorem convert_cases
    (hg : 0 < g.fractionBits) (f : Format) (bits : ℕ) :
  (f.number? bits = none ∧ g.number? (f.convert g bits) = none) ∨
    ∃ negative m e, f.datum bits = .finite negative m e ∧
      f.convert g bits = g.roundScaled negative m e
  := by
  rw [← number?_datum, convert]
  cases hdatum : f.datum bits with
  | finite negative m e => exact .inr ⟨negative, m, e, rfl, rfl⟩
  | infinite negative => exact .inl ⟨rfl, g.number?_infinity negative⟩
  | nan =>
    refine .inl ⟨rfl, number?_infinity_add _ ?_⟩
    have fraction : f.fraction bits < 2 ^ f.fractionBits := Nat.mod_lt _ (by positivity)
    have payload : f.fraction bits * 2 ^ g.fractionBits / 2 ^ f.fractionBits <
        2 ^ g.fractionBits := by
      rw [Nat.div_lt_iff_lt_mul (by positivity), Nat.mul_comm]
      exact Nat.mul_lt_mul_of_pos_left fraction (by positivity)
    have double : 2 ^ g.fractionBits = 2 ^ (g.fractionBits - 1) * 2 := by
      rw [← Nat.pow_succ, Nat.succ_eq_add_one, Nat.sub_add_cancel hg]
    split
    next => exact payload
    next hquiet =>
      generalize f.fraction bits * 2 ^ g.fractionBits / 2 ^ f.fractionBits = n at payload hquiet
      have lower : n / 2 ^ (g.fractionBits - 1) < 2 := by
        rw [Nat.div_lt_iff_lt_mul (by positivity), Nat.mul_comm, ← double]
        exact payload
      have zero : n / 2 ^ (g.fractionBits - 1) = 0 := by
        generalize n / 2 ^ (g.fractionBits - 1) = leading at lower hquiet
        omega
      have small := (Nat.div_eq_zero_iff_lt (by positivity)).mp zero
      omega

/-- A format that has room for the significands and the exponents of another keeps its numbers. -/
theorem number?_convert
    (hg : 0 < g.fractionBits) (hspecial : 2 ≤ f.specialExponent)
    (hfraction : f.fractionBits ≤ g.fractionBits) (hleast : g.leastExponent ≤ f.leastExponent)
    (hgreatest : f.leastExponent + f.specialExponent ≤ g.leastExponent + g.specialExponent)
    (bits : ℕ) :
  g.number? (f.convert g bits) = f.number? bits
  := by
  rcases convert_cases hg f bits with ⟨hnone, hconvert⟩ | ⟨negative, m, e, hdatum, hround⟩
  · rw [hnone, hconvert]
  · obtain ⟨hm, hlow, hhigh⟩ := room_of_datum hspecial hdatum
    have larger : 2 ^ (f.fractionBits + 1) ≤ 2 ^ (g.fractionBits + 1) :=
      Nat.pow_le_pow_right (by norm_num) (by omega)
    rw [← number?_datum f, hdatum, hround,
      number?_roundScaled (by omega) negative (by omega) (by omega) (by omega)]

/-- A converted number is finite if it is below the point from which numbers are rounded to
infinities. -/
theorem isSome_number?_convert
    (hg : 0 < g.fractionBits) (hspecial : 2 ≤ g.specialExponent) (f : Format) (bits : ℕ) :
  (g.number? (f.convert g bits)).isSome ↔ ∃ q ∈ f.number? bits, |q| < g.overflowThreshold
  := by
  rcases convert_cases hg f bits with ⟨hnone, hconvert⟩ | ⟨negative, m, e, hdatum, hround⟩
  · rw [hnone, hconvert]
    simp
  · have positive : 0 < 2 ^ (-e).toNat := by positivity
    obtain ⟨k, q, -, hnumber⟩ := number?_round hspecial negative (m * 2 ^ e.toNat) positive
    rw [← Datum.mul_two_zpow] at hnumber
    rw [← number?_datum f, hdatum, hround, roundScaled, hnumber]
    split
    next hlarge =>
      apply iff_of_false Bool.false_ne_true
      rintro ⟨q, hq, hlt⟩
      rw [Datum.abs_eq_of_mem_number? hq] at hlt
      exact absurd hlarge (not_le.mpr hlt)
    next hsmall =>
      refine iff_of_true rfl ⟨_, rfl, ?_⟩
      rw [Datum.abs_eq_of_mem_number? rfl]
      exact not_le.mp hsmall

/-- The numbers of a format are below the point from which numbers are rounded to infinities. -/
theorem abs_lt_of_mem_number?
    {q : ℚ} (hspecial : 2 ≤ f.specialExponent) (h : q ∈ f.number? bits) :
  |q| < f.overflowThreshold
  := by
  rw [← number?_datum] at h
  cases hdatum : f.datum bits with
  | nan | infinite =>
    rw [hdatum] at h
    cases h
  | finite negative m e =>
    rw [hdatum] at h
    obtain ⟨hm, -, hhigh⟩ := room_of_datum hspecial hdatum
    rw [Datum.abs_eq_of_mem_number? h]
    exact scaled_lt_overflowThreshold hm hhigh

end Format

/-! ### The two formats -/

theorem Format.binary64_overflowThreshold :
  binary64.overflowThreshold = 2 ^ 1024 - 2 ^ 970
  := by
  have exponent : binary64.leastExponent + binary64.specialExponent - 2 = (970 + 1 : ℕ) := by decide
  have significand : binary64.fractionBits + 1 = 53 := rfl
  rw [overflowThreshold, exponent, significand, zpow_natCast, sub_mul, ← pow_add, one_div,
    inv_mul_eq_div, pow_succ 2 970, mul_div_cancel_right₀ _ two_ne_zero]

theorem Format.binary32_overflowThreshold :
  binary32.overflowThreshold = 2 ^ 128 - 2 ^ 103
  := by
  have exponent : binary32.leastExponent + binary32.specialExponent - 2 = 104 := by decide
  have significand : binary32.fractionBits + 1 = 24 := rfl
  rw [overflowThreshold, exponent, significand]
  norm_num

/-- A number of four bytes is kept in eight. -/
theorem Single.number?_toDouble
    (x : Single) :
  x.toDouble.number? = x.number?
  := by
  rw [toDouble, Double.number?_ofBits]
  exact Format.number?_convert (by decide) (by decide) (by decide) (by decide) (by decide) _

/-- A number of eight bytes is finite in four if it is below the point half a unit above the
greatest number of four bytes. -/
theorem Double.isSome_number?_toSingle
    (x : Double) :
  x.toSingle.number?.isSome ↔ ∃ q ∈ x.number?, |q| < Format.binary32.overflowThreshold
  := by
  rw [toSingle, ← Single.ofBits, Single.number?_ofBits]
  exact Format.isSome_number?_convert (by decide) (by decide) _ _

/-! ### Decimals -/

namespace Double

variable {negative : Bool} {n width K Q : ℕ} {e : ℤ}

theorem mul_ten_zpow_lt_one
    (hn : n < 10 ^ width) (he : e + width ≤ 0) :
  (n * 10 ^ e : ℚ) < 1
  := by
  have digits : (n : ℚ) < 10 ^ width := by exact_mod_cast hn
  calc (n * 10 ^ e : ℚ)
      < 10 ^ width * 10 ^ e := mul_lt_mul_of_pos_right digits (by positivity)
    _ = 10 ^ (e + width) := by rw [zpow_add₀ (by norm_num), zpow_natCast, mul_comm]
    _ ≤ 1 := zpow_le_one_of_nonpos₀ (by norm_num) he

theorem ten_pow_le_mul_ten_zpow
    {k : ℕ} (hn : 1 ≤ n) (he : k ≤ e) :
  (10 : ℚ) ^ k ≤ n * 10 ^ e
  := by
  have some : (1 : ℚ) ≤ n := by exact_mod_cast hn
  calc (10 : ℚ) ^ k
      = 10 ^ (k : ℤ) := (zpow_natCast _ _).symm
    _ ≤ 10 ^ e := zpow_le_zpow_right₀ (by norm_num) he
    _ ≤ n * 10 ^ e := le_mul_of_one_le_left (by positivity) some

theorem binary64_overflowThreshold_le :
  Format.binary64.overflowThreshold ≤ 10 ^ reach
  := by
  rw [Format.binary64_overflowThreshold]
  calc (2 : ℚ) ^ 1024 - 2 ^ 970
      ≤ 2 ^ 1024 := sub_le_self _ (by positivity)
    _ ≤ 2 ^ (3 * reach) := pow_le_pow_right₀ (by norm_num) (by decide)
    _ = (2 ^ 3) ^ reach := pow_mul 2 3 reach
    _ ≤ 10 ^ reach := pow_le_pow_left₀ (by norm_num) (by norm_num) reach

/-- The number nearest to a decimal is below one with an even significand exactly if the decimal is
below the point half a unit under that.  Decimals that are taken for zero, or for an infinity, by
their exponents alone are on the right side of it. -/
theorem ofScaled_lt_iff
    (hlow : 2 ^ 52 < Q) (hhigh : Q ≤ 2 ^ 53) (hQ : Even Q) (hone : 1074 ≤ K) (hK : K ≤ 2045)
    (hn : n < 10 ^ width) :
  (∃ q ∈ (ofScaled negative n width e).number?,
      |q| < Q * 2 ^ (Format.binary64.leastExponent + K)) ↔
    (n * 10 ^ e : ℚ) < (Q - 1 / 2) * 2 ^ (Format.binary64.leastExponent + K)
  := by
  have above : (2 : ℚ) ^ 52 + 1 ≤ Q := by exact_mod_cast hlow
  have unit : (1 : ℚ) ≤ 2 ^ (Format.binary64.leastExponent + K) := by
    apply one_le_zpow₀ (by norm_num)
    change 0 ≤ (-1074 : ℤ) + K
    omega
  have atLeast : (1 : ℚ) ≤ (Q - 1 / 2) * 2 ^ (Format.binary64.leastExponent + K) :=
    one_le_mul_of_one_le_of_one_le (by linarith) unit
  have room : K + 2 ≤ Format.binary64.specialExponent := Nat.add_le_add_right hK 2
  rw [ofScaled]
  split
  next hzero =>
    rw [number?_ofBits, Format.number?_signBit (by decide)]
    apply iff_of_true
    · refine ⟨_, rfl, ?_⟩
      rw [Datum.abs_eq_of_mem_number? rfl, Nat.cast_zero, zero_mul]
      exact mul_pos (by linarith) (by positivity)
    · refine lt_of_lt_of_le ?_ atLeast
      rcases hzero with rfl | hvanishes
      · rw [Nat.cast_zero, zero_mul]
        exact one_pos
      · exact mul_ten_zpow_lt_one hn (by omega)
  next hvalue =>
    split
    next hlarge =>
      rw [number?_ofBits, Format.number?_infinity]
      apply iff_of_false
      · rintro ⟨q, ⟨⟩, -⟩
      · have some : 1 ≤ n := by omega
        have atMost := Format.half_below_le_overflowThreshold (by omega) hhigh room
        refine not_lt.mpr (atMost.trans (binary64_overflowThreshold_le.trans ?_))
        exact ten_pow_le_mul_ten_zpow some (Int.le_of_lt hlarge)
    next hnear =>
      rw [number?_ofBits, Number.mul_ten_zpow]
      exact Format.number?_round_lt_iff hlow hhigh hQ room negative _ (by positivity)

end Double

end SqlWire
