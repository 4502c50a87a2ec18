import SqlWire.Floating.Shortest
import SqlWire.Proofs.Floating.Rounding

/-!
# Shortest decimals are rounded back

The numbers that are rounded to a finite number are those that it covers, `Format.Covers`: they
reach half a unit to both sides, or a quarter below the least number of a binade, and with their
ends if the significand is even; `Format.round_eq`.  The interval of `Shortest.interval` is
that of the covered numbers, and the search for a decimal in it ends with one, since twenty digits
are enough, `Shortest.covers_decimal`.
-/

namespace SqlWire

namespace Format

variable {f : Format} {bits m e n d k q K : ℕ} {r : ℚ} {negative : Bool}

/-! ### Covered numbers -/

/-- How far the numbers that are rounded to a number reach below it, in units of its significand. -/
def reachBelow (f : Format) (k m : ℕ) : ℚ :=
  if m = 2 ^ f.fractionBits ∧ 0 < k then 1 / 4 else 1 / 2

/-- A number is rounded to the one with the significand `m` and the exponent `k`, counted from the
least one. -/
structure Covers (f : Format) (k m : ℕ) (r : ℚ) : Prop where
  low : (m - f.reachBelow k m) * 2 ^ (f.leastExponent + k) ≤ r
  high : r ≤ (m + 1 / 2) * 2 ^ (f.leastExponent + k)
  even : (m - f.reachBelow k m) * 2 ^ (f.leastExponent + k) = r ∨
    r = (m + 1 / 2) * 2 ^ (f.leastExponent + k) → Even m

theorem reachBelow_le
    (f : Format) (k m : ℕ) :
  f.reachBelow k m ≤ 1 / 2
  := by
  rw [reachBelow]
  split <;> norm_num

theorem le_reachBelow
    (f : Format) (k m : ℕ) :
  1 / 4 ≤ f.reachBelow k m
  := by
  rw [reachBelow]
  split <;> norm_num

/-- At the exponent of a covering number, the covered ones are rounded to its significand. -/
theorem Covers.nearestEven
    (h : f.Covers k m r) :
  NearestEven (r / 2 ^ (f.leastExponent + k)) m
  := by
  have unit : (0 : ℚ) < 2 ^ (f.leastExponent + k) := by positivity
  have low := (le_div_iff₀ unit).mpr h.low
  have high := (div_le_iff₀ unit).mpr h.high
  have reach := f.reachBelow_le k m
  have even (hends : m - f.reachBelow k m = r / 2 ^ (f.leastExponent + k) ∨
      r / 2 ^ (f.leastExponent + k) = m + 1 / 2) : Even m := by
    rw [eq_div_iff unit.ne', div_eq_iff unit.ne'] at hends
    exact h.even hends
  constructor
  · rw [abs_le]
    constructor <;> linarith
  · intro tie
    rcases abs_choice ((m : ℚ) - r / 2 ^ (f.leastExponent + k)) with hsign | hsign <;>
      rw [hsign] at tie
    · exact even (.inl (by linarith))
    · exact even (.inr (by linarith))

theorem two_zpow_succ
    (f : Format) (k : ℕ) :
  (2 : ℚ) ^ (f.leastExponent + (k + 1 : ℕ)) = 2 * 2 ^ (f.leastExponent + k)
  := by
  rw [Nat.cast_succ, ← add_assoc, zpow_add_one₀ (by norm_num), mul_comm]

section

variable (h : f.Rounds r k q) (hcovers : f.Covers K m r)
include h hcovers

/-- Only below the least number of a binade there are numbers that are rounded up to it from the
binade under it. -/
theorem Covers.pattern_eq_of_lt
    (hnormal : 2 ^ f.fractionBits ≤ m) (hless : k < K) :
  k * 2 ^ f.fractionBits + q = K * 2 ^ f.fractionBits + m
  := by
  have unit : (0 : ℚ) < 2 ^ (f.leastExponent + K) := by positivity
  have one : (1 : ℚ) ≤ 2 ^ f.fractionBits := one_le_pow₀ (by norm_num)
  have low := hcovers.low
  have reach := f.reachBelow_le K m
  have upper := h.upper
  rw [div_lt_iff₀ (by positivity)] at upper
  obtain rfl : m = 2 ^ f.fractionBits := by
    by_contra hne
    have next : (2 : ℚ) ^ f.fractionBits + 1 ≤ m := by
      exact_mod_cast Nat.lt_of_le_of_ne hnormal (Ne.symm hne)
    have above : (2 : ℚ) ^ f.fractionBits * 2 ^ (f.leastExponent + K) ≤ r :=
      le_trans (mul_le_mul_of_nonneg_right (by linarith) unit.le) low
    exact absurd (upper.trans_le (binade_le hless)) (not_lt.mpr above)
  rw [Nat.cast_pow, Nat.cast_ofNat] at low
  obtain rfl : K = k + 1 := by
    by_contra hne
    have farther := binade_le (f := f) (i := k + 1) (j := K) (by omega)
    have half : (2 ^ f.fractionBits - 1 / 2) * 2 ^ (f.leastExponent + K) ≤ r :=
      le_trans (mul_le_mul_of_nonneg_right (by linarith) unit.le) low
    have positive : 0 ≤ (2 ^ f.fractionBits - 1) * (2 : ℚ) ^ (f.leastExponent + K) :=
      mul_nonneg (by linarith) unit.le
    rw [two_zpow_succ] at farther
    linarith
  have nearest : NearestEven (r / 2 ^ (f.leastExponent + k)) (2 ^ (f.fractionBits + 1)) := by
    rw [reachBelow, if_pos ⟨rfl, Nat.succ_pos k⟩, two_zpow_succ, mul_left_comm, ← mul_assoc,
      ← le_div_iff₀ (by positivity)] at low
    have high := (div_lt_iff₀ (by positivity)).mpr upper
    refine ⟨?_, fun _ => even_two.pow_of_ne_zero (Nat.succ_ne_zero _)⟩
    rw [Nat.cast_pow, Nat.cast_ofNat, abs_le]
    constructor <;> rw [pow_succ] at * <;> linarith
  rw [h.nearest.unique nearest]
  ring

/-- A covered number is rounded to the one that covers it. -/
theorem Covers.pattern_eq
    (hfits : f.Fits K m) :
  k * 2 ^ f.fractionBits + q = K * 2 ^ f.fractionBits + m
  := by
  rcases Nat.lt_trichotomy k K with hless | rfl | hgreater
  · exact hcovers.pattern_eq_of_lt h (hfits.normal (Nat.zero_lt_of_lt hless)) hless
  · rw [h.nearest.unique hcovers.nearestEven]
  · have unit : (0 : ℚ) < 2 ^ (f.leastExponent + K) := by positivity
    have lower := h.lower (Nat.zero_lt_of_lt hgreater)
    rw [le_div_iff₀ (by positivity)] at lower
    have room : (m : ℚ) + 1 ≤ 2 ^ (f.fractionBits + 1) := by exact_mod_cast hfits.room
    have beyond : (m + 1) * 2 ^ (f.leastExponent + K) ≤ r :=
      (mul_le_mul_of_nonneg_right room unit.le).trans ((binade_le hgreater).trans lower)
    have high := hcovers.high
    linarith

end

/-- The pattern of a ratio is that of the finite number that covers it. -/
theorem round_eq
    (negative : Bool) (hn : 0 < n) (hd : 0 < d) (hcovers : f.Covers k m (n / d))
    (hfits : f.Fits k m) :
  f.round negative n d = f.signBit negative + (k * 2 ^ f.fractionBits + m)
  := by
  obtain ⟨k', q, hrounds, hround⟩ := f.exists_rounds negative hn hd
  rw [hround, hcovers.pattern_eq hrounds hfits, if_neg (Nat.not_le.mpr hfits.finite)]

end Format

namespace Shortest

/-! ### Decimals in an interval -/

namespace Interval

variable {i : Interval} {n fuel p x scale : ℕ} {k point : ℤ}

/-- The number belongs to the interval. -/
def Holds (i : Interval) (x : ℚ) : Prop :=
  if i.closed then (i.low / i.scale : ℚ) ≤ x ∧ x ≤ i.high / i.scale
  else (i.low / i.scale : ℚ) < x ∧ x < i.high / i.scale

theorem Holds.of_lt
    {x : ℚ} (hlow : (i.low / i.scale : ℚ) < x) (hhigh : x < i.high / i.scale) :
  i.Holds x
  := by
  rw [Holds]
  split
  · exact ⟨hlow.le, hhigh.le⟩
  · exact ⟨hlow, hhigh⟩

theorem contains_eq_true_iff
    (hscale : 0 < i.scale) :
  i.contains n k = true ↔ i.Holds (n * 10 ^ (-k))
  := by
  have decimal := Number.mul_ten_zpow n (-k)
  rw [neg_neg] at decimal
  have le_iff (b : ℕ) : (b / i.scale : ℚ) ≤ n * 10 ^ (-k) ↔
      b * 10 ^ k.toNat ≤ n * 10 ^ (-k).toNat * i.scale := by
    rw [decimal, div_le_div_iff₀ (by positivity) (by positivity)]
    exact_mod_cast Iff.rfl
  have ge_iff (b : ℕ) : (n * 10 ^ (-k) : ℚ) ≤ b / i.scale ↔
      n * 10 ^ (-k).toNat * i.scale ≤ b * 10 ^ k.toNat := by
    rw [decimal, div_le_div_iff₀ (by positivity) (by positivity)]
    exact_mod_cast Iff.rfl
  simp only [contains, Holds]
  split
  · rw [Bool.and_eq_true, decide_eq_true_iff, decide_eq_true_iff, le_iff, ge_iff]
  · rw [Bool.and_eq_true, decide_eq_true_iff, decide_eq_true_iff, ← not_le, ← not_le, ← not_le,
      ← not_le, le_iff, ge_iff]

theorem contains_of_candidate?
    (h : i.candidate? k = some n) :
  i.contains n k = true
  := by
  simp only [candidate?] at h
  split at h
  next hlower hupper =>
    cases h
    split
    · exact hupper
    · exact hlower
  next hlower hupper => cases h; exact hlower
  next hlower hupper => cases h; exact hupper
  next => cases h

/-- A step that is not longer than the way from the bottom to the number does not pass over the
interval. -/
theorem isSome_candidate?
    (hscale : 0 < i.scale) (hhigh : i.value < i.high)
    (hstep : (10 : ℚ) ^ (-k) ≤ i.value / i.scale - i.low / i.scale) :
  (i.candidate? k).isSome
  := by
  have unit : (0 : ℚ) < 10 ^ (-k) := by positivity
  have positive : (0 : ℚ) < i.scale := by exact_mod_cast hscale
  have lower : i.contains (i.value * 10 ^ k.toNat / (i.scale * 10 ^ (-k).toNat)) k = true := by
    have quotient : (i.value * 10 ^ k.toNat / (i.scale * 10 ^ (-k).toNat) : ℕ) =
        ⌊(i.value / i.scale * 10 ^ k : ℚ)⌋₊ := by
      rw [div_mul_eq_mul_div, Number.mul_ten_zpow, div_div, ← Nat.cast_mul, Nat.floor_div_eq_div,
        Nat.mul_comm i.scale]
    rw [contains_eq_true_iff hscale, quotient]
    have below := Nat.floor_le (a := (i.value / i.scale * 10 ^ k : ℚ)) (by positivity)
    have above := Nat.lt_floor_add_one (i.value / i.scale * 10 ^ k : ℚ)
    generalize (⌊(i.value / i.scale * 10 ^ k : ℚ)⌋₊ : ℚ) = q at below above ⊢
    have inverse : (10 : ℚ) ^ k * 10 ^ (-k) = 1 := by
      rw [← zpow_add₀ (by norm_num), add_neg_cancel, zpow_zero]
    apply Holds.of_lt
    · have step := mul_lt_mul_of_pos_right above unit
      rw [mul_assoc, inverse, mul_one, add_mul, one_mul] at step
      linarith
    · have down := mul_le_mul_of_nonneg_right below unit.le
      rw [mul_assoc, inverse, mul_one] at down
      refine down.trans_lt ?_
      gcongr
  simp only [candidate?, lower]
  cases i.contains (i.value * 10 ^ k.toNat / (i.scale * 10 ^ (-k).toNat) + 1) k <;> rfl

theorem contains_search
    (h : ∃ j < fuel, (i.candidate? (n + j - point)).isSome) :
  i.contains (i.search point fuel n).1 (i.search point fuel n).2 = true
  := by
  induction fuel generalizing n with
  | zero =>
    obtain ⟨j, hj, -⟩ := h
    exact absurd hj (Nat.not_lt_zero j)
  | succ fuel ih =>
    rw [search]
    cases hcandidate : i.candidate? (n - point) with
    | some digits => exact contains_of_candidate? hcandidate
    | none =>
      obtain ⟨j, hj, hsome⟩ := h
      cases j with
      | zero =>
        rw [Nat.cast_zero, add_zero, hcandidate] at hsome
        cases hsome
      | succ j =>
        apply ih
        refine ⟨j, Nat.lt_of_succ_lt_succ hj, ?_⟩
        rwa [Nat.cast_succ, add_assoc, add_comm 1]

/-! ### The position of the point -/

theorem magnitudeFrom_le
    (h : scale * 10 ^ p ≤ x * 10) :
  scale * 10 ^ magnitudeFrom x scale fuel p ≤ x * 10
  := by
  induction fuel generalizing p with
  | zero => exact h
  | succ fuel ih =>
    rw [magnitudeFrom]
    split
    next => exact h
    next hlarge =>
      apply ih
      rw [Nat.pow_succ, ← Nat.mul_assoc]
      exact Nat.mul_le_mul_right 10 (Nat.not_lt.mp hlarge)

theorem le_smallnessFrom
    (h : scale ≤ x * 10 ^ (p + fuel + 1)) :
  scale ≤ x * 10 ^ (smallnessFrom x scale fuel p + 1)
  := by
  induction fuel generalizing p with
  | zero => exact h
  | succ fuel ih =>
    rw [smallnessFrom]
    split
    next =>
      apply ih
      rwa [Nat.add_right_comm p 1 fuel]
    next hlarge => exact Nat.not_lt.mp hlarge

/-- The number is not below its first place. -/
theorem ten_zpow_point_le
    (hscale : 0 < i.scale) (hvalue : 0 < i.value) :
  (10 : ℚ) ^ (i.point - 1) ≤ i.value / i.scale
  := by
  have positive : (0 : ℚ) < i.scale := by exact_mod_cast hscale
  rw [le_div_iff₀ positive, point]
  split
  next hle =>
    have place : i.scale * 10 ^ magnitudeFrom i.value i.scale (i.value.log2 + 1) 0 ≤
        i.value * 10 := magnitudeFrom_le (by omega)
    rw [zpow_sub_one₀ (by norm_num), zpow_natCast, ← div_eq_mul_inv, div_mul_eq_mul_div,
      div_le_iff₀ (by norm_num), mul_comm]
    exact_mod_cast place
  next hgt =>
    have room : i.scale ≤ i.value * 10 ^ (0 + (i.scale.log2 + 1) + 1) := by
      have power : i.scale < 2 ^ (i.scale.log2 + 1) := Nat.lt_log2_self
      have larger : 2 ^ (i.scale.log2 + 1) ≤ 10 ^ (i.scale.log2 + 1) :=
        Nat.pow_le_pow_left (by norm_num) _
      calc i.scale
          ≤ 1 * 10 ^ (i.scale.log2 + 1) := by omega
        _ ≤ i.value * 10 ^ (0 + (i.scale.log2 + 1) + 1) :=
          Nat.mul_le_mul hvalue (Nat.pow_le_pow_right (by norm_num) (by omega))
    have place := le_smallnessFrom room
    rw [← neg_add', ← Nat.cast_succ, zpow_neg, zpow_natCast, inv_mul_le_iff₀ (by positivity),
      mul_comm]
    exact_mod_cast place

end Interval

variable {f : Format} {m k : ℕ} {r : ℚ}

theorem scale_interval_pos
    (f : Format) (m : ℕ) (e : ℤ) :
  0 < (interval f m e).scale
  := by
  rw [interval]
  positivity

/-- The ends of the interval are those of the covered numbers. -/
theorem interval_eq
    (f : Format) (hm : 0 < m) (k : ℕ) :
  let i := interval f m (f.leastExponent + k)
  (i.low / i.scale : ℚ) = (m - f.reachBelow k m) * 2 ^ (f.leastExponent + k) ∧
    (i.value / i.scale : ℚ) = m * 2 ^ (f.leastExponent + k) ∧
    (i.high / i.scale : ℚ) = (m + 1 / 2) * 2 ^ (f.leastExponent + k)
  := by
  have quarter (n : ℕ) : ((n * 2 ^ (f.leastExponent + k - 2).toNat : ℕ) : ℚ) /
      (2 ^ (2 - (f.leastExponent + k)).toNat : ℕ) = n / 4 * 2 ^ (f.leastExponent + k) := by
    rw [← neg_sub (f.leastExponent + k : ℤ), ← Datum.mul_two_zpow, zpow_sub₀ (by norm_num)]
    norm_num
    ring
  intro i
  refine ⟨?_, ?_, ?_⟩
  · have narrow : f.leastExponent < f.leastExponent + k ↔ 0 < k := by omega
    simp only [i, interval, quarter, narrow, Format.reachBelow]
    split
    · rw [Nat.cast_sub (by omega)]
      push_cast
      ring
    · rw [Nat.cast_sub (by omega)]
      push_cast
      ring
  · simp only [i, interval, quarter]
    push_cast
    ring
  · simp only [i, interval, quarter]
    push_cast
    ring

/-- Numbers of the interval are covered. -/
theorem covers_of_holds
    (hm : 0 < m) (h : (interval f m (f.leastExponent + k)).Holds r) :
  f.Covers k m r
  := by
  obtain ⟨hlow, -, hhigh⟩ := interval_eq f hm k
  rw [Interval.Holds, hlow, hhigh] at h
  split at h
  next hclosed => exact ⟨h.1, h.2, fun _ => Nat.even_iff.mpr (beq_iff_eq.mp hclosed)⟩
  next =>
    refine ⟨h.1.le, h.2.le, ?_⟩
    rintro (hend | hend)
    · exact absurd hend h.1.ne
    · exact absurd hend h.2.ne

/-- The number that the shortest decimal denotes; that of zero is zero. -/
def decimal (f : Format) (m : ℕ) (e : ℤ) : ℚ :=
  if m = 0 then 0 else (digits f m e).1 * 10 ^ (-(digits f m e).2)

section

variable (hf : f.fractionBits ≤ 60) (hm : 0 < m) (hfits : f.Fits k m)
include hf hm hfits

/-- Behind twenty digits the places of a number are finer than the reach of the significand. -/
theorem ten_zpow_twentieth_le :
  (10 : ℚ) ^ ((interval f m (f.leastExponent + k)).point - 20) ≤
    f.reachBelow k m * 2 ^ (f.leastExponent + k)
  := by
  have unit : (0 : ℚ) < 2 ^ (f.leastExponent + k) := by positivity
  have place : (10 : ℚ) ^ ((interval f m (f.leastExponent + k)).point - 1) ≤
      m * 2 ^ (f.leastExponent + k) := by
    rw [← (interval_eq f hm k).2.1]
    apply Interval.ten_zpow_point_le (scale_interval_pos f m _)
    simp only [interval]
    positivity
  have few : (m : ℚ) ≤ 10 ^ 19 / 4 := by
    have power : 2 ^ (f.fractionBits + 1) ≤ 2 ^ 61 := Nat.pow_le_pow_right (by norm_num) (by omega)
    have small : (m : ℚ) ≤ 2 ^ 61 := by exact_mod_cast (hfits.room.trans_le power).le
    exact small.trans (by norm_num)
  calc (10 : ℚ) ^ ((interval f m (f.leastExponent + k)).point - 20)
      = 10 ^ ((interval f m (f.leastExponent + k)).point - 1) / 10 ^ (19 : ℤ) := by
        rw [← zpow_sub₀ (by norm_num), sub_sub]
        norm_num
    _ ≤ m * 2 ^ (f.leastExponent + k) / 10 ^ (19 : ℤ) :=
        div_le_div_of_nonneg_right place (by positivity)
    _ ≤ 10 ^ 19 / 4 * 2 ^ (f.leastExponent + k) / 10 ^ (19 : ℤ) :=
        div_le_div_of_nonneg_right (mul_le_mul_of_nonneg_right few unit.le) (by positivity)
    _ = 1 / 4 * 2 ^ (f.leastExponent + k) := by ring
    _ ≤ f.reachBelow k m * 2 ^ (f.leastExponent + k) :=
        mul_le_mul_of_nonneg_right (f.le_reachBelow k m) unit.le

/-- The shortest decimal of a number is one that the number covers. -/
theorem covers_decimal :
  f.Covers k m (decimal f m (f.leastExponent + k))
  := by
  have hscale := scale_interval_pos f m (f.leastExponent + k)
  obtain ⟨hlow, hvalue, hhigh⟩ := interval_eq f hm k
  rw [decimal, if_neg hm.ne']
  apply covers_of_holds hm
  apply (Interval.contains_eq_true_iff hscale).mp
  apply Interval.contains_search
  refine ⟨19, by norm_num, Interval.isSome_candidate? hscale ?_ ?_⟩
  · have positive : (0 : ℚ) < (interval f m (f.leastExponent + k)).scale := by
      exact_mod_cast hscale
    have above : (m : ℚ) * 2 ^ (f.leastExponent + k) < (m + 1 / 2) * 2 ^ (f.leastExponent + k) :=
      mul_lt_mul_of_pos_right (by linarith) (by positivity)
    rw [← hvalue, ← hhigh, div_lt_div_iff_of_pos_right positive] at above
    exact_mod_cast above
  · have last : -(((1 : ℕ) : ℤ) + (19 : ℕ) - (interval f m (f.leastExponent + k)).point) =
        (interval f m (f.leastExponent + k)).point - 20 := by
      push_cast
      ring
    rw [last, hvalue, hlow, ← sub_mul, sub_sub_cancel]
    exact ten_zpow_twentieth_le hf hm hfits

end

end Shortest

/-- The shortest decimal of a number is rounded to its pattern. -/
theorem Format.round_decimal
    {f : Format} {bits m n d : ℕ} {e : ℤ} {negative : Bool} (hf : f.fractionBits ≤ 60)
    (hbits : bits < 2 ^ (f.fractionBits + f.exponentBits + 1))
    (hdatum : f.datum bits = .finite negative m e) (hd : 0 < d)
    (hratio : (n / d : ℚ) = Shortest.decimal f m e) :
  f.round negative n d = bits
  := by
  obtain ⟨k, rfl, hfits, hsign, hfields⟩ := exists_fits hdatum
  have hpattern := eq_fields hbits
  rw [hsign, hfields] at hpattern
  have divisor : (d : ℚ) ≠ 0 := by exact_mod_cast hd.ne'
  rcases Nat.eq_zero_or_pos m with rfl | hm
  · rw [Shortest.decimal, if_pos rfl, div_eq_zero_iff, or_iff_left divisor, Nat.cast_eq_zero]
      at hratio
    have least : k = 0 := by
      by_contra hk
      exact absurd (hfits.normal (Nat.pos_of_ne_zero hk)) (Nat.not_le.mpr (by positivity))
    rw [hpattern, hratio, round, if_pos rfl, least, Nat.zero_mul, Nat.add_zero]
  · have covers := Shortest.covers_decimal hf hm hfits
    rw [← hratio] at covers
    have hn : n ≠ 0 := by
      rintro rfl
      have one : (1 : ℚ) ≤ m := by exact_mod_cast hm
      have reach := f.reachBelow_le k m
      have low : 0 < (m - f.reachBelow k m) * (2 : ℚ) ^ (f.leastExponent + k) :=
        mul_pos (by linarith) (by positivity)
      have zero := covers.low
      rw [Nat.cast_zero, zero_div] at zero
      exact absurd low (not_lt.mpr zero)
    rw [hpattern]
    exact round_eq negative (Nat.pos_of_ne_zero hn) hd covers hfits

end SqlWire
