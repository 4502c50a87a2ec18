import SqlWire.Proofs.Floating.Number

/-!
# Rounding

The pattern `Format.round` of a ratio is put together from the significand `q` and the exponent `k`
of the number nearest to it, `Format.Rounds`.  Patterns are ordered as their numbers are, and a
ratio is rounded to at least a number with an even significand exactly if it reaches the point half
a unit below, `Format.number?_round_lt_iff`.  With the number after the greatest finite one this
says which ratios overflow, `Format.number?_round`; and a number that has a pattern is rounded to
itself, `Format.number?_roundScaled`.
-/

namespace SqlWire

/-- The integer nearest to a number, of two such the even one. -/
structure NearestEven (x : ℚ) (q : ℕ) : Prop where
  near : |(q : ℚ) - x| ≤ 1 / 2
  even : |(q : ℚ) - x| = 1 / 2 → Even q

namespace NearestEven

variable {x : ℚ} {q Q : ℕ}

theorem of_abs_lt
    (h : |(q : ℚ) - x| < 1 / 2) :
  NearestEven x q
  :=
  ⟨h.le, fun tie => absurd tie h.ne⟩

/-- Half a unit above an integer, that is the nearest if it is even, and else the next one. -/
theorem of_half
    (a : ℕ) :
  NearestEven (a + 1 / 2) (a + a % 2)
  := by
  have parity : a % 2 ≤ 1 := by omega
  have below : ((a % 2 : ℕ) : ℚ) ≤ 1 := by exact_mod_cast parity
  have above : (0 : ℚ) ≤ (a % 2 : ℕ) := Nat.cast_nonneg _
  constructor
  · rw [abs_le, Nat.cast_add]
    constructor <;> linarith
  · intro
    rw [Nat.even_iff]
    omega

/-- A number is rounded to at least an even one exactly if it is half a unit below it. -/
theorem le_iff
    (h : NearestEven x q) (hQ : Even Q) :
  Q ≤ q ↔ (Q : ℚ) - 1 / 2 ≤ x
  := by
  obtain ⟨hlow, hhigh⟩ := abs_le.mp h.near
  constructor
  · intro hle
    have larger : (Q : ℚ) ≤ q := by exact_mod_cast hle
    linarith
  · intro hx
    by_contra hlt
    have next : q + 1 ≤ Q := Nat.lt_of_not_le hlt
    have below : (q : ℚ) + 1 ≤ Q := by exact_mod_cast next
    have half : (q : ℚ) - x = -(1 / 2) := by linarith
    have tie : Even q := h.even (by rw [half, abs_neg]; norm_num)
    have adjacent : (Q : ℚ) = q + 1 := by linarith
    obtain rfl : Q = q + 1 := by exact_mod_cast adjacent
    exact absurd hQ (Nat.not_even_iff_odd.mpr tie.add_one)

theorem natCast_le
    {m : ℕ} (h : NearestEven x q) (hm : (m : ℚ) ≤ x) :
  m ≤ q
  := by
  obtain ⟨hlow, -⟩ := abs_le.mp h.near
  have below : (m : ℚ) < q + 1 := by linarith
  exact Nat.lt_succ_iff.mp (by exact_mod_cast below)

theorem le_natCast
    {m : ℕ} (h : NearestEven x q) (hm : x ≤ m) :
  q ≤ m
  := by
  obtain ⟨-, hhigh⟩ := abs_le.mp h.near
  have below : (q : ℚ) < m + 1 := by linarith
  exact Nat.lt_succ_iff.mp (by exact_mod_cast below)

/-- An integer is rounded to itself. -/
theorem eq_of_natCast
    {m : ℕ} (h : NearestEven m q) :
  q = m
  :=
  Nat.le_antisymm (h.le_natCast le_rfl) (h.natCast_le le_rfl)

theorem unique
    {q' : ℕ} (h : NearestEven x q) (h' : NearestEven x q') :
  q = q'
  := by
  wlog hle : q ≤ q' generalizing q q'
  · exact (this h' h (Nat.le_of_not_le hle)).symm
  obtain ⟨hlow, -⟩ := abs_le.mp h.near
  obtain ⟨-, hhigh⟩ := abs_le.mp h'.near
  by_contra hne
  have next : (q : ℚ) + 1 ≤ q' := by exact_mod_cast Nat.lt_of_le_of_ne hle hne
  have half : (q : ℚ) - x = -(1 / 2) := by linarith
  have half' : (q' : ℚ) - x = 1 / 2 := by linarith
  have tie : Even q := h.even (by rw [half, abs_neg]; norm_num)
  have tie' : Even q' := h'.even (by rw [half']; norm_num)
  obtain rfl : q' = q + 1 := by
    have adjacent : (q' : ℚ) = q + 1 := by linarith
    exact_mod_cast adjacent
  exact absurd tie' (Nat.not_even_iff_odd.mpr tie.add_one)

end NearestEven

namespace Format

variable {f : Format} {n d k q K Q : ℕ} {r : ℚ} {negative : Bool}

/-! ### The significand and the exponent of a ratio -/

theorem nearestEven_divEven
    (n : ℕ) (hd : 0 < d) :
  NearestEven (n / d) (divEven n d)
  := by
  have positive : (0 : ℚ) < d := by exact_mod_cast hd
  have quotient : (n / d : ℚ) = (n / d : ℕ) + (n % d : ℕ) / d := by
    rw [eq_comm, eq_div_iff positive.ne', add_mul, div_mul_cancel₀ _ positive.ne']
    exact_mod_cast Nat.div_add_mod' n d
  have rest : (0 : ℚ) ≤ (n % d : ℕ) / d := by positivity
  have below : ((n % d : ℕ) / d : ℚ) < 1 := by
    rw [div_lt_one positive]
    exact_mod_cast Nat.mod_lt n hd
  rw [quotient, divEven]
  split
  next hdown =>
    have down : ((n % d : ℕ) / d : ℚ) < 1 / 2 := by
      rw [div_lt_div_iff₀ positive (by norm_num)]
      exact_mod_cast (by omega : n % d * 2 < 1 * d)
    apply NearestEven.of_abs_lt
    rw [abs_lt]
    constructor <;> linarith
  next hdown =>
    split
    next hup =>
      have up : (1 / 2 : ℚ) < (n % d : ℕ) / d := by
        rw [div_lt_div_iff₀ (by norm_num) positive]
        exact_mod_cast (by omega : 1 * d < n % d * 2)
      apply NearestEven.of_abs_lt
      rw [abs_lt, Nat.cast_succ]
      constructor <;> linarith
    next hup =>
      have half : ((n % d : ℕ) / d : ℚ) = 1 / 2 := by
        rw [div_eq_div_iff positive.ne' (by norm_num)]
        exact_mod_cast (by omega : n % d * 2 = 1 * d)
      rw [half]
      exact NearestEven.of_half (n / d)

/-- The binary logarithm of a ratio lies between the powers of two around it. -/
theorem logRatio_bounds
    (hn : 0 < n) (hd : 0 < d) :
  (2 : ℚ) ^ logRatio n d ≤ n / d ∧ (n / d : ℚ) < 2 ^ (logRatio n d + 1)
  := by
  have positive : (0 : ℚ) < d := by exact_mod_cast hd
  have below {m : ℕ} (hm : 0 < m) : (2 : ℚ) ^ (m.log2 : ℤ) ≤ m := by
    rw [zpow_natCast]
    exact_mod_cast Nat.log2_self_le hm.ne'
  have above (m : ℕ) : (m : ℚ) < 2 ^ ((m.log2 : ℤ) + 1) := by
    rw [← Nat.cast_succ, zpow_natCast]
    exact_mod_cast Nat.lt_log2_self
  have reached (k : ℤ) : (2 : ℚ) ^ k ≤ n / d ↔ d * 2 ^ k.toNat ≤ n * 2 ^ (-k).toNat := by
    rw [le_div_iff₀ positive, mul_comm, Datum.mul_two_zpow, div_le_iff₀ (by positivity)]
    exact_mod_cast Iff.rfl
  rw [logRatio]
  split
  next hreached =>
    refine ⟨(reached _).mpr hreached, ?_⟩
    rw [div_lt_iff₀ positive]
    calc (n : ℚ)
        < 2 ^ ((n.log2 : ℤ) + 1) := above n
      _ = 2 ^ ((n.log2 : ℤ) - d.log2 + 1) * 2 ^ (d.log2 : ℤ) := by
          rw [← zpow_add₀ (by norm_num)]
          congr 1
          ring
      _ ≤ 2 ^ ((n.log2 : ℤ) - d.log2 + 1) * d :=
          mul_le_mul_of_nonneg_left (below hd) (by positivity)
  next hbeyond =>
    rw [sub_add_cancel]
    refine ⟨?_, not_le.mp (mt (reached _).mp hbeyond)⟩
    rw [le_div_iff₀ positive]
    calc (2 : ℚ) ^ ((n.log2 : ℤ) - d.log2 - 1) * d
        ≤ 2 ^ ((n.log2 : ℤ) - d.log2 - 1) * 2 ^ ((d.log2 : ℤ) + 1) :=
          mul_le_mul_of_nonneg_left (above d).le (by positivity)
      _ = 2 ^ (n.log2 : ℤ) := by
          rw [← zpow_add₀ (by norm_num)]
          congr 1
          ring
      _ ≤ n := below hn

/-- The significand `q` and the exponent `k`, counted from the least one, of the number nearest to
`r`: the exponent is the least one at which the significand has room. -/
structure Rounds (f : Format) (r : ℚ) (k q : ℕ) : Prop where
  nearest : NearestEven (r / 2 ^ (f.leastExponent + k)) q
  upper : r / 2 ^ (f.leastExponent + k) < 2 ^ (f.fractionBits + 1)
  lower : 0 < k → 2 ^ f.fractionBits ≤ r / 2 ^ (f.leastExponent + k)

/-- The pattern of a ratio is put together from the significand and the exponent of the number
nearest to it, but if that is too large, it is the pattern of an infinity. -/
theorem exists_rounds
    (f : Format) (negative : Bool) (hn : 0 < n) (hd : 0 < d) :
  ∃ k q, f.Rounds (n / d) k q ∧
    f.round negative n d =
      if f.specialExponent * 2 ^ f.fractionBits ≤ k * 2 ^ f.fractionBits + q
      then f.infinity negative else f.signBit negative + (k * 2 ^ f.fractionBits + q)
  := by
  obtain ⟨hlow, hhigh⟩ := logRatio_bounds hn hd
  let e := max f.leastExponent (logRatio n d - f.fractionBits)
  let k := (e - f.leastExponent).toNat
  let q := divEven (n * 2 ^ (-e).toNat) (d * 2 ^ e.toNat)
  have exponent : f.leastExponent + k = e := by omega
  have scaled : ((n * 2 ^ (-e).toNat : ℕ) / (d * 2 ^ e.toNat : ℕ) : ℚ) = n / d / 2 ^ e := by
    have power := Datum.mul_two_zpow 1 e
    rw [Nat.cast_one, one_mul, one_mul] at power
    rw [power]
    push_cast
    field_simp
  have nearest : NearestEven (n / d / 2 ^ e) q := by
    rw [← scaled]
    apply nearestEven_divEven
    positivity
  refine ⟨k, q, ⟨by rwa [exponent], ?_, ?_⟩, ?_⟩
  · rw [exponent, div_lt_iff₀ (by positivity), ← zpow_natCast, ← zpow_add₀ (by norm_num)]
    refine lt_of_lt_of_le hhigh (zpow_le_zpow_right₀ (by norm_num) ?_)
    push_cast
    omega
  · intro hk
    rw [exponent, le_div_iff₀ (by positivity), ← zpow_natCast, ← zpow_add₀ (by norm_num)]
    refine le_trans (zpow_le_zpow_right₀ (by norm_num) ?_) hlow
    omega
  · rw [round, if_neg hn.ne']

/-! ### Order -/

/-- The numbers of a binade are below those of the next ones. -/
theorem binade_le
    {i j : ℕ} (h : i < j) :
  (2 : ℚ) ^ (f.fractionBits + 1) * 2 ^ (f.leastExponent + i) ≤
    2 ^ f.fractionBits * 2 ^ (f.leastExponent + j)
  := by
  rw [← zpow_natCast, ← zpow_natCast, ← zpow_add₀ (by norm_num), ← zpow_add₀ (by norm_num)]
  apply zpow_le_zpow_right₀ (by norm_num)
  push_cast
  omega

/-- A number at the exponent `k` is at least one with a significand between two powers of two at the
exponent `K` exactly if its exponent is greater, or is the same and its significand is at least the
other. -/
theorem scaled_le_iff
    {x B : ℚ} (hlow : 2 ^ f.fractionBits < B) (hhigh : B ≤ 2 ^ (f.fractionBits + 1))
    (hnormal : 0 < k → 2 ^ f.fractionBits ≤ x) (hx : x ≤ 2 ^ (f.fractionBits + 1)) :
  B * 2 ^ (f.leastExponent + K) ≤ x * 2 ^ (f.leastExponent + k) ↔ K < k ∨ (k = K ∧ B ≤ x)
  := by
  have unit (i : ℕ) : (0 : ℚ) < 2 ^ (f.leastExponent + i) := by positivity
  -- one more in the exponent outweighs every significand
  rcases Nat.lt_trichotomy k K with hless | rfl | hgreater
  · apply iff_of_false
    · rw [not_le]
      calc x * 2 ^ (f.leastExponent + k)
          ≤ 2 ^ (f.fractionBits + 1) * 2 ^ (f.leastExponent + k) :=
            mul_le_mul_of_nonneg_right hx (unit k).le
        _ ≤ 2 ^ f.fractionBits * 2 ^ (f.leastExponent + K) := binade_le hless
        _ < B * 2 ^ (f.leastExponent + K) := mul_lt_mul_of_pos_right hlow (unit K)
    · omega
  · rw [mul_le_mul_iff_left₀ (unit k)]
    simp
  · apply iff_of_true
    · calc B * 2 ^ (f.leastExponent + K)
          ≤ 2 ^ (f.fractionBits + 1) * 2 ^ (f.leastExponent + K) :=
            mul_le_mul_of_nonneg_right hhigh (unit K).le
        _ ≤ 2 ^ f.fractionBits * 2 ^ (f.leastExponent + k) := binade_le hgreater
        _ ≤ x * 2 ^ (f.leastExponent + k) :=
            mul_le_mul_of_nonneg_right (hnormal (Nat.zero_lt_of_lt hgreater)) (unit k).le
    · exact .inl hgreater

/-- Patterns are compared as their numbers are. -/
theorem pattern_le_iff
    (hlow : 2 ^ f.fractionBits < Q) (hhigh : Q ≤ 2 ^ (f.fractionBits + 1))
    (hnormal : 0 < k → 2 ^ f.fractionBits ≤ q) (hq : q ≤ 2 ^ (f.fractionBits + 1)) :
  K * 2 ^ f.fractionBits + Q ≤ k * 2 ^ f.fractionBits + q ↔ K < k ∨ (k = K ∧ Q ≤ q)
  := by
  have next {i j : ℕ} (h : i < j) :
      i * 2 ^ f.fractionBits + 2 ^ (f.fractionBits + 1) ≤ j * 2 ^ f.fractionBits +
        2 ^ f.fractionBits := by
    have larger := Nat.mul_le_mul_right (2 ^ f.fractionBits) h
    rw [Nat.succ_mul] at larger
    rw [Nat.pow_succ]
    omega
  rcases Nat.lt_trichotomy k K with hless | rfl | hgreater
  · have step := next hless
    omega
  · omega
  · have step := next hgreater
    have normal := hnormal (Nat.zero_lt_of_lt hgreater)
    omega

namespace Rounds

variable (h : f.Rounds r k q)
include h

theorem significand_le :
  q ≤ 2 ^ (f.fractionBits + 1)
  := by
  apply h.nearest.le_natCast
  exact_mod_cast h.upper.le

theorem le_significand
    (hk : 0 < k) :
  2 ^ f.fractionBits ≤ q
  := by
  apply h.nearest.natCast_le
  exact_mod_cast h.lower hk

/-- A ratio is rounded to at least a number with an even significand exactly if it reaches the point
half a unit below that number. -/
theorem le_iff
    (hlow : 2 ^ f.fractionBits < Q) (hhigh : Q ≤ 2 ^ (f.fractionBits + 1)) (hQ : Even Q) :
  K * 2 ^ f.fractionBits + Q ≤ k * 2 ^ f.fractionBits + q ↔
    (Q - 1 / 2) * 2 ^ (f.leastExponent + K) ≤ r
  := by
  have unit : (0 : ℚ) < 2 ^ (f.leastExponent + k) := by positivity
  have above : (2 : ℚ) ^ f.fractionBits + 1 ≤ Q := by exact_mod_cast hlow
  have below : (Q : ℚ) ≤ 2 ^ (f.fractionBits + 1) := by exact_mod_cast hhigh
  rw [pattern_le_iff hlow hhigh h.le_significand h.significand_le, h.nearest.le_iff hQ,
    ← scaled_le_iff (by linarith) (by linarith) h.lower h.upper.le, div_mul_cancel₀ _ unit.ne']

/-- The numbers are compared as the patterns are. -/
theorem scaled_le_iff
    (hlow : 2 ^ f.fractionBits < Q) (hhigh : Q ≤ 2 ^ (f.fractionBits + 1)) (hQ : Even Q) :
  (Q * 2 ^ (f.leastExponent + K) : ℚ) ≤ q * 2 ^ (f.leastExponent + k) ↔
    (Q - 1 / 2) * 2 ^ (f.leastExponent + K) ≤ r
  := by
  rw [← h.le_iff hlow hhigh hQ, pattern_le_iff hlow hhigh h.le_significand h.significand_le,
    Format.scaled_le_iff (by exact_mod_cast hlow) (by exact_mod_cast hhigh)
      (fun hk => by exact_mod_cast h.le_significand hk) (by exact_mod_cast h.significand_le),
    Nat.cast_le]

end Rounds

/-! ### Overflow -/

/-- The least magnitude that is rounded to an infinity, half a unit above the greatest finite
number. -/
def overflowThreshold (f : Format) : ℚ :=
  (2 ^ (f.fractionBits + 1) - 1 / 2) * 2 ^ (f.leastExponent + f.specialExponent - 2)

theorem overflowThreshold_pos
    (f : Format) :
  0 < f.overflowThreshold
  := by
  have one : (1 : ℚ) ≤ 2 ^ (f.fractionBits + 1) := one_le_pow₀ (by norm_num)
  rw [overflowThreshold]
  apply mul_pos
  · linarith
  · positivity

/-- A significand and an exponent with room in the format make a number below that. -/
theorem scaled_lt_overflowThreshold
    {m : ℕ} {e : ℤ} (hm : m < 2 ^ (f.fractionBits + 1))
    (he : e ≤ f.leastExponent + f.specialExponent - 2) :
  (m * 2 ^ e : ℚ) < f.overflowThreshold
  := by
  have significand : (m : ℚ) + 1 ≤ 2 ^ (f.fractionBits + 1) := by exact_mod_cast hm
  calc (m * 2 ^ e : ℚ)
      ≤ m * 2 ^ (f.leastExponent + f.specialExponent - 2) :=
        mul_le_mul_of_nonneg_left (zpow_le_zpow_right₀ (by norm_num) he) (by positivity)
    _ < (2 ^ (f.fractionBits + 1) - 1 / 2) * 2 ^ (f.leastExponent + f.specialExponent - 2) :=
        mul_lt_mul_of_pos_right (by linarith) (by positivity)

/-- The number of a rounded ratio is the one nearest to it, if that is finite. -/
theorem number?_round
    (hspecial : 2 ≤ f.specialExponent) (negative : Bool) (n : ℕ) (hd : 0 < d) :
  ∃ k q, f.Rounds (n / d) k q ∧
    f.number? (f.round negative n d) =
      if f.overflowThreshold ≤ n / d then none
      else (Datum.finite negative q (f.leastExponent + k)).number?
  := by
  rcases Nat.eq_zero_or_pos n with rfl | hn
  · refine ⟨0, 0, ⟨⟨?_, ?_⟩, ?_, nofun⟩, ?_⟩
    · simp
    · simp
    · simp
    · rw [round, if_pos rfl, Nat.cast_zero, zero_div, if_neg (not_le.mpr f.overflowThreshold_pos),
        Nat.cast_zero, add_zero]
      exact number?_signBit (Nat.lt_of_lt_of_le Nat.two_pos hspecial) negative
  · obtain ⟨k, q, h, hround⟩ := f.exists_rounds negative hn hd
    refine ⟨k, q, h, ?_⟩
    obtain ⟨K, hK⟩ := Nat.exists_eq_add_of_le' hspecial
    have exponent : f.leastExponent + f.specialExponent - 2 = f.leastExponent + K := by omega
    have greatest : f.specialExponent * 2 ^ f.fractionBits =
        K * 2 ^ f.fractionBits + 2 ^ (f.fractionBits + 1) := by
      rw [hK]
      ring
    have even : Even (2 ^ (f.fractionBits + 1)) := (even_two.pow_of_ne_zero (Nat.succ_ne_zero _))
    have overflow := h.le_iff (K := K) (Nat.pow_lt_pow_right (by norm_num) (Nat.lt_succ_self _))
      le_rfl even
    rw [← greatest, Nat.cast_pow, Nat.cast_ofNat, ← exponent] at overflow
    rw [hround, overflowThreshold]
    split
    next hlarge =>
      rw [if_pos (overflow.mp hlarge)]
      exact f.number?_infinity negative
    next hsmall =>
      rw [if_neg (mt overflow.mpr hsmall)]
      exact number?_pattern negative h.le_significand h.significand_le (Nat.lt_of_not_le hsmall)

theorem half_below_le_overflowThreshold
    (hQ : 1 ≤ Q) (hhigh : Q ≤ 2 ^ (f.fractionBits + 1)) (hK : K + 2 ≤ f.specialExponent) :
  (Q - 1 / 2 : ℚ) * 2 ^ (f.leastExponent + K) ≤ f.overflowThreshold
  := by
  have some : (1 : ℚ) ≤ Q := by exact_mod_cast hQ
  have significand : (Q : ℚ) ≤ 2 ^ (f.fractionBits + 1) := by exact_mod_cast hhigh
  have exponent : f.leastExponent + K ≤ f.leastExponent + f.specialExponent - 2 := by omega
  apply mul_le_mul (by linarith) (zpow_le_zpow_right₀ (by norm_num) exponent) (by positivity)
  linarith

/-- The number of a rounded ratio is below one with an even significand exactly if the ratio is
below the point half a unit under that number. -/
theorem number?_round_lt_iff
    (hlow : 2 ^ f.fractionBits < Q) (hhigh : Q ≤ 2 ^ (f.fractionBits + 1)) (hQ : Even Q)
    (hK : K + 2 ≤ f.specialExponent) (negative : Bool) (n : ℕ) (hd : 0 < d) :
  (∃ q ∈ f.number? (f.round negative n d), |q| < Q * 2 ^ (f.leastExponent + K)) ↔
    (n / d : ℚ) < (Q - 1 / 2) * 2 ^ (f.leastExponent + K)
  := by
  obtain ⟨k, q, h, hnumber⟩ := number?_round (f := f) (by omega) negative n hd
  rw [hnumber]
  split
  next hoverflow =>
    apply iff_of_false
    · rintro ⟨q, ⟨⟩, -⟩
    · exact not_lt.mpr ((half_below_le_overflowThreshold (by omega) hhigh hK).trans hoverflow)
  next =>
    rw [← not_le, ← h.scaled_le_iff hlow hhigh hQ, not_le]
    constructor
    · rintro ⟨v, hv, hlt⟩
      rwa [Datum.abs_eq_of_mem_number? hv] at hlt
    · intro hlt
      exact ⟨_, rfl, by rwa [Datum.abs_eq_of_mem_number? rfl]⟩

/-- A number whose significand and exponent have room in the format is rounded to itself. -/
theorem number?_roundScaled
    {m : ℕ} {e : ℤ} (hspecial : 2 ≤ f.specialExponent) (negative : Bool)
    (hm : m < 2 ^ (f.fractionBits + 1)) (hleast : f.leastExponent ≤ e)
    (hgreatest : e ≤ f.leastExponent + f.specialExponent - 2) :
  f.number? (f.roundScaled negative m e) = (Datum.finite negative m e).number?
  := by
  have positive : 0 < 2 ^ (-e).toNat := by positivity
  obtain ⟨k, q, h, hround⟩ := number?_round hspecial negative (m * 2 ^ e.toNat) positive
  rw [← Datum.mul_two_zpow] at h hround
  have finite := scaled_lt_overflowThreshold hm hgreatest
  have scaled : (m * 2 ^ e / 2 ^ (f.leastExponent + k) : ℚ) =
      m * 2 ^ (e - (f.leastExponent + k)) := by
    rw [zpow_sub₀ (by norm_num), mul_div_assoc]
  have room : f.leastExponent + k ≤ e := by
    by_contra hlt
    have normal := h.lower (by omega)
    rw [scaled] at normal
    have half : (2 : ℚ) ^ (e - (f.leastExponent + k)) ≤ 2 ^ (-1 : ℤ) :=
      zpow_le_zpow_right₀ (by norm_num) (by omega)
    have smaller := mul_le_mul_of_nonneg_left half (Nat.cast_nonneg (α := ℚ) m)
    rw [zpow_neg_one] at smaller
    have significand : (m : ℚ) < 2 ^ (f.fractionBits + 1) := by exact_mod_cast hm
    rw [pow_succ] at significand
    linarith
  -- in the unit of the rounded number the given one is an integer, and so it is met exactly
  obtain ⟨j, hj⟩ := Int.eq_ofNat_of_zero_le (sub_nonneg.mpr room)
  have whole : (m * 2 ^ e / 2 ^ (f.leastExponent + k) : ℚ) = (m * 2 ^ j : ℕ) := by
    rw [scaled, hj]
    push_cast
    rfl
  have exact := h.nearest
  rw [whole] at exact
  have magnitude : (q * 2 ^ (f.leastExponent + k) : ℚ) = m * 2 ^ e := by
    rw [exact.eq_of_natCast, ← whole, div_mul_cancel₀ _ (by positivity)]
  rw [roundScaled, hround, if_neg (not_le.mpr finite), Datum.number?, Datum.number?, magnitude]

end Format

end SqlWire
