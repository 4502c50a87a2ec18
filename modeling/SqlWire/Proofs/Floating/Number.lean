import SqlWire.Floating.Basic
import SqlWire.Proofs.Number.Truncation

/-!
# Numbers of bit patterns

The rational number that a bit pattern denotes, `Format.number?`, by its three fields: patterns of
infinities and of what is not a number have none.  The significand and the exponent that a pattern
is taken apart into denote the same number, so that cutting it off at the point gives its integer
part, `Datum.truncate?_eq`; and the pattern that is put together from a significand and an exponent
has their number, `Format.number?_pattern`.  The patterns of finite numbers are all put together so,
`Format.exists_fits`.
-/

namespace SqlWire

/-- A number times a power with any integer exponent, as a ratio of natural numbers. -/
theorem Number.mul_zpow
    {b : ℕ} (hb : b ≠ 0) (m : ℕ) (e : ℤ) :
  (m * b ^ e : ℚ) = (m * b ^ e.toNat : ℕ) / (b ^ (-e).toNat : ℕ)
  := by
  have split : e = e.toNat - (-e).toNat := by omega
  conv_lhs => rw [split]
  rw [zpow_sub₀ (by exact_mod_cast hb), zpow_natCast, zpow_natCast, mul_div_assoc']
  push_cast
  rfl

theorem Number.mul_ten_zpow
    (m : ℕ) (e : ℤ) :
  (m * 10 ^ e : ℚ) = (m * 10 ^ e.toNat : ℕ) / (10 ^ (-e).toNat : ℕ)
  := by
  exact_mod_cast mul_zpow (by norm_num) m e

namespace Format

/-- The number that a pattern denotes, if it is finite.  The fraction stands behind a one, or behind
a zero if the exponent field is zero, and the exponent is counted from the middle of its range. -/
def number? (f : Format) (bits : ℕ) : Option ℚ :=
  let bias : ℤ := 2 ^ (f.exponentBits - 1) - 1
  let fraction : ℚ := f.fraction bits / 2 ^ f.fractionBits
  let magnitude : ℚ :=
    if f.exponentField bits = 0 then fraction * 2 ^ (1 - bias)
    else (1 + fraction) * 2 ^ (f.exponentField bits - bias)
  if f.exponentField bits = f.specialExponent then none
  else some (if f.isNegative bits then -magnitude else magnitude)

end Format

namespace Datum

/-- The number of a datum, if it is finite. -/
def number? : Datum → Option ℚ
  | finite negative m e => some (if negative then -(m * 2 ^ e) else m * 2 ^ e)
  | _ => none

variable {d : Datum} {n : ℕ}

theorem mul_two_zpow
    (m : ℕ) (e : ℤ) :
  (m * 2 ^ e : ℚ) = (m * 2 ^ e.toNat : ℕ) / (2 ^ (-e).toNat : ℕ)
  := by
  exact_mod_cast Number.mul_zpow two_ne_zero m e

theorem abs_eq_of_mem_number?
    {negative : Bool} {m : ℕ} {e : ℤ} {q : ℚ} (h : q ∈ (finite negative m e).number?) :
  |q| = m * 2 ^ e
  := by
  rw [← Option.mem_some_iff.mp h]
  exact Number.abs_signed negative (by positivity)

theorem truncate?_eq
    (d : Datum) :
  d.truncate? = d.number?.map Number.integerPart
  := by
  cases d with
  | nan | infinite => rfl
  | finite negative m e =>
    have magnitude : (0 : ℚ) ≤ m * 2 ^ e := by positivity
    have cut : ⌊(m * 2 ^ e : ℚ)⌋₊ = m * 2 ^ e.toNat / 2 ^ (-e).toNat := by
      rw [mul_two_zpow, Nat.floor_div_eq_div]
    rw [number?, Option.map_some, Number.integerPart_signed negative magnitude, cut]
    rfl

theorem reaches_eq_true_iff :
  d.reaches n = true ↔ ∃ q ∈ d.number?, (n : ℚ) ≤ |q|
  := by
  cases d with
  | nan | infinite =>
    constructor
    · nofun
    · rintro ⟨q, ⟨⟩, -⟩
  | finite negative m e =>
    have compare : (n : ℚ) ≤ m * 2 ^ e ↔ n * 2 ^ (-e).toNat ≤ m * 2 ^ e.toNat := by
      rw [mul_two_zpow, le_div_iff₀ (by positivity)]
      exact_mod_cast Iff.rfl
    rw [reaches, decide_eq_true_iff, ← compare]
    constructor
    · intro h
      exact ⟨_, rfl, by rwa [abs_eq_of_mem_number? rfl]⟩
    · rintro ⟨q, hq, h⟩
      rwa [abs_eq_of_mem_number? hq] at h

end Datum

namespace Format

variable {f : Format} {bits m e k q : ℕ} {negative : Bool}

theorem two_zpow_leastExponent
    (f : Format) (e : ℤ) :
  (2 : ℚ) ^ (f.leastExponent + e) =
    2 ^ (1 - ((2 : ℤ) ^ (f.exponentBits - 1) - 1) + e) / 2 ^ f.fractionBits
  := by
  rw [leastExponent, eq_div_iff (by positivity), ← zpow_natCast, ← zpow_add₀ (by norm_num)]
  congr 1
  ring

/-- The datum of a pattern has its number. -/
theorem number?_datum
    (f : Format) (bits : ℕ) :
  (f.datum bits).number? = f.number? bits
  := by
  by_cases hspecial : f.exponentField bits = f.specialExponent
  · simp only [datum, number?, if_pos hspecial]
    split <;> rfl
  · by_cases hzero : f.exponentField bits = 0
    · have subnormal := f.two_zpow_leastExponent 0
      rw [add_zero, add_zero] at subnormal
      simp only [datum, number?, if_neg hspecial, if_pos hzero, Datum.number?, subnormal,
        div_mul_eq_mul_div, mul_div_assoc]
    · have normal := f.two_zpow_leastExponent (f.exponentField bits - 1)
      have one : (2 : ℚ) ^ f.fractionBits ≠ 0 := by positivity
      have magnitude : (2 ^ f.fractionBits + f.fraction bits : ℚ) *
            2 ^ (f.leastExponent + f.exponentField bits - 1) =
          (1 + f.fraction bits / 2 ^ f.fractionBits) *
            2 ^ (f.exponentField bits - ((2 : ℤ) ^ (f.exponentBits - 1) - 1)) := by
        rw [add_sub_assoc, normal]
        have exponents : (1 - ((2 : ℤ) ^ (f.exponentBits - 1) - 1) + (f.exponentField bits - 1)) =
            f.exponentField bits - ((2 : ℤ) ^ (f.exponentBits - 1) - 1) := by ring
        rw [exponents]
        field_simp
      simp only [datum, number?, if_neg hspecial, if_neg hzero, Datum.number?, Nat.cast_add,
        Nat.cast_pow, Nat.cast_ofNat, magnitude]

/-- Bits beyond the sign do not count. -/
theorem number?_mod
    (f : Format) (bits : ℕ) :
  f.number? (bits % 2 ^ (f.fractionBits + f.exponentBits + 1)) = f.number? bits
  := by
  have fraction : f.fraction (bits % 2 ^ (f.fractionBits + f.exponentBits + 1)) =
      f.fraction bits := by
    apply Nat.mod_mod_of_dvd
    exact Nat.pow_dvd_pow 2 (by omega)
  have exponent : f.exponentField (bits % 2 ^ (f.fractionBits + f.exponentBits + 1)) =
      f.exponentField bits := by
    rw [exponentField, Nat.add_assoc, Nat.pow_add, Nat.mod_mul_right_div_self,
      Nat.mod_mod_of_dvd _ (Nat.pow_dvd_pow 2 (Nat.le_succ _))]
    rfl
  have sign : f.isNegative (bits % 2 ^ (f.fractionBits + f.exponentBits + 1)) =
      f.isNegative bits := by
    rw [isNegative, Nat.pow_succ, Nat.mod_mul_right_div_self, Nat.mod_mod]
    rfl
  rw [number?, fraction, exponent, sign]
  rfl

/-! ### Patterns put together -/

theorem signBit_eq
    (f : Format) (negative : Bool) :
  f.signBit negative = negative.toNat * 2 ^ (f.fractionBits + f.exponentBits)
  := by
  cases negative <;> simp [signBit]

/-- The fields of a pattern that is put together from them. -/
theorem fields
    (f : Format) (negative : Bool) (he : e ≤ f.specialExponent) (hm : m < 2 ^ f.fractionBits) :
  let bits := f.signBit negative + (e * 2 ^ f.fractionBits + m)
  f.fraction bits = m ∧ f.exponentField bits = e ∧ f.isNegative bits = negative
  := by
  intro bits
  have hexponent : e < 2 ^ f.exponentBits := by
    have positive : 0 < 2 ^ f.exponentBits := by positivity
    rw [specialExponent] at he
    omega
  have apart : bits = m + (e + negative.toNat * 2 ^ f.exponentBits) * 2 ^ f.fractionBits := by
    simp only [bits, signBit_eq, Nat.pow_add]
    ring
  have high : bits / 2 ^ f.fractionBits = e + negative.toNat * 2 ^ f.exponentBits := by
    rw [apart, Nat.add_mul_div_right _ _ (by positivity), Nat.div_eq_of_lt hm, Nat.zero_add]
  refine ⟨?_, ?_, ?_⟩
  · rw [fraction, apart, Nat.add_mul_mod_self_right, Nat.mod_eq_of_lt hm]
  · rw [exponentField, high, Nat.add_mul_mod_self_right, Nat.mod_eq_of_lt hexponent]
  · rw [isNegative, Nat.pow_add, ← Nat.div_div_eq_div_mul, high,
      Nat.add_mul_div_right _ _ (by positivity), Nat.div_eq_of_lt hexponent]
    cases negative <;> rfl

/-- A pattern is put together from its fields. -/
theorem eq_fields
    (hbits : bits < 2 ^ (f.fractionBits + f.exponentBits + 1)) :
  bits = f.signBit (f.isNegative bits) +
    (f.exponentField bits * 2 ^ f.fractionBits + f.fraction bits)
  := by
  have sign : f.signBit (f.isNegative bits) =
      bits / 2 ^ f.fractionBits / 2 ^ f.exponentBits * 2 ^ f.exponentBits * 2 ^ f.fractionBits := by
    have below : bits / 2 ^ (f.fractionBits + f.exponentBits) < 2 := by
      rw [Nat.div_lt_iff_lt_mul (by positivity), Nat.mul_comm, ← Nat.pow_succ]
      exact hbits
    rw [signBit_eq, isNegative, Nat.div_div_eq_div_mul, ← Nat.pow_add, Nat.mul_assoc,
      ← Nat.pow_add, Nat.add_comm f.exponentBits]
    generalize bits / 2 ^ (f.fractionBits + f.exponentBits) = s at below ⊢
    congr 1
    obtain rfl | rfl : s = 0 ∨ s = 1 := by omega
    · rfl
    · rfl
  rw [sign, exponentField, fraction, ← Nat.add_assoc, ← Nat.add_mul, Nat.div_add_mod',
    Nat.div_add_mod']

/-- The patterns of infinities, and those beyond them of what is not a number, have no number. -/
theorem number?_infinity_add
    (negative : Bool) (hm : m < 2 ^ f.fractionBits) :
  f.number? (f.infinity negative + m) = none
  := by
  obtain ⟨-, hexponent, -⟩ := f.fields negative (Nat.le_refl _) hm
  rw [infinity, Nat.add_assoc, number?]
  exact if_pos hexponent

theorem number?_infinity
    (f : Format) (negative : Bool) :
  f.number? (f.infinity negative) = none
  :=
  number?_infinity_add negative (m := 0) (by positivity)

theorem number?_fields
    (negative : Bool) (he : e < f.specialExponent) (hm : m < 2 ^ f.fractionBits) :
  f.number? (f.signBit negative + (e * 2 ^ f.fractionBits + m)) =
    if e = 0 then (Datum.finite negative m f.leastExponent).number?
    else (Datum.finite negative (2 ^ f.fractionBits + m) (f.leastExponent + e - 1)).number?
  := by
  obtain ⟨hfraction, hexponent, hsign⟩ := f.fields negative (Nat.le_of_lt he) hm
  rw [← number?_datum, datum, hfraction, hexponent, hsign]
  simp only [if_neg (Nat.ne_of_lt he)]
  split <;> rfl

/-- A significand above the exponent field carries into it, so that the pattern of the significand
`q` and the exponent `k` counted from the least one is `k` and `q` added up; the leading one of `q`
is the one that the exponent field counts. -/
theorem number?_pattern
    (negative : Bool) (hnormal : 0 < k → 2 ^ f.fractionBits ≤ q) (hq : q ≤ 2 ^ (f.fractionBits + 1))
    (hfinite : k * 2 ^ f.fractionBits + q < f.specialExponent * 2 ^ f.fractionBits) :
  f.number? (f.signBit negative + (k * 2 ^ f.fractionBits + q)) =
    (Datum.finite negative q (f.leastExponent + k)).number?
  := by
  have bound {e m : ℕ}
      (h : e * 2 ^ f.fractionBits + m < f.specialExponent * 2 ^ f.fractionBits) :
      e < f.specialExponent :=
    Nat.lt_of_mul_lt_mul_right (Nat.lt_of_le_of_lt (Nat.le_add_right _ m) h)
  have double : 2 ^ (f.fractionBits + 1) = 2 ^ f.fractionBits + 2 ^ f.fractionBits := by ring
  -- the exponent field is zero, or one more than `k`, or two more after a carry
  rcases Nat.lt_or_ge q (2 ^ f.fractionBits) with hsubnormal | hlarge
  · obtain rfl : k = 0 := by
      by_contra hk
      exact absurd (hnormal (Nat.pos_of_ne_zero hk)) (Nat.not_le.mpr hsubnormal)
    rw [number?_fields negative (bound hfinite) hsubnormal, if_pos rfl, Nat.cast_zero, add_zero]
  · rcases Nat.lt_or_ge q (2 ^ (f.fractionBits + 1)) with hone | hcarry
    · obtain ⟨m, rfl⟩ := Nat.exists_eq_add_of_le hlarge
      have carried : k * 2 ^ f.fractionBits + (2 ^ f.fractionBits + m) =
          (k + 1) * 2 ^ f.fractionBits + m := by ring
      rw [carried] at hfinite ⊢
      rw [number?_fields negative (bound hfinite) (by omega), if_neg (Nat.succ_ne_zero k),
        Nat.cast_succ, ← add_assoc, add_sub_cancel_right]
    · obtain rfl : q = 2 ^ (f.fractionBits + 1) := Nat.le_antisymm hq hcarry
      have carried : k * 2 ^ f.fractionBits + 2 ^ (f.fractionBits + 1) =
          (k + 2) * 2 ^ f.fractionBits + 0 := by ring
      rw [carried] at hfinite ⊢
      have exponent : f.leastExponent + ((k + 2 : ℕ) : ℤ) - 1 = f.leastExponent + k + 1 := by
        push_cast
        ring
      have magnitude : ((2 ^ f.fractionBits + 0 : ℕ) : ℚ) * 2 ^ (f.leastExponent + k + 1) =
          ((2 ^ (f.fractionBits + 1) : ℕ) : ℚ) * 2 ^ (f.leastExponent + k) := by
        rw [zpow_add₀ (by norm_num) _ 1]
        push_cast
        ring
      rw [number?_fields negative (bound hfinite) (by positivity), if_neg (Nat.succ_ne_zero _),
        exponent, Datum.number?, Datum.number?, magnitude]

/-- A significand and an exponent, counted from the least one, are those of a finite number. -/
structure Fits (f : Format) (k m : ℕ) : Prop where
  normal : 0 < k → 2 ^ f.fractionBits ≤ m
  room : m < 2 ^ (f.fractionBits + 1)
  finite : k * 2 ^ f.fractionBits + m < f.specialExponent * 2 ^ f.fractionBits

/-- The significand and the exponent of a finite number, which its fields are put together from. -/
theorem exists_fits
    {e : ℤ} (h : f.datum bits = .finite negative m e) :
  ∃ k : ℕ, e = f.leastExponent + k ∧ f.Fits k m ∧ f.isNegative bits = negative ∧
    f.exponentField bits * 2 ^ f.fractionBits + f.fraction bits = k * 2 ^ f.fractionBits + m
  := by
  have fraction : f.fraction bits < 2 ^ f.fractionBits := Nat.mod_lt _ (by positivity)
  have double : 2 ^ (f.fractionBits + 1) = 2 ^ f.fractionBits + 2 ^ f.fractionBits := by ring
  rw [datum] at h
  split at h
  next => split at h <;> cases h
  next hspecial =>
    have exponent : f.exponentField bits < 2 ^ f.exponentBits := Nat.mod_lt _ (by positivity)
    have largest : f.specialExponent = 2 ^ f.exponentBits - 1 := rfl
    have finite : f.exponentField bits * 2 ^ f.fractionBits + f.fraction bits <
        f.specialExponent * 2 ^ f.fractionBits := by
      have room := Nat.mul_le_mul_right (2 ^ f.fractionBits)
        (by omega : f.exponentField bits + 1 ≤ f.specialExponent)
      rw [Nat.succ_mul] at room
      omega
    split at h
    next hzero =>
      cases h
      rw [hzero] at finite ⊢
      exact ⟨0, by omega, ⟨fun hk => absurd hk (Nat.lt_irrefl 0), by omega, finite⟩, rfl, rfl⟩
    next hnormal =>
      cases h
      obtain ⟨k, hk⟩ := Nat.exists_eq_add_one_of_ne_zero hnormal
      have carried : f.exponentField bits * 2 ^ f.fractionBits + f.fraction bits =
          k * 2 ^ f.fractionBits + (2 ^ f.fractionBits + f.fraction bits) := by
        rw [hk]
        ring
      rw [carried] at finite ⊢
      exact ⟨k, by omega, ⟨fun _ => Nat.le_add_right _ _, by omega, finite⟩, rfl, rfl⟩

/-- The significand of a datum and its exponent have room in the format. -/
theorem room_of_datum
    {e : ℤ} (hspecial : 2 ≤ f.specialExponent) (h : f.datum bits = .finite negative m e) :
  m < 2 ^ (f.fractionBits + 1) ∧ f.leastExponent ≤ e ∧
    e ≤ f.leastExponent + f.specialExponent - 2
  := by
  obtain ⟨k, rfl, hfits, -⟩ := exists_fits h
  refine ⟨hfits.room, by omega, ?_⟩
  rcases Nat.eq_zero_or_pos k with rfl | hk
  · omega
  · have normal := hfits.normal hk
    have finite := hfits.finite
    have below : (k + 1) * 2 ^ f.fractionBits < f.specialExponent * 2 ^ f.fractionBits := by
      rw [Nat.succ_mul]
      omega
    have exponent := Nat.lt_of_mul_lt_mul_right below
    omega

/-- The pattern of a sign alone is zero. -/
theorem number?_signBit
    (hspecial : 0 < f.specialExponent) (negative : Bool) :
  f.number? (f.signBit negative) = (Datum.finite negative 0 f.leastExponent).number?
  := by
  have zero := number?_fields negative (e := 0) (m := 0) hspecial (by positivity)
  rwa [if_pos rfl, Nat.zero_mul] at zero

end Format

/-- The number that a pattern of eight bytes denotes. -/
def Double.number? (x : Double) : Option ℚ :=
  Format.binary64.number? x.bits.toNat

/-- The number that a pattern of four bytes denotes. -/
def Single.number? (x : Single) : Option ℚ :=
  Format.binary32.number? x.bits.toNat

theorem Double.number?_datum
    (x : Double) :
  x.datum.number? = x.number?
  :=
  Format.binary64.number?_datum x.bits.toNat

theorem Double.number?_ofBits
    (n : ℕ) :
  (Double.ofBits n).number? = Format.binary64.number? n
  := by
  rw [number?, ofBits, UInt64.toNat_ofNat']
  exact Format.binary64.number?_mod n

theorem Single.number?_ofBits
    (n : ℕ) :
  (Single.ofBits n).number? = Format.binary32.number? n
  := by
  rw [number?, ofBits, UInt32.toNat_ofNat']
  exact Format.binary32.number?_mod n

end SqlWire
