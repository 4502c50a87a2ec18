import Mathlib.Algebra.Order.Field.Power
import Mathlib.Algebra.Order.Floor.Semifield
import Mathlib.Data.Rat.Floor
import Mathlib.Tactic.FieldSimp
import Mathlib.Tactic.Linarith
import Mathlib.Tactic.Positivity
import Mathlib.Tactic.Ring
import SqlWire.Proofs.Number.Rounding

/-!
# Integer parts of literals

A literal denotes a rational number, `Literal.number`.  Reading it as an integer goes through a
decimal, which keeps only the digits behind the point that it has room for (`Literal.Keeps`), rounds
the rest away, moves the point by the exponent, and only then cuts off at it:
`Number.readInteger_rounded`.  Rounding first can carry to the next integer, as it does in
`Number.readInteger_nines`, but never by more than half a unit.
-/

namespace SqlWire

namespace Literal

/-- The number that the digits denote, without sign and exponent. -/
def mantissa (l : Literal) : ℚ :=
  l.significand / 10 ^ l.fraction.length

/-- The number of places that an exponent moves the point by. -/
def Exponent.shift (e : Exponent) : ℤ :=
  if e.isNegative then -Digits.value e.digits else Digits.value e.digits

/-- The number of places that the point is moved by; without an exponent it stays where it is. -/
def shift (l : Literal) : ℤ :=
  (l.exponent.map Exponent.shift).getD 0

/-- A number with the literal's sign. -/
def withSign (l : Literal) (q : ℚ) : ℚ :=
  if l.isNegative then -q else q

/-- The number that a literal denotes. -/
def number (l : Literal) : ℚ :=
  l.withSign (l.mantissa * 10 ^ l.shift)

/-- The digits without those beyond so many places behind the point, a half rounded up. -/
def rounded (l : Literal) (places : ℕ) : ℕ :=
  ⌊l.mantissa * 10 ^ places + 1 / 2⌋₊

/-- The places behind the point that are kept: the greatest number of them, at most 28, at which the
rounded digits are below `2 ^ 96`. -/
def Keeps (l : Literal) (places : ℕ) : Prop :=
  IsGreatest {k | k ≤ 28 ∧ k ≤ l.fraction.length ∧ l.rounded k < 2 ^ 96} places

end Literal

/-- The integer part of a number, toward zero. -/
def Number.integerPart (q : ℚ) : ℤ :=
  if 0 ≤ q then ⌊q⌋ else ⌈q⌉

theorem Number.abs_signed
    (negative : Bool) {q : ℚ} (hq : 0 ≤ q) :
  |if negative then -q else q| = q
  := by
  split
  next => rw [abs_neg, abs_of_nonneg hq]
  next => exact abs_of_nonneg hq

theorem Number.integerPart_signed
    (negative : Bool) {q : ℚ} (hq : 0 ≤ q) :
  Number.integerPart (if negative then -q else q) = if negative then -(⌊q⌋₊ : ℤ) else ⌊q⌋₊
  := by
  rw [Int.natCast_floor_eq_floor hq]
  split
  next =>
    rw [Number.integerPart, Int.ceil_neg]
    split
    next hneg =>
      obtain rfl : q = 0 := by linarith
      simp
    next => rfl
  next => exact if_pos hq

namespace Literal

variable {l : Literal} {places : ℕ}

theorem mantissa_nonneg :
  0 ≤ l.mantissa
  := by
  rw [mantissa]
  positivity

/-! ### Integer parts -/

theorem integerPart_withSign
    {q : ℚ} (hq : 0 ≤ q) :
  Number.integerPart (l.withSign q) = if l.isNegative then -(⌊q⌋₊ : ℤ) else ⌊q⌋₊
  :=
  Number.integerPart_signed l.isNegative hq

theorem natAbs_integerPart_withSign
    {q : ℚ} (hq : 0 ≤ q) :
  (Number.integerPart (l.withSign q)).natAbs = ⌊q⌋₊
  := by
  rw [integerPart_withSign hq]
  split <;> omega

/-! ### Rounding -/

theorem rounded_eq_roundOff
    (h : places ≤ l.fraction.length) :
  l.rounded places =
    Decimal.roundOff (Digits.value (l.whole ++ l.fraction)) (l.fraction.length - places)
  := by
  obtain ⟨dropped, hdropped⟩ := Nat.exists_eq_add_of_le h
  have quotient : l.mantissa * 10 ^ places + 1 / 2 =
      ((2 * Digits.value (l.whole ++ l.fraction) + 10 ^ dropped : ℕ) : ℚ) /
        (2 * 10 ^ dropped : ℕ) := by
    rw [mantissa, significand, Digits.longValue_eq, hdropped]
    push_cast
    field_simp
    ring
  rw [rounded, quotient, Nat.floor_div_eq_div, hdropped, Nat.add_sub_cancel_left]
  rfl

/-- The places kept are those that digits are read to. -/
theorem keeps_iff :
  l.Keeps places ↔
    Decimal.fit? (Digits.value (l.whole ++ l.fraction)) l.fraction.length
      (min Decimal.maxScale l.fraction.length) = some (l.rounded places, places)
  := by
  rw [Decimal.fit?_eq_some_iff, Nat.le_min]
  constructor
  · rintro ⟨⟨hscale, hlength, hfits⟩, hgreatest⟩
    refine ⟨⟨hscale, hlength⟩, rounded_eq_roundOff hlength, hfits, ?_⟩
    intro more hmore hle
    obtain ⟨hscale', hlength'⟩ := Nat.le_min.mp hle
    rw [← rounded_eq_roundOff hlength']
    by_contra hlt
    have kept := hgreatest ⟨hscale', hlength', Nat.lt_of_not_le hlt⟩
    exact absurd kept (Nat.not_le.mpr hmore)
  · rintro ⟨⟨hscale, hlength⟩, -, hfits, hgreatest⟩
    refine ⟨⟨hscale, hlength, hfits⟩, ?_⟩
    rintro more ⟨hscale', hlength', hfits'⟩
    by_contra hlt
    have large := hgreatest more (Nat.lt_of_not_le hlt) (Nat.le_min.mpr ⟨hscale', hlength'⟩)
    rw [← rounded_eq_roundOff hlength'] at large
    exact absurd hfits' (Nat.not_lt.mpr large)

/-- Rounding to more places leaves more digits. -/
theorem rounded_mono {places' : ℕ}
    (h : places ≤ places') :
  l.rounded places ≤ l.rounded places'
  := by
  have power : (10 : ℚ) ^ places ≤ 10 ^ places' := pow_le_pow_right₀ (by norm_num) h
  have larger := mul_le_mul_of_nonneg_left power l.mantissa_nonneg
  exact Nat.floor_mono (by linarith)

theorem exists_keeps
    (h : l.rounded 0 < 2 ^ 96) :
  ∃ places, l.Keeps places
  := by
  cases hkept : Decimal.fit? (Digits.value (l.whole ++ l.fraction)) l.fraction.length
      (min Decimal.maxScale l.fraction.length) with
  | none =>
    have large := Decimal.fit?_eq_none_iff.mp hkept 0 (Nat.zero_le _)
    rw [← rounded_eq_roundOff (Nat.zero_le _)] at large
    exact absurd h (Nat.not_lt.mpr large)
  | some kept =>
    obtain ⟨coefficient, places⟩ := kept
    obtain ⟨hle, hcoefficient, -⟩ := Decimal.fit?_eq_some_iff.mp hkept
    rw [← rounded_eq_roundOff (Nat.le_min.mp hle).2] at hcoefficient
    rw [hcoefficient] at hkept
    exact ⟨places, keeps_iff.mpr hkept⟩

/-! ### Decimals of literals -/

theorem ofDigits?_of_keeps
    (hl : l.WellFormed) (h : l.Keeps places) :
  Decimal.ofDigits? l.whole l.fraction = some (l.rounded places, places)
  := by
  rw [Decimal.ofDigits?_eq _ hl.fraction]
  exact keeps_iff.mp h

/-- Digits that are too many without any behind the point have no decimal. -/
theorem ofDigits?_of_le_rounded
    (hl : l.WellFormed) (h : 2 ^ 96 ≤ l.rounded 0) :
  Decimal.ofDigits? l.whole l.fraction = none
  := by
  rw [Decimal.ofDigits?_eq _ hl.fraction, Decimal.fit?_eq_none_iff]
  intro places hplaces
  rw [← rounded_eq_roundOff (Nat.le_min.mp hplaces).2]
  exact Nat.le_trans h (rounded_mono (Nat.zero_le places))

/-- An exponent moves the point, if it is not too far. -/
theorem shift?_eq
    (coefficient places : ℕ) (e : Exponent) :
  Decimal.shift? coefficient places e =
    if -28 ≤ e.shift ∧ e.shift ≤ 28 then
      if e.shift ≤ places then some (coefficient, (places - e.shift).toNat)
      else some (coefficient * 10 ^ (e.shift - places).toNat, 0)
    else none
  := by
  rw [Decimal.shift?, Digits.below?_eq (by decide), Decimal.maxScale, Exponent.shift]
  generalize Digits.value e.digits = moved
  by_cases hmoved : moved < 28 + 1
  · rw [if_pos hmoved]
    cases e.isNegative with
    | true =>
      rw [if_pos rfl, if_pos ⟨by omega, by omega⟩, if_pos (by omega)]
      have sum : ((places : ℤ) - -(moved : ℤ)).toNat = places + moved := by omega
      rw [sum]
      rfl
    | false =>
      rw [if_neg Bool.false_ne_true, if_pos ⟨by omega, by omega⟩]
      have difference : ((places : ℤ) - (moved : ℤ)).toNat = places - moved := by omega
      have excess : ((moved : ℤ) - (places : ℤ)).toNat = moved - places := by omega
      simp only [difference, excess, Int.ofNat_le]
      rfl
  · rw [if_neg hmoved, if_neg]
    · rfl
    · split <;> omega

theorem ofUnsignedZero?_of_scale_lt
    {negative : Bool} {coefficient scale : ℕ} (h : 28 < scale) :
  Decimal.ofUnsignedZero? negative coefficient scale = none
  := by
  rw [Decimal.ofUnsignedZero?, Decimal.ofParts?, dif_neg]
  omega

/-- The decimal of the digits kept, with the point moved, if it is moved to no place beyond the
greatest scale. -/
theorem ofLiteral?_of_keeps
    (hl : l.WellFormed) (h : l.Keeps places) :
  Decimal.ofLiteral? l =
    if (places : ℤ) - 28 ≤ l.shift ∧ l.shift ≤ 28 then
      if l.shift ≤ places then
        Decimal.ofUnsignedZero? l.isNegative (l.rounded places) (places - l.shift).toNat
      else
        Decimal.ofUnsignedZero? l.isNegative (l.rounded places * 10 ^ (l.shift - places).toNat) 0
    else none
  := by
  have hscale : places ≤ 28 := h.1.1
  rw [Decimal.ofLiteral?, ofDigits?_of_keeps hl h, shift]
  cases l.exponent with
  | none =>
    have unmoved : ((places : ℤ) - 0).toNat = places := by omega
    rw [Option.map_none, Option.getD_none, if_pos ⟨by omega, by decide⟩, if_pos (by omega), unmoved]
    rfl
  | some e =>
    change (Decimal.shift? (l.rounded places) places e >>= fun parts =>
      Decimal.ofUnsignedZero? l.isNegative parts.1 parts.2) = _
    rw [shift?_eq, Option.map_some, Option.getD_some]
    generalize e.shift = moved
    by_cases hlow : (places : ℤ) - 28 ≤ moved
    · have range : (-28 ≤ moved ∧ moved ≤ 28) ↔ ((places : ℤ) - 28 ≤ moved ∧ moved ≤ 28) := by
        omega
      simp only [range]
      split_ifs <;> rfl
    · rw [if_neg (by omega : ¬ ((places : ℤ) - 28 ≤ moved ∧ moved ≤ 28))]
      split_ifs
      next => exact ofUnsignedZero?_of_scale_lt (by omega)
      next => omega
      next => rfl

/-! ### Numbers of decimals -/

theorem floor_div_pow
    (coefficient scale : ℕ) :
  ⌊(coefficient / 10 ^ scale : ℚ)⌋₊ = coefficient / 10 ^ scale
  := by
  have floor := Nat.floor_div_eq_div (K := ℚ) coefficient (10 ^ scale)
  rwa [Nat.cast_pow, Nat.cast_ofNat] at floor

/-- The integer part of a decimal is that of its number. -/
theorem truncate_eq_integerPart
    {coefficient scale : ℕ} {d : Decimal}
    (h : Decimal.ofUnsignedZero? l.isNegative coefficient scale = some d) :
  d.truncate = Number.integerPart (l.withSign (coefficient / 10 ^ scale : ℚ))
  := by
  rw [Decimal.truncate_of_ofUnsignedZero? h, integerPart_withSign (by positivity), floor_div_pow]

end Literal

namespace Number

variable {s : String} {l : Literal} {places : ℕ}

theorem readInteger_of_parts
    {coefficient scale : ℕ} (hs : Literal.ofString? s = some l)
    (hparts : Decimal.ofLiteral? l = Decimal.ofUnsignedZero? l.isNegative coefficient scale)
    (hscale : scale ≤ 28) (hfits : scale = 0 ∨ coefficient < 2 ^ 96) (target : String) :
  readInteger s target =
    if (integerPart (l.withSign (coefficient / 10 ^ scale))).natAbs < 2 ^ 96 then
      .ok (integerPart (l.withSign (coefficient / 10 ^ scale)))
    else .error (.overflow s target)
  := by
  obtain ⟨hok, hoverflow⟩ := readInteger_of_ofLiteral? hs target
  rw [Literal.natAbs_integerPart_withSign (by positivity)]
  by_cases hlimit : coefficient < 2 ^ 96
  · obtain ⟨d, hd⟩ := Decimal.exists_ofUnsignedZero? hlimit hscale l.isNegative
    have small : ⌊(coefficient / 10 ^ scale : ℚ)⌋₊ < 2 ^ 96 := by
      rw [Literal.floor_div_pow]
      exact Nat.lt_of_le_of_lt (Nat.div_le_self _ _) hlimit
    rw [if_pos small, hok d (hparts.trans hd), Literal.truncate_eq_integerPart hd]
  · obtain rfl : scale = 0 := hfits.resolve_right hlimit
    rw [if_neg, hoverflow]
    · rw [hparts, Decimal.ofUnsignedZero?, Decimal.ofParts?, dif_neg fun h => hlimit h.1]
    · rw [pow_zero, div_one, Nat.floor_natCast]
      exact hlimit

/-- The digits kept, with the point moved, are cut off at the point, and overflow if too many are
left. -/
theorem readInteger_of_keeps
    (hs : Literal.ofString? s = some l) (hl : l.WellFormed) (h : l.Keeps places)
    (hlow : (places : ℤ) - 28 ≤ l.shift) (hhigh : l.shift ≤ 28) (target : String) :
  readInteger s target =
    if (integerPart (l.withSign (l.rounded places / 10 ^ places * 10 ^ l.shift))).natAbs < 2 ^ 96
    then .ok (integerPart (l.withSign (l.rounded places / 10 ^ places * 10 ^ l.shift)))
    else .error (.overflow s target)
  := by
  have hparts := Literal.ofLiteral?_of_keeps hl h
  rw [if_pos ⟨hlow, hhigh⟩] at hparts
  by_cases hle : l.shift ≤ places
  · rw [if_pos hle] at hparts
    obtain ⟨scale, hscale⟩ : ∃ scale : ℕ, l.shift = places - scale :=
      ⟨(places - l.shift).toNat, by omega⟩
    have number : (l.rounded places / 10 ^ places * 10 ^ l.shift : ℚ) =
        l.rounded places / 10 ^ scale := by
      rw [hscale, zpow_sub₀ (by norm_num), zpow_natCast, zpow_natCast]
      field_simp
    have moved : ((places : ℤ) - l.shift).toNat = scale := by omega
    rw [moved] at hparts
    rw [number]
    exact readInteger_of_parts hs hparts (by omega) (.inr h.1.2.2) target
  · rw [if_neg hle] at hparts
    obtain ⟨zeros, hzeros⟩ : ∃ zeros : ℕ, l.shift = places + zeros :=
      ⟨(l.shift - places).toNat, by omega⟩
    have number : (l.rounded places / 10 ^ places * 10 ^ l.shift : ℚ) =
        (l.rounded places * 10 ^ zeros : ℕ) / 10 ^ 0 := by
      rw [hzeros, zpow_add₀ (by norm_num), zpow_natCast, zpow_natCast]
      push_cast
      field_simp
    have moved : (l.shift - (places : ℤ)).toNat = zeros := by omega
    rw [moved] at hparts
    rw [number]
    exact readInteger_of_parts hs hparts (Nat.zero_le _) (.inl rfl) target

/-- Digits that are too many without any behind the point overflow. -/
theorem readInteger_of_le_rounded
    (hs : Literal.ofString? s = some l) (hl : l.WellFormed) (h : 2 ^ 96 ≤ l.rounded 0)
    (target : String) :
  readInteger s target = .error (.overflow s target)
  := by
  apply (readInteger_of_ofLiteral? hs target).2
  rw [Decimal.ofLiteral?, Literal.ofDigits?_of_le_rounded hl h]
  rfl

/-- A literal is read only if its exponent moves the digits kept to no place out of range. -/
theorem exists_keeps_of_readInteger
    {target : String} {i : ℤ} (hs : Literal.ofString? s = some l) (hl : l.WellFormed)
    (h : readInteger s target = .ok i) :
  ∃ places, l.Keeps places ∧ (places : ℤ) - 28 ≤ l.shift ∧ l.shift ≤ 28
  := by
  rcases Nat.lt_or_ge (l.rounded 0) (2 ^ 96) with hfits | hlarge
  · obtain ⟨places, hplaces⟩ := Literal.exists_keeps hfits
    by_contra hnone
    have out : ¬ ((places : ℤ) - 28 ≤ l.shift ∧ l.shift ≤ 28) :=
      fun hrange => hnone ⟨places, hplaces, hrange⟩
    have hparts := Literal.ofLiteral?_of_keeps hl hplaces
    rw [if_neg out] at hparts
    rw [(readInteger_of_ofLiteral? hs target).2 hparts] at h
    cases h
  · rw [readInteger_of_le_rounded hs hl hlarge] at h
    cases h

end Number

namespace Literal

variable {l : Literal} {places : ℕ}

/-! ### How near the digits kept are -/

/-- With all digits behind the point nothing is rounded. -/
theorem rounded_length_fraction
    (l : Literal) :
  (l.rounded l.fraction.length : ℚ) = l.mantissa * 10 ^ l.fraction.length
  := by
  rw [rounded_eq_roundOff (Nat.le_refl _), Nat.sub_self, Decimal.roundOff_zero, mantissa,
    significand, Digits.longValue_eq]
  field_simp

/-- Rounding moves a number by half a unit at most, and up if by as much. -/
theorem rounded_near
    (l : Literal) (places : ℕ) :
  (l.rounded places : ℚ) ≤ l.mantissa * 10 ^ places + 1 / 2 ∧
    l.mantissa * 10 ^ places < l.rounded places + 1 / 2
  := by
  have nonneg := l.mantissa_nonneg
  have least := Nat.floor_le (a := l.mantissa * 10 ^ places + 1 / 2) (by positivity)
  have greatest := Nat.lt_floor_add_one (l.mantissa * 10 ^ places + 1 / 2)
  rw [← rounded] at least greatest
  constructor <;> linarith

/-- Digits that were rounded leave no room for a zero behind them, so that the point cannot be moved
beyond them. -/
theorem exact_or_shift_le
    (h : l.Keeps places) (hhigh : l.shift ≤ 28)
    (hfits : (l.rounded places / 10 ^ places * 10 ^ l.shift : ℚ) < 2 ^ 96) :
  (l.rounded places : ℚ) = l.mantissa * 10 ^ places ∨ l.shift ≤ places
  := by
  by_contra hneither
  obtain ⟨hinexact, hbeyond⟩ := not_or.mp hneither
  obtain ⟨⟨-, hlength, -⟩, hgreatest⟩ := h
  have some : places < l.fraction.length := by
    apply Nat.lt_of_le_of_ne hlength
    rintro rfl
    exact hinexact l.rounded_length_fraction
  have large : 2 ^ 96 ≤ l.rounded (places + 1) := by
    by_contra hsmall
    have kept := hgreatest ⟨by omega, some, Nat.lt_of_not_le hsmall⟩
    omega
  have full : 2 ^ 96 ≤ 10 * l.rounded places := by
    have more := (l.rounded_near (places + 1)).1
    have fewer := (l.rounded_near places).2
    have room : (2 : ℚ) ^ 96 ≤ l.rounded (places + 1) := by exact_mod_cast large
    rw [pow_succ (10 : ℚ)] at more
    have bound : (2 ^ 96 : ℚ) < 10 * l.rounded places + 6 := by linarith
    have natural : 2 ^ 96 < 10 * l.rounded places + 6 := by exact_mod_cast bound
    omega
  obtain ⟨zeros, hzeros⟩ : ∃ zeros : ℕ, l.shift = places + (zeros + 1 : ℕ) :=
    ⟨(l.shift - places - 1).toNat, by omega⟩
  have number : (l.rounded places / 10 ^ places * 10 ^ l.shift : ℚ) =
      10 * l.rounded places * 10 ^ zeros := by
    rw [hzeros, zpow_add₀ (by norm_num), zpow_natCast, zpow_natCast]
    field_simp
    ring
  have digits : (2 : ℚ) ^ 96 ≤ 10 * l.rounded places := by exact_mod_cast full
  have power : (1 : ℚ) ≤ 10 ^ zeros := one_le_pow₀ (by norm_num)
  have product := le_mul_of_one_le_right (by linarith : (0 : ℚ) ≤ 10 * l.rounded places) power
  linarith

/-- The number of the digits kept, with the point moved, is within half a unit of the literal's, and
no integer is between the two where it is the smaller one. -/
theorem near_of_keeps
    (h : l.Keeps places) (hhigh : l.shift ≤ 28)
    (hfits : (l.rounded places / 10 ^ places * 10 ^ l.shift : ℚ) < 2 ^ 96) :
  (l.rounded places / 10 ^ places * 10 ^ l.shift : ℚ) ≤ l.mantissa * 10 ^ l.shift + 1 / 2 ∧
    l.mantissa * 10 ^ l.shift < 2 ^ 96 ∧
    ⌊l.mantissa * 10 ^ l.shift⌋₊ ≤ ⌊(l.rounded places / 10 ^ places * 10 ^ l.shift : ℚ)⌋₊
  := by
  rcases exact_or_shift_le h hhigh hfits with hexact | hle
  · have same : (l.rounded places / 10 ^ places * 10 ^ l.shift : ℚ) =
        l.mantissa * 10 ^ l.shift := by
      rw [hexact]
      field_simp
    rw [same] at hfits ⊢
    exact ⟨by linarith, hfits, Nat.le_refl _⟩
  · obtain ⟨scale, hscale⟩ : ∃ scale : ℕ, (places : ℤ) = l.shift + scale :=
      ⟨(places - l.shift).toNat, by omega⟩
    -- both numbers are read off the places kept, where they are half a unit apart at most
    have power : (10 : ℚ) ^ places = 10 ^ l.shift * 10 ^ scale := by
      rw [← zpow_natCast, hscale, zpow_add₀ (by norm_num), zpow_natCast]
    have moved : (l.rounded places / 10 ^ places * 10 ^ l.shift : ℚ) =
        l.rounded places / 10 ^ scale := by
      rw [power]
      field_simp
    have units : l.mantissa * 10 ^ places = l.mantissa * 10 ^ l.shift * 10 ^ scale := by
      rw [power]
      ring
    have nonneg : 0 ≤ l.mantissa * 10 ^ l.shift := mul_nonneg l.mantissa_nonneg (by positivity)
    have unit : (1 : ℚ) ≤ 10 ^ scale := one_le_pow₀ (by norm_num)
    have digits : (l.rounded places : ℚ) + 1 ≤ 2 ^ 96 := by exact_mod_cast h.1.2.2
    obtain ⟨hupper, hlower⟩ := l.rounded_near places
    rw [units] at hupper hlower
    have larger := le_mul_of_one_le_right nonneg unit
    rw [moved]
    refine ⟨?_, by linarith, ?_⟩
    · rw [div_le_iff₀ (by positivity), add_mul]
      linarith
    · apply Nat.le_floor
      rw [le_div_iff₀ (by positivity)]
      have floor := Nat.floor_le nonneg
      have whole : ⌊l.mantissa * 10 ^ l.shift⌋₊ * 10 ^ scale ≤ l.rounded places := by
        apply Nat.le_floor
        rw [units]
        push_cast
        have product := mul_le_mul_of_nonneg_right floor (by positivity : (0 : ℚ) ≤ 10 ^ scale)
        linarith
      exact_mod_cast whole

end Literal

namespace Number

variable {s : String} {l : Literal} {places : ℕ}

/-- What is read is the integer part of the literal's number, or an integer within half a unit of
it; and that number is within the limit. -/
theorem near_of_readInteger
    {target : String} {i : ℤ} (hs : Literal.ofString? s = some l) (hl : l.WellFormed)
    (h : readInteger s target = .ok i) :
  (integerPart l.number).natAbs < 2 ^ 96 ∧
    (i = integerPart l.number ∨ |(i : ℚ) - l.number| ≤ 1 / 2)
  := by
  obtain ⟨places, hplaces, hlow, hhigh⟩ := exists_keeps_of_readInteger hs hl h
  have near := l.near_of_keeps hplaces hhigh
  have hnumber : 0 ≤ l.mantissa * 10 ^ l.shift := mul_nonneg l.mantissa_nonneg (by positivity)
  have hkept : (0 : ℚ) ≤ l.rounded places / 10 ^ places * 10 ^ l.shift := by positivity
  rw [readInteger_of_keeps hs hl hplaces hlow hhigh] at h
  generalize (l.rounded places / 10 ^ places * 10 ^ l.shift : ℚ) = kept at near hkept h
  rw [Literal.natAbs_integerPart_withSign hkept, Literal.integerPart_withSign hkept] at h
  split at h
  next hfits =>
    obtain ⟨hupper, hlimit, hfloor⟩ := near (by exact_mod_cast (Nat.floor_lt hkept).mp hfits)
    rw [Literal.number, Literal.natAbs_integerPart_withSign hnumber,
      Literal.integerPart_withSign hnumber, Literal.withSign]
    generalize l.mantissa * 10 ^ l.shift = number at hnumber hupper hlimit hfloor
    refine ⟨(Nat.floor_lt hnumber).mpr (by exact_mod_cast hlimit), ?_⟩
    rcases Nat.eq_or_lt_of_le hfloor with hsame | hcarried
    · left
      rw [hsame]
      exact (Except.ok.inj h).symm
    · right
      have below := (Nat.floor_lt hnumber).mp hcarried
      have above := Nat.floor_le hkept
      have distance : |(⌊kept⌋₊ : ℚ) - number| ≤ 1 / 2 := by
        rw [abs_le]
        constructor <;> linarith
      obtain rfl := Except.ok.inj h
      split
      · rw [Int.cast_neg, Int.cast_natCast, neg_sub_neg, abs_sub_comm]
        exact distance
      · rw [Int.cast_natCast]
        exact distance
  next => cases h

/-- Digits that fit are all kept, as they are. -/
theorem keeps_length_fraction
    (hlength : l.fraction.length ≤ 28) (hfits : l.significand < 2 ^ 96) :
  l.Keeps l.fraction.length
  := by
  have digits : l.rounded l.fraction.length = l.significand := by
    rw [Literal.rounded_eq_roundOff (Nat.le_refl _), Nat.sub_self, Decimal.roundOff_zero,
      Literal.significand, Digits.longValue_eq]
  exact ⟨⟨hlength, Nat.le_refl _, digits ▸ hfits⟩, fun _ hplaces => hplaces.2.1⟩

/-- A literal is read as the integer part of its number, but for the digits behind the point that
are rounded away before, and overflows from `2 ^ 96` on.  Where an exponent leaves the point in
range, this is said of the digits kept. -/
theorem readInteger_rounded
    {s : String} {l : Literal} (hs : Literal.ofString? s = some l) (target : String) :
  (l.WellFormed ∧ s.toList = l.write) ∧
  (2 ^ 96 ≤ (integerPart l.number).natAbs → readInteger s target = .error (.overflow s target)) ∧
  (∀ i, readInteger s target = .ok i →
    i = integerPart l.number ∨ |(i : ℚ) - l.number| ≤ 1 / 2) ∧
  (∀ e, readInteger s target = .error e → e = .overflow s target) ∧
  (∀ places, l.Keeps places → (places : ℤ) - 28 ≤ l.shift → l.shift ≤ 28 →
    let i := integerPart (l.withSign (l.rounded places / 10 ^ places * 10 ^ l.shift))
    readInteger s target = if i.natAbs < 2 ^ 96 then .ok i else .error (.overflow s target)) ∧
  (l.fraction.length ≤ 28 → l.significand < 2 ^ 96 →
    (l.fraction.length : ℤ) - 28 ≤ l.shift → l.shift ≤ 28 →
    let i := integerPart l.number
    readInteger s target = if i.natAbs < 2 ^ 96 then .ok i else .error (.overflow s target)) ∧
  ((∀ places, ¬ l.Keeps places) → 0 ≤ l.shift →
    readInteger s target = .error (.overflow s target))
  := by
  obtain ⟨hl, htext⟩ := Literal.ofChars?_eq_some_iff.mp hs
  have kept (places : ℕ) (h : l.Keeps places) (hlow : (places : ℤ) - 28 ≤ l.shift)
      (hhigh : l.shift ≤ 28) := readInteger_of_keeps hs hl h hlow hhigh target
  refine ⟨⟨hl, htext⟩, ?_, ?_, ?_, kept, ?_, ?_⟩
  · intro hlarge
    cases hread : readInteger s target with
    | ok i =>
      have small := (near_of_readInteger hs hl hread).1
      exact absurd hlarge (Nat.not_le.mpr small)
    | error e => rw [eq_overflow_of_readInteger hs hread]
  · intro i hread
    exact (near_of_readInteger hs hl hread).2
  · intro e hread
    exact eq_overflow_of_readInteger hs hread
  · intro hlength hfits hlow hhigh
    have all := kept _ (keeps_length_fraction hlength hfits) hlow hhigh
    have exact : (l.rounded l.fraction.length / 10 ^ l.fraction.length : ℚ) = l.mantissa := by
      rw [l.rounded_length_fraction]
      field_simp
    rw [exact] at all
    exact all
  · intro hnone _
    apply readInteger_of_le_rounded hs hl
    by_contra hsmall
    obtain ⟨places, hplaces⟩ := Literal.exists_keeps (Nat.lt_of_not_le hsmall)
    exact hnone places hplaces

/-- The exponent moves the point before the number is cut off at it. -/
theorem readInteger_rounded_exponent :
  Literal.ofString? "-1.25e1" =
      some ⟨some '-', ['1'], true, ['2', '5'], some ⟨'e', none, ['1']⟩⟩ ∧
    readInteger "-1.25e1" "int" = .ok (-12)
  := by
  have hs : Literal.ofString? "-1.25e1" =
      some ⟨some '-', ['1'], true, ['2', '5'], some ⟨'e', none, ['1']⟩⟩ := by decide
  have exact := (readInteger_rounded hs "int").2.2.2.2.2.1 (by decide) (by decide) (by decide)
    (by decide)
  have number : Literal.number ⟨some '-', ['1'], true, ['2', '5'], some ⟨'e', none, ['1']⟩⟩ =
      -((125 : ℕ) / 10 ^ 2 * 10 ^ (1 : ℤ)) := rfl
  have part : integerPart (-((125 : ℕ) / 10 ^ 2 * 10 ^ (1 : ℤ))) = -12 := by
    rw [integerPart]
    norm_num
  rw [number, part] at exact
  exact ⟨hs, exact⟩

/-- One nine more than the greatest scale is rounded away, and carries to the next integer. -/
theorem readInteger_nines :
  ∃ l, Literal.ofString? "0.99999999999999999999999999999" = some l ∧
    integerPart l.number = 0 ∧
    readInteger "0.99999999999999999999999999999" "int" = .ok 1
  := by
  have hs : Literal.ofString? "0.99999999999999999999999999999" =
      some ⟨none, ['0'], true, List.replicate 29 '9', none⟩ := by decide
  have number : Literal.number ⟨none, ['0'], true, List.replicate 29 '9', none⟩ =
      (10 ^ 29 - 1 : ℕ) / 10 ^ 29 * 10 ^ (0 : ℤ) := rfl
  refine ⟨_, hs, ?_, by decide⟩
  rw [number, integerPart]
  norm_num

end Number

end SqlWire
