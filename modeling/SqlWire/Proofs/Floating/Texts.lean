import Mathlib.Data.List.DropRight
import SqlWire.Floating.Reading
import SqlWire.Proofs.Floating.Shortest
import SqlWire.Proofs.Number.Literal
import SqlWire.Proofs.Text.Digits

/-!
# Floating-point numbers are read back from their texts

The digits on the two sides of the point in a positional writing denote the decimal that was
written, `Shortest.exists_positional`.  So the text of a finite number is a literal, and it is read
back as that number, bit for bit, `Double.ofText?_toText`.
-/

namespace SqlWire

open Digits

namespace Shortest

/-! ### Digits around a point -/

/-- The digits on the two sides of a point denote a number; there are some in front of it. -/
structure Denotes (whole part : List Char) (x : ℚ) : Prop where
  ne_nil : whole ≠ []
  digits : ∀ c ∈ whole ++ part, isDigit c
  number : (value (whole ++ part) / 10 ^ part.length : ℚ) = x

theorem denotes_ofNat
    (n : ℕ) :
  Denotes (ofNat n) [] n
  := by
  have filled : fill 0 (ofNat n) = ofNat n := by rw [fill, Nat.zero_sub]; rfl
  obtain ⟨hne, hdigits⟩ := isNumber_iff.mp (isNumber_fill_ofNat 0 n)
  rw [filled] at hne hdigits
  refine ⟨hne, ?_, ?_⟩
  · rwa [List.append_nil]
  · rw [List.append_nil, value_ofNat, List.length_nil, pow_zero, div_one]

/-- The zeros at its end are dropped from a run of digits. -/
theorem exists_append_zeros
    (ds : List Char) :
  ∃ z, (ds.reverse.dropWhile (· == '0')).reverse ++ List.replicate z '0' = ds
  := by
  have zeros : ∀ c ∈ ds.rtakeWhile (· == '0'), c = '0' :=
    fun c hc => beq_iff_eq.mp (List.mem_rtakeWhile_imp (p := (· == '0')) hc)
  have split := List.rdropWhile_append_rtakeWhile (l := ds) (p := (· == '0'))
  rw [List.eq_replicate_of_mem zeros] at split
  exact ⟨_, split⟩

/-- A point among digits divides by a power of ten, and the zeros behind it do not count. -/
theorem denotes_pointed
    {ds : List Char} (h : ∀ c ∈ ds, isDigit c) {k : ℕ} (hk : k < ds.length) :
  Denotes (ds.take (ds.length - k))
    ((ds.drop (ds.length - k)).reverse.dropWhile (· == '0')).reverse (value ds / 10 ^ k)
  := by
  obtain ⟨z, hz⟩ := exists_append_zeros (ds.drop (ds.length - k))
  have split := ds.take_append_drop (ds.length - k)
  have length := congrArg List.length hz
  generalize ((ds.drop (ds.length - k)).reverse.dropWhile (· == '0')).reverse = part
    at hz length ⊢
  rw [← hz, ← List.append_assoc] at split
  rw [List.length_append, List.length_replicate, List.length_drop,
    Nat.sub_sub_self hk.le] at length
  refine ⟨?_, ?_, ?_⟩
  · rw [← List.length_pos_iff, List.length_take]
    omega
  · intro c hc
    apply h
    rw [← split]
    exact List.mem_append_left _ hc
  · have number : value ds = value (ds.take (ds.length - k) ++ part) * 10 ^ z := by
      conv_lhs => rw [← split]
      rw [value_append, value_replicate_zero, List.length_replicate, Nat.add_zero]
    rw [number, ← length, pow_add, Nat.cast_mul, Nat.cast_pow, Nat.cast_ofNat,
      mul_div_mul_right _ _ (by positivity)]

/-- The positional writing of a decimal has digits that denote it, and a point if there are any
behind it. -/
theorem exists_positional
    (n : ℕ) (places : ℤ) :
  ∃ whole part, Denotes whole part (n * 10 ^ (-places)) ∧
    positional n places = whole ++ (if part.isEmpty then [] else '.' :: part)
  := by
  have decimal := Number.mul_ten_zpow n (-places)
  rw [neg_neg] at decimal
  rw [decimal, positional]
  split
  next hwhole =>
    refine ⟨ofNat (n * 10 ^ (-places).toNat), [], ?_, (List.append_nil _).symm⟩
    rw [Int.toNat_of_nonpos hwhole, pow_zero, Nat.cast_one, div_one]
    apply denotes_ofNat
  next hfraction =>
    have length : places.toNat < (fill (places.toNat + 1) (ofNat n)).length := by
      rw [length_fill]
      omega
    have denotes := denotes_pointed (fun _ => isDigit_of_mem_fill_ofNat) length
    rw [value_fill_ofNat] at denotes
    have none : (-places).toNat = 0 := by omega
    rw [none, pow_zero, mul_one, Nat.cast_pow, Nat.cast_ofNat]
    refine ⟨_, _, denotes, ?_⟩
    simp only
    split
    · rw [List.append_nil]
    · rfl

/-! ### Literals -/

/-- The literal of a positional writing. -/
def literal (negative : Bool) (whole part : List Char) : Literal :=
  ⟨if negative then some '-' else none, whole, !part.isEmpty, part, none⟩

theorem write_literal
    (negative : Bool) (whole part : List Char) :
  (literal negative whole part).write =
    (if negative then ['-'] else []) ++ (whole ++ if part.isEmpty then [] else '.' :: part)
  := by
  cases negative <;> cases part <;> simp [literal, Literal.write]

variable {whole part : List Char} {x : ℚ}

theorem Denotes.wellFormed
    (h : Denotes whole part x) (negative : Bool) :
  (literal negative whole part).WellFormed
  := by
  refine ⟨?_, ?_, ?_, ?_, .inl h.ne_nil, nofun⟩
  · cases negative
    · nofun
    · rintro c ⟨⟩
      rfl
  · intro c hc
    exact h.digits c (List.mem_append_left _ hc)
  · intro c hc
    exact h.digits c (List.mem_append_right _ hc)
  · intro hpointed
    exact List.isEmpty_iff.mp ((Bool.not_eq_false' _).mp hpointed)

/-- The literal is read as the number nearest to the one that its digits make. -/
theorem ofLiteral_literal
    (negative : Bool) (whole part : List Char) :
  Double.ofLiteral (literal negative whole part) =
    .ofBits (Format.binary64.round negative (value (whole ++ part)) (10 ^ part.length))
  := by
  have sign : (literal negative whole part).isNegative = negative := by
    cases negative <;> rfl
  have power : (literal negative whole part).power = -(part.length : ℤ) := Int.zero_sub _
  have significand : (literal negative whole part).significand = value (whole ++ part) :=
    longValue_eq _
  have near : ¬ (-(part.length : ℤ) + (whole.length + part.length : ℕ) < -(Double.reach : ℤ)) := by
    omega
  have small : ¬ ((Double.reach : ℤ) < -(part.length : ℤ)) := by
    omega
  rw [Double.ofLiteral, sign, power, significand]
  simp only [Double.ofScaled, literal, near, or_false, if_neg small]
  split
  next hzero => rw [hzero, Format.round, if_pos rfl]
  next =>
    rw [neg_neg, Int.toNat_natCast, Int.toNat_of_nonpos (by omega), pow_zero, mul_one]

/-- The writing of a finite number is that of a literal of zero, or of its shortest decimal. -/
theorem exists_write_eq
    (f : Format) (negative : Bool) (m : ℕ) (e : ℤ) :
  ∃ whole part, Denotes whole part (decimal f m e) ∧
    (write f (.finite negative m e)).toList = (literal negative whole part).write
  := by
  rw [write, decimal]
  split
  next =>
    have zero := denotes_ofNat 0
    rw [Nat.cast_zero] at zero
    refine ⟨ofNat 0, [], zero, ?_⟩
    rw [write_literal, String.toList_ofList]
    rfl
  next =>
    obtain ⟨whole, part, hdenotes, htext⟩ := exists_positional (digits f m e).1 (digits f m e).2
    refine ⟨whole, part, hdenotes, ?_⟩
    rw [write_literal, ← htext, ← String.toList_ofList (l := _ ++ _)]

end Shortest

namespace Double

variable {x : Double}

/-- The text of a finite number is that of a literal whose digits are rounded to the number. -/
theorem exists_toText_eq
    (hx : x.isFinite) :
  ∃ negative whole part r, Shortest.Denotes whole part r ∧
    x.toText.toList = (Shortest.literal negative whole part).write ∧
    Format.binary64.round negative (value (whole ++ part)) (10 ^ part.length) = x.bits.toNat
  := by
  cases hdatum : x.datum with
  | nan | infinite =>
    rw [isFinite, hdatum] at hx
    cases hx
  | finite negative m e =>
    obtain ⟨whole, part, hdenotes, htext⟩ := Shortest.exists_write_eq .binary64 negative m e
    rw [← hdatum] at htext
    refine ⟨negative, whole, part, _, hdenotes, htext, ?_⟩
    apply Format.round_decimal (by decide) x.bits.toNat_lt hdatum (by positivity)
    exact_mod_cast hdenotes.number

/-- A finite number is read back from its text. -/
theorem ofText?_toText
    (hx : x.isFinite) :
  ofText? x.toText = some x
  := by
  obtain ⟨negative, whole, part, r, hdenotes, htext, hround⟩ := exists_toText_eq hx
  have literal : Literal.ofString? x.toText = some (Shortest.literal negative whole part) := by
    rw [Literal.ofString?, htext]
    exact Literal.ofChars?_write (hdenotes.wellFormed negative)
  rw [ofText?, literal]
  simp only
  rw [Shortest.ofLiteral_literal, hround, ofBits, UInt64.ofNat_toNat]

end Double

end SqlWire
