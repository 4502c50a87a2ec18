import Mathlib.Data.List.Induction
import Mathlib.Tactic.Ring
import SqlWire.BitField
import SqlWire.Proofs.Bytes

/-!
# Bit fields and their numbers

The bits of a field make the number that its bytes make, most significant first.  The literal of a
field shows that number in base two, `BitField.literal_eq`; the number that the field is read as is
what that number leaves in 64 bits, `BitField.toNat_value`.
-/

namespace SqlWire.BitField

/-- The number that bits make, most significant first. -/
def number (bits : List Bool) : Nat :=
  bits.foldl (fun n b => 2 * n + b.toNat) 0

theorem number_concat
    (bits : List Bool) (b : Bool) :
  number (bits ++ [b]) = 2 * number bits + b.toNat
  :=
  List.foldl_append

/-- Bits in front count by the width of those behind them. -/
theorem number_append
    (front back : List Bool) :
  number (front ++ back) = number front * 2 ^ back.length + number back
  := by
  induction back using List.reverseRecOn with
  | nil => simp [number]
  | append_singleton back b ih =>
    rw [← List.append_assoc, number_concat, number_concat, ih, List.length_append,
      List.length_singleton]
    ring

/-! ### Digits -/

/-- One more bit is one more digit. -/
theorem toDigits_concat
    {n : Nat} (hn : 0 < n) (b : Bool) :
  Nat.toDigits 2 (2 * n + b.toNat) = Nat.toDigits 2 n ++ [bitDigit b]
  := by
  have last : Nat.toDigits 2 b.toNat = [bitDigit b] := by
    cases b <;> rfl
  rw [← Nat.toDigits_append_toDigits (by decide) hn b.toNat_lt, last]

/-- The bits from the first one that is set are the digits of their number. -/
theorem map_bitDigit_dropWhile
    (bits : List Bool) :
  (bits.dropWhile (! ·)).map bitDigit =
    if number bits = 0 then [] else Nat.toDigits 2 (number bits)
  := by
  induction bits using List.reverseRecOn with
  | nil => rfl
  | append_singleton bits b ih =>
    rw [List.dropWhile_append, number_concat]
    by_cases hzero : number bits = 0
    · rw [if_pos hzero, List.map_eq_nil_iff] at ih
      rw [ih, hzero]
      cases b <;> rfl
    · rw [if_neg hzero] at ih
      have started : bits.dropWhile (! ·) ≠ [] := by
        rintro hnone
        rw [hnone] at ih
        exact absurd ih.symm Nat.toDigits_ne_nil
      rw [if_neg (by simpa using started), List.map_append, ih, if_neg (by omega),
        toDigits_concat (Nat.pos_of_ne_zero hzero)]
      rfl

/-! ### Bytes -/

theorem number_byteBits
    (b : UInt8) :
  number (byteBits b) = b.toNat
  := by
  have all : ∀ n < 256, number ([7, 6, 5, 4, 3, 2, 1, 0].map n.testBit) = n := by decide +kernel
  exact all b.toNat b.toNat_lt

/-- The bits of a field make the number that its bytes make. -/
theorem number_bits
    (bs : Bytes) :
  number (bits bs) = bs.bigEndian
  := by
  induction bs using List.reverseRecOn with
  | nil => rfl
  | append_singleton bs b ih =>
    have last : bits (bs ++ [b]) = bits bs ++ byteBits b := by simp [bits]
    have width : (byteBits b).length = 8 := rfl
    rw [last, number_append, ih, number_byteBits, width, Bytes.bigEndian_concat]
    omega

/-- The number of a field is what its bytes leave in 64 bits. -/
theorem toNat_value
    (bs : Bytes) :
  (value bs).toNat = bs.bigEndian % 2 ^ 64
  := by
  induction bs using List.reverseRecOn with
  | nil => rfl
  | append_singleton bs b ih =>
    have shifted : value (bs ++ [b]) = value bs * 256 + b.toUInt64 := List.foldl_append
    have width : (256 : UInt64).toNat = 256 := rfl
    rw [shifted, UInt64.toNat_add, UInt64.toNat_mul, ih, UInt8.toNat_toUInt64, width,
      Bytes.bigEndian_concat]
    omega

/-- The literal of a field shows its number in base two, and nothing for zero. -/
theorem literal_eq
    (bs : Bytes) :
  literal bs =
    "b'" ++ (if bs.bigEndian = 0 then "" else String.ofList (Nat.toDigits 2 bs.bigEndian)) ++ "'"
  := by
  rw [literal, map_bitDigit_dropWhile, number_bits]
  split <;> rfl

end SqlWire.BitField
