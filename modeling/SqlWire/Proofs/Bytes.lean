import SqlWire.Bytes

/-!
# Numbers and their bytes

The two ways between a number and its bytes are inverse to each other, in both orders of the bytes
and for numbers with a sign: bytes are determined by their number and their width.
-/

namespace SqlWire.Bytes

/-- A number below `256 ^ w` written in `w` bytes is read back. -/
theorem littleEndian_ofNatLE_of_lt
    {w n : Nat} (h : n < 256 ^ w) :
  littleEndian (ofNatLE w n) = n
  := by
  rw [littleEndian_ofNatLE, Nat.mod_eq_of_lt h]

/-- Bytes are the writing, in their width, of the number that they denote. -/
theorem ofNatLE_littleEndian
    (bs : Bytes) :
  ofNatLE bs.length (littleEndian bs) = bs
  := by
  induction bs with
  | nil => rfl
  | cons b bs ih =>
    have hb : b.toNat < 256 := b.toNat_lt
    have quotient : (b.toNat + 256 * littleEndian bs) / 256 = littleEndian bs := by omega
    have first : UInt8.ofNat (b.toNat + 256 * littleEndian bs) = b := by
      apply UInt8.toNat_inj.mp
      rw [UInt8.toNat_ofNat']
      omega
    rw [List.length_cons, ofNatLE, littleEndian, quotient, first, ih]

/-- Bytes denote a number exactly when they are its writing in their width. -/
theorem littleEndian_eq_iff
    {n : Nat} {bs : Bytes} :
  littleEndian bs = n ↔ n < 256 ^ bs.length ∧ bs = ofNatLE bs.length n
  := by
  constructor
  · rintro rfl
    exact ⟨littleEndian_lt bs, (ofNatLE_littleEndian bs).symm⟩
  · rintro ⟨hfits, hbytes⟩
    rw [hbytes]
    apply littleEndian_ofNatLE_of_lt hfits

/-- The bytes of a number are those of its residue. -/
theorem ofNatLE_congr
    {w m n : Nat} (h : m % 256 ^ w = n % 256 ^ w) :
  ofNatLE w m = ofNatLE w n
  := by
  have same : littleEndian (ofNatLE w m) = littleEndian (ofNatLE w n) := by
    rw [littleEndian_ofNatLE, littleEndian_ofNatLE, h]
  have hm := ofNatLE_littleEndian (ofNatLE w m)
  have hn := ofNatLE_littleEndian (ofNatLE w n)
  rw [length_ofNatLE] at hm hn
  rw [← hm, ← hn, same]

/-- One more byte is behind the others. -/
theorem ofNatLE_succ
    (w n : Nat) :
  ofNatLE (w + 1) n = ofNatLE w n ++ [UInt8.ofNat (n / 256 ^ w)]
  := by
  induction w generalizing n with
  | zero => rw [Nat.pow_zero, Nat.div_one]; rfl
  | succ w ih =>
    rw [ofNatLE, ih, ofNatLE, List.cons_append, Nat.div_div_eq_div_mul, ← Nat.pow_succ']

theorem bigEndian_concat
    (bs : Bytes) (b : UInt8) :
  bigEndian (bs ++ [b]) = 256 * bigEndian bs + b.toNat
  :=
  List.foldl_append

/-- The most significant byte comes last when the bytes are turned around. -/
theorem bigEndian_reverse
    (bs : Bytes) :
  bigEndian bs.reverse = littleEndian bs
  := by
  induction bs with
  | nil => rfl
  | cons b bs ih => rw [List.reverse_cons, bigEndian_concat, ih, littleEndian, Nat.add_comm]

/-- The two's complement of an integer in range is read back. -/
theorem signed_ofIntLE
    {w : Nat} {i : Int} (hlow : -(256 ^ w : Nat) ≤ 2 * i) (hhigh : 2 * i < (256 ^ w : Nat)) :
  signed w (littleEndian (ofIntLE w i)) = i
  := by
  have positive : 0 < 256 ^ w := Nat.pow_pos (by decide)
  have small : (i % (256 ^ w : Nat)).toNat < 256 ^ w := by
    have := Int.emod_lt_of_pos i (Int.natCast_pos.mpr positive)
    omega
  rw [ofIntLE, littleEndian_ofNatLE_of_lt small, signed]
  generalize 256 ^ w = m at *
  -- The residue is the integer itself, or one turn above it when the integer is negative.
  rcases Int.lt_or_le i 0 with negative | nonnegative
  · have residue : i % (m : Int) = i + m := by
      rw [← Int.add_emod_right, Int.emod_eq_of_lt (by omega) (by omega)]
    rw [residue]
    split <;> omega
  · have residue : i % (m : Int) = i := Int.emod_eq_of_lt nonnegative (by omega)
    rw [residue]
    split <;> omega

/-- The integer of a two's complement is that of its bits. -/
theorem signed_toNat
    {w : Nat} (n : BitVec (8 * w)) :
  signed w n.toNat = n.toInt
  := by
  have width : 2 ^ (8 * w) = 256 ^ w := Nat.pow_mul 2 8 w
  rw [signed, BitVec.toInt_eq_toNat_cond, width]

/-- A number without a sign. -/
theorem ofIntLE_of_nonneg
    {w : Nat} {i : Int} (hlow : 0 ≤ i) (hhigh : i < (256 ^ w : Nat)) :
  ofIntLE w i = ofNatLE w i.toNat
  := by
  rw [ofIntLE, Int.emod_eq_of_lt hlow hhigh]

/-- One more byte of a two's complement is behind the others. -/
theorem exists_ofIntLE_succ
    (w : Nat) (i : Int) :
  ∃ b, ofIntLE (w + 1) i = ofIntLE w i ++ [b]
  := by
  have natural (v : Nat) : ((i % (256 ^ v : Nat)).toNat : Int) = i % (256 ^ v : Nat) :=
    Int.toNat_of_nonneg (Int.emod_nonneg i (Int.natCast_ne_zero.mpr (NeZero.ne _)))
  have multiple : ((256 ^ w : Nat) : Int) ∣ (256 ^ (w + 1) : Nat) :=
    Int.natCast_dvd_natCast.mpr (Nat.pow_dvd_pow 256 w.le_succ)
  have residue : (i % (256 ^ (w + 1) : Nat)).toNat % 256 ^ w =
      (i % (256 ^ w : Nat)).toNat % 256 ^ w := by
    apply Int.ofNat_inj.mp
    rw [Int.natCast_emod, Int.natCast_emod, natural, natural, Int.emod_emod_of_dvd i multiple,
      Int.emod_emod]
  exact ⟨_, (ofNatLE_succ w _).trans (congrArg (· ++ _) (ofNatLE_congr residue))⟩

@[simp] theorem length_ofIntLE
    (w : Nat) (i : Int) :
  (ofIntLE w i).length = w
  :=
  length_ofNatLE _ _

end SqlWire.Bytes
