import SqlWire.Proofs.Reading
import SqlWire.Proofs.Text.Utf8

/-!
# Items are read back

What the layouts write, the readers of payloads read as what it was written from: numbers with and
without a sign, floating-point numbers bit for bit, texts, runs up to a NUL, and lengths and the
bytes behind them.
-/

namespace SqlWire.Reader

/-! ### Numbers -/

theorem reads_uint_of_lt
    {w n : Nat} (h : n < 256 ^ w) :
  (uint w).Reads (Bytes.ofNatLE w n) n
  := by
  have read := reads_uint w n
  rw [Nat.mod_eq_of_lt h] at read
  apply read

theorem reads_sint
    {w : Nat} {i : Int} (hlow : -(256 ^ w : Nat) ≤ 2 * i) (hhigh : 2 * i < (256 ^ w : Nat)) :
  (sint w).Reads (Bytes.ofIntLE w i) i
  := by
  have read := (reads_uint_of_length (Bytes.length_ofIntLE w i)).map (Bytes.signed w)
  rw [Bytes.signed_ofIntLE hlow hhigh] at read
  apply read

theorem reads_double
    (x : Double) :
  double.Reads (Layout.double x) x
  := by
  have read := (reads_uint_of_lt (w := 8) x.bits.toNat_lt).map Double.ofBits
  rw [Double.ofBits, UInt64.ofNat_toNat] at read
  apply read

theorem reads_single
    (x : Single) :
  single.Reads (Layout.single x) x
  := by
  have read := (reads_uint_of_lt (w := 4) x.bits.toNat_lt).map Single.ofBits
  rw [Single.ofBits, UInt32.ofNat_toNat] at read
  apply read

/-! ### Texts -/

theorem reads_text
    (s : String) :
  (text (Utf8.encode s).length).Reads (Utf8.encode s) s
  := by
  have whole : (bytes (Utf8.encode s).length).Reads (Utf8.encode s) (Utf8.encode s) :=
    reads_bytes rfl
  have read := whole.map Utf8.decode
  rw [Utf8.decode_encode] at read
  apply read

theorem reads_untilNul
    {bs : Bytes} (h : 0 ∉ bs) :
  untilNul.Reads (Layout.nulTerminated bs) bs
  := by
  intro position rest
  have others : ∀ b ∈ bs, (b != 0) = true := by
    intro b hb
    apply bne_iff_ne.mpr
    rintro rfl
    exact h hb
  have run : (Layout.nulTerminated bs ++ rest).takeWhile (· != 0) = bs := by
    rw [Layout.nulTerminated, List.append_assoc, List.takeWhile_append_of_pos others,
      List.singleton_append, List.takeWhile_cons_of_neg (by simp), List.append_nil]
  have behind : (Layout.nulTerminated bs ++ rest).drop bs.length = 0 :: rest := by
    rw [Layout.nulTerminated, List.append_assoc, List.drop_left, List.singleton_append]
  simp only [untilNul, run, behind]
  rw [Layout.nulTerminated, List.length_append, List.length_singleton, Nat.add_assoc]

/-! ### Lengths, and bytes behind them -/

/-- A number that has eight bytes is read back from its length-encoded form. -/
theorem reads_lengthEncoded
    {n : Nat} (h : n < 2 ^ 64) :
  lengthEncoded.Reads (Layout.lengthEncoded n) (some n)
  := by
  rw [Layout.lengthEncoded]
  split
  next small =>
    have toNat : (UInt8.ofNat n).toNat = n :=
      UInt8.toNat_ofNat_of_lt' (Nat.lt_trans small (by decide))
    generalize UInt8.ofNat n = b at toNat ⊢
    subst toNat
    apply (reads_byte b).bind_nil
    split
    next => contradiction
    next => contradiction
    next => contradiction
    next => contradiction
    next => exact reads_pure _
  split
  next =>
    apply (reads_byte 0xFC).bind ((reads_uint_of_lt (by omega)).map some)
  split
  next =>
    apply (reads_byte 0xFD).bind ((reads_uint_of_lt (by omega)).map some)
  next =>
    apply (reads_byte 0xFE).bind ((reads_uint_of_lt h).map some)

theorem reads_lengthEncodedBytes
    {bs : Bytes} (h : bs.length < 2 ^ 64) :
  lengthEncodedBytes.Reads (Layout.lengthEncodedBytes bs) (some bs)
  :=
  (reads_lengthEncoded h).bind ((reads_bytes rfl).map some)

/-- The NULL marker in the place of a length. -/
theorem reads_lengthEncodedBytes_none :
  lengthEncodedBytes.Reads [0xFB] none
  := by
  intro position rest
  rfl

end SqlWire.Reader
