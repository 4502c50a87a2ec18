import Mathlib.Data.List.GetD
import SqlWire.Proofs.Auth.Secrecy

/-!
# What a server makes of a response

An exclusive or with a mask that is long enough is undone by the same mask.  So a server that keeps
the twice digested password takes its mask off a scramble, and digests what is left to compare it
with what it keeps; and the password that is hidden by the seed is read with the seed repeated:
`Scramble.verifiable`.
-/

namespace SqlWire

namespace Bytes

/-- The first `n` bytes of a byte string that is repeated over and over; zeros if it is empty. -/
def repeated (bs : Bytes) (n : Nat) : Bytes :=
  (List.range n).map fun i => bs.getD (i % bs.length) 0

theorem length_xor
    (as bs : Bytes) :
  (xor as bs).length = min as.length bs.length
  :=
  List.length_zipWith

/-- A mask undoes what it did. -/
theorem xor_xor_cancel
    {as mask : Bytes} (h : as.length ≤ mask.length) :
  xor (xor as mask) mask = as
  := by
  induction as generalizing mask with
  | nil => rfl
  | cons a as ih =>
    cases mask with
    | nil => cases h
    | cons m mask =>
      have rest := ih (Nat.le_of_succ_le_succ h)
      rw [xor, xor] at rest ⊢
      rw [List.zipWith_cons_cons, List.zipWith_cons_cons, rest, UInt8.xor_assoc, UInt8.xor_self,
        UInt8.xor_zero]

/-- The bytes with those of a mask from some position on, which begins anew wherever it ends. -/
theorem xorFrom_drop
    (whole bs : Bytes) {k : Nat} (hk : k ≤ whole.length) :
  xorFrom whole (whole.drop k) bs =
    xor bs ((List.range bs.length).map fun i => whole.getD ((k + i) % whole.length) 0)
  := by
  -- On the bytes: the position moves on with each of them, from the end of the mask to its start.
  induction bs generalizing k with
  | nil => cases whole.drop k <;> rfl
  | cons b bs ih =>
    have step (f : Nat → UInt8) : xor (b :: bs) ((List.range (b :: bs).length).map f) =
        (b ^^^ f 0) :: xor bs ((List.range bs.length).map fun i => f (i + 1)) := by
      rw [List.length_cons, List.range_succ_eq_map, List.map_cons, List.map_map]
      rfl
    rw [step]
    rcases Nat.lt_or_eq_of_le hk with hlt | rfl
    · rw [List.drop_eq_getElem_cons hlt, xorFrom, @ih (k + 1) hlt, Nat.add_zero k,
        Nat.mod_eq_of_lt hlt, List.getD_eq_getElem _ _ hlt]
      simp only [Nat.add_assoc, Nat.add_comm 1]
    · cases whole with
      | nil =>
        have unmasked : xorFrom [] [] bs = bs := by cases bs <;> rfl
        have rest := ih (Nat.le_refl _)
        rw [List.drop_nil, unmasked] at rest
        simp only [List.getD_nil] at rest ⊢
        rw [← rest, UInt8.xor_zero]
        rfl
      | cons m mask =>
        have again := @ih 1 (Nat.succ_pos _)
        rw [List.drop_length, xorFrom, Nat.add_zero, Nat.mod_self]
        simp only [Nat.add_mod_left, Nat.add_comm _ 1]
        rw [← again]
        rfl

theorem xorCyclic_eq
    (mask bs : Bytes) :
  xorCyclic mask bs = xor bs (repeated mask bs.length)
  := by
  have whole := xorFrom_drop mask bs (Nat.zero_le _)
  simp only [Nat.zero_add] at whole
  exact whole

end Bytes

namespace Scramble

/-- What a server can tell from a response of the client to its seed: a scramble of a password has
the length of a digest, and without its mask it is the digest whose digest the server keeps; and the
password that is masked with the seed is read with the seed repeated, or as it is if there is no
seed. -/
theorem verifiable
    (password seed : Bytes) :
  (password ≠ [] →
    (sha1 password seed).length = 20 ∧
    Sha1.digest
        (Bytes.xor (sha1 password seed)
          (Sha1.digest (seed ++ Sha1.digest (Sha1.digest password)))) =
      Sha1.digest (Sha1.digest password)) ∧
  (password ≠ [] →
    (sha256 password seed).length = 32 ∧
    Sha256.digest
        (Bytes.xor (sha256 password seed)
          (Sha256.digest (Sha256.digest (Sha256.digest password) ++ seed))) =
      Sha256.digest (Sha256.digest password)) ∧
  Bytes.xor (masked password seed) (Bytes.repeated seed (masked password seed).length) =
    password ++ [0] ∧
  (seed = [] → masked password seed = password ++ [0])
  := by
  refine ⟨fun hpassword => ?_, fun hpassword => ?_, ?_, ?_⟩
  · have some : password.isEmpty = false := List.isEmpty_eq_false_iff.mpr hpassword
    simp only [sha1, some, Bool.false_eq_true, if_false]
    constructor
    · rw [Bytes.length_xor, Sha1.length_digest, Sha1.length_digest, Nat.min_self]
    · rw [Bytes.xor_xor_cancel (by rw [Sha1.length_digest, Sha1.length_digest])]
  · have some : password.isEmpty = false := List.isEmpty_eq_false_iff.mpr hpassword
    simp only [sha256, some, Bool.false_eq_true, if_false]
    constructor
    · rw [Bytes.length_xor, Sha256.length_digest, Sha256.length_digest, Nat.min_self]
    · rw [Bytes.xor_xor_cancel (by rw [Sha256.length_digest, Sha256.length_digest])]
  · rw [length_masked, masked, Bytes.xorCyclic_eq, List.length_append, List.length_singleton]
    apply Bytes.xor_xor_cancel
    simp [Bytes.repeated]
  · rintro rfl
    cases password <;> rfl

/-- The scrambles of a password of one byte. -/
theorem verifiable_single :
  let password : Bytes := [0x61]
  let seed : Bytes := [0x01, 0x02]
  let kept := Sha1.digest (Sha1.digest password)
  let kept' := Sha256.digest (Sha256.digest password)
  (password ≠ [] ∧ (sha1 password seed).length = 20 ∧
    Sha1.digest (Bytes.xor (sha1 password seed) (Sha1.digest (seed ++ kept))) = kept) ∧
  (password ≠ [] ∧ (sha256 password seed).length = 32 ∧
    Sha256.digest (Bytes.xor (sha256 password seed) (Sha256.digest (kept' ++ seed))) = kept') ∧
  Bytes.xor (masked password seed) [0x01, 0x02] = [0x61, 0x00] ∧ masked password [] = [0x61, 0x00]
  := by
  intro password seed kept kept'
  have some : password ≠ [] := List.cons_ne_nil _ _
  obtain ⟨hsha1, hsha256, hmasked, -⟩ := verifiable password seed
  obtain ⟨-, -, -, hbare⟩ := verifiable password []
  exact ⟨⟨some, hsha1 some⟩, ⟨some, hsha256 some⟩, hmasked, hbare rfl⟩

end Scramble

end SqlWire
