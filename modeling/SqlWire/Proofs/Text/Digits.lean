import Mathlib.Data.Nat.Digits.Defs
import SqlWire.Text.Digits

/-!
# Digits are read back

The digits of a number, however many zeros they are filled up with, are digits and denote it:
`Digits.value_fill_ofNat`.  A number that fits a width is written in just as many digits,
`Digits.length_fill_ofNat`, and the first of them denote it without the others,
`Digits.value_take_fill_ofNat`.
-/

namespace SqlWire.Digits

theorem value_ofNat
    (n : Nat) :
  value (ofNat n) = n
  :=
  Nat.ofDigitChars_ten_toDigits

theorem value_replicate_zero
    (n : Nat) :
  value (List.replicate n '0') = 0
  := by
  have zeros : value (List.replicate n '0') = 10 ^ n * 0 := Nat.ofDigitChars_replicate_zero
  rw [zeros, Nat.mul_zero]

/-- Zeros in front of a number do not count. -/
theorem value_fill
    (w : Nat) (ds : List Char) :
  value (fill w ds) = value ds
  := by
  rw [fill, value_append, value_replicate_zero, Nat.zero_mul, Nat.zero_add]

theorem isDigit_of_mem_ofNat
    {n : Nat} {c : Char} (hc : c ∈ ofNat n) :
  isDigit c
  :=
  Nat.isDigit_of_mem_toDigits (by decide) (by decide) hc

theorem isDigit_of_mem_fill
    {w : Nat} {ds : List Char} (hds : ∀ c ∈ ds, isDigit c) :
  ∀ c ∈ fill w ds, isDigit c
  := by
  intro c hc
  rcases List.mem_append.mp hc with hc | hc
  · rw [List.eq_of_mem_replicate hc]
    rfl
  · apply hds c hc

theorem length_fill
    (w : Nat) (ds : List Char) :
  (fill w ds).length = max w ds.length
  := by
  rw [fill, List.length_append, List.length_replicate]
  omega

/-! ### Numbers of a given width -/

theorem isDigit_of_mem_fill_ofNat
    {w n : Nat} {c : Char} (hc : c ∈ fill w (ofNat n)) :
  isDigit c
  :=
  isDigit_of_mem_fill (fun _ => isDigit_of_mem_ofNat) c hc

theorem value_fill_ofNat
    (w n : Nat) :
  value (fill w (ofNat n)) = n
  := by
  rw [value_fill, value_ofNat]

/-- A number that has no more digits than the width is written in just as many. -/
theorem length_fill_ofNat
    {w n : Nat} (hw : 0 < w) (hn : n < 10 ^ w) :
  (fill w (ofNat n)).length = w
  := by
  have fits : (ofNat n).length ≤ w := Nat.toDigits_length 10 n w hw hn
  rw [length_fill]
  omega

/-- The writing of a number starts with a digit. -/
theorem exists_fill_ofNat_eq_cons
    (w n : Nat) :
  ∃ c cs, fill w (ofNat n) = c :: cs ∧ isDigit c
  := by
  have some : 0 < (ofNat n).length := Nat.length_toDigits_pos
  cases hfill : fill w (ofNat n) with
  | nil =>
    have none := length_fill w (ofNat n)
    rw [hfill, List.length_nil] at none
    omega
  | cons c cs =>
    have hc : c ∈ fill w (ofNat n) := by
      rw [hfill]
      apply List.mem_cons_self
    exact ⟨c, cs, rfl, isDigit_of_mem_fill_ofNat hc⟩

/-- A number is a run of digits that is not empty. -/
theorem isNumber_iff
    {ds : List Char} :
  isNumber ds = true ↔ ds ≠ [] ∧ ∀ c ∈ ds, isDigit c
  := by
  rw [isNumber, Bool.and_eq_true, Bool.not_eq_true', List.isEmpty_eq_false_iff, List.all_eq_true]

theorem isNumber_fill_ofNat
    (w n : Nat) :
  isNumber (fill w (ofNat n)) = true
  := by
  obtain ⟨c, cs, hcons, -⟩ := exists_fill_ofNat_eq_cons w n
  apply isNumber_iff.mpr ⟨_, fun _ => isDigit_of_mem_fill_ofNat⟩
  rw [hcons]
  apply List.cons_ne_nil

/-! ### Digits among other characters -/

/-- A digit is one of the characters from 48 to 57. -/
theorem toNat_of_isDigit
    {c : Char} (h : isDigit c) :
  48 ≤ c.toNat ∧ c.toNat ≤ 57
  := by
  rw [isDigit, Bool.and_eq_true, decide_eq_true_iff, decide_eq_true_iff] at h
  exact h

theorem ne_of_isDigit
    {c c' : Char} (h : isDigit c) (h' : isDigit c' = false) :
  c ≠ c'
  := by
  rintro rfl
  rw [h] at h'
  cases h'

/-! ### Values of digits -/

theorem digitValue_le
    {c : Char} (h : isDigit c) :
  digitValue c ≤ 9
  := by
  obtain ⟨-, hhigh⟩ := toNat_of_isDigit h
  rw [digitValue]
  omega

theorem value_cons
    (c : Char) (ds : List Char) :
  value (c :: ds) = digitValue c * 10 ^ ds.length + value ds
  := by
  rw [value, List.foldl_cons, foldl_value, Nat.mul_zero, Nat.zero_add]

/-- A number of so many digits is below that power of ten. -/
theorem value_lt
    {ds : List Char} (h : ∀ c ∈ ds, isDigit c) :
  value ds < 10 ^ ds.length
  := by
  induction ds with
  | nil => exact Nat.one_pos
  | cons c ds ih =>
    rw [List.forall_mem_cons] at h
    have first := Nat.mul_le_mul_right (10 ^ ds.length) (digitValue_le h.1)
    have rest := ih h.2
    rw [value_cons, List.length_cons, Nat.pow_succ]
    omega

/-- The first digits of a run denote its number without the others. -/
theorem value_take
    {ds : List Char} (h : ∀ c ∈ ds, isDigit c) (k : Nat) :
  value (ds.take k) = value ds / 10 ^ (ds.length - k)
  := by
  have small : value (ds.drop k) < 10 ^ (ds.drop k).length :=
    value_lt fun c hc => h c (List.mem_of_mem_drop hc)
  have split := value_append (ds.take k) (ds.drop k)
  rw [List.take_append_drop, List.length_drop] at split
  rw [List.length_drop] at small
  have power : 0 < 10 ^ (ds.length - k) := Nat.pow_pos (by decide)
  rw [split, Nat.mul_comm, Nat.mul_add_div power, Nat.div_eq_of_lt small, Nat.add_zero]

/-- The first digits of a number of a given width. -/
theorem value_take_fill_ofNat
    {w n : Nat} (hw : 0 < w) (hn : n < 10 ^ w) (k : Nat) :
  value ((fill w (ofNat n)).take k) = n / 10 ^ (w - k)
  := by
  rw [value_take fun _ => isDigit_of_mem_fill_ofNat, value_fill_ofNat, length_fill_ofNat hw hn]

end SqlWire.Digits
