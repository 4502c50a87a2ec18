import SqlWire.Parameter
import SqlWire.Proofs.Reading
import SqlWire.Proofs.Text.Quoting
import SqlWire.Proofs.Text.Utf8

/-!
# Texts cut short

A text parameter may be cut short.  In a literal whole characters are left out, and what is sent is
a text again.  In a binary field bytes are left out, and the cut may fall inside a character: the
bytes left are those of a text exactly when it does not, and they are read as the longest beginning
of the text that they hold, with a replacement for the character cut: `Value.truncated_text`.
-/

namespace SqlWire

namespace Utf8

/-- The first characters, as many as have their bytes among `n`. -/
def fitting : Nat → List Char → List Char
  | _, [] => []
  | n, c :: cs =>
    if (encodeChar c).length ≤ n then c :: fitting (n - (encodeChar c).length) cs else []

/-- From between two characters, some of the bytes of a character, but not all, leave it
unfinished. -/
theorem exists_foldl_take_encodeChar
    {c : Char} {n : Nat} (hpos : 0 < n) (hlt : n < (encodeChar c).length) (read : List Char) :
  ∃ u, ((encodeChar c).take n).foldl step ⟨read, none⟩ = ⟨read, some u⟩
  := by
  have hvalid := toNat_valid c
  rw [encodeChar] at hlt ⊢
  generalize c.toNat = m at hvalid hlt ⊢
  rcases Nat.lt_or_ge m 0x80 with h₁ | h₁
  · rw [if_pos h₁, List.length_singleton] at hlt
    omega
  rw [if_neg (by omega)] at hlt ⊢
  rcases Nat.lt_or_ge m 0x800 with h₂ | h₂
  · rw [if_pos h₂] at hlt ⊢
    obtain rfl : n = 1 := Nat.le_antisymm (Nat.le_of_lt_succ hlt) hpos
    exact ⟨_, step_first_of_two h₁ h₂ read⟩
  rw [if_neg (by omega)] at hlt ⊢
  rcases Nat.lt_or_ge m 0x10000 with h₃ | h₃
  · have first := step_first_of_three h₂ h₃ read
    rw [if_pos h₃] at hlt ⊢
    obtain rfl | rfl : n = 1 ∨ n = 2 := by
      change n < 3 at hlt
      omega
    · exact ⟨_, first⟩
    · rw [List.take_succ_cons, List.take_succ_cons, List.take_zero, List.foldl_cons,
        List.foldl_cons, first, step_inner (by split <;> omega) (by split <;> omega) (by omega)]
      exact ⟨_, rfl⟩
  · have first := step_first_of_four h₃ (by omega) read
    rw [if_neg (by omega)] at hlt ⊢
    obtain rfl | rfl | rfl : n = 1 ∨ n = 2 ∨ n = 3 := by
      change n < 4 at hlt
      omega
    · exact ⟨_, first⟩
    · rw [List.take_succ_cons, List.take_succ_cons, List.take_zero, List.foldl_cons,
        List.foldl_cons, first, step_inner (by split <;> omega) (by split <;> omega) (by omega)]
      exact ⟨_, rfl⟩
    · rw [List.take_succ_cons, List.take_succ_cons, List.take_succ_cons, List.take_zero,
        List.foldl_cons, List.foldl_cons, List.foldl_cons, first,
        step_inner (by split <;> omega) (by split <;> omega) (by omega),
        step_inner (by omega) (by omega) (by omega)]
      exact ⟨_, rfl⟩

/-- From between two characters, the first bytes of characters are read as those that fit, and the
next character is unfinished unless the bytes are exactly those of the ones that fit. -/
theorem exists_foldl_take
    (n : Nat) (read cs : List Char) :
  ∃ unfinished, ((cs.flatMap encodeChar).take n).foldl step ⟨read, none⟩ =
      ⟨(fitting n cs).reverse ++ read, unfinished⟩ ∧
    (unfinished = none ↔
      (cs.flatMap encodeChar).take n = (fitting n cs).flatMap encodeChar)
  := by
  induction cs generalizing n read with
  | nil =>
    rw [fitting, List.flatMap_nil, List.take_nil]
    exact ⟨none, rfl, iff_of_true rfl rfl⟩
  | cons c cs ih =>
    rw [fitting, List.flatMap_cons]
    by_cases hfits : (encodeChar c).length ≤ n
    · obtain ⟨unfinished, hread, hwhole⟩ := ih (n - (encodeChar c).length) (c :: read)
      use unfinished
      rw [if_pos hfits, List.take_append, List.take_of_length_le hfits, List.foldl_append,
        foldl_encodeChar, hread, List.reverse_cons, List.append_assoc, List.flatMap_cons,
        List.append_cancel_left_eq]
      exact ⟨rfl, hwhole⟩
    · rw [if_neg hfits, List.take_append_of_le_length (by omega)]
      rcases Nat.eq_zero_or_pos n with rfl | hpos
      · exact ⟨none, rfl, iff_of_true rfl rfl⟩
      · obtain ⟨u, hu⟩ := exists_foldl_take_encodeChar hpos (Nat.lt_of_not_le hfits) read
        refine ⟨some u, hu, iff_of_false nofun ?_⟩
        intro hnil
        have length := congrArg List.length hnil
        rw [List.length_take, List.flatMap_nil, List.length_nil] at length
        omega

/-! ### The longest beginning that fits -/

/-- The text is the longest beginning of another that has its bytes among `n`. -/
structure IsLongestFitting (n : Nat) (s t : String) : Prop where
  beginning : t.toList <+: s.toList
  fits : (encode t).length ≤ n
  longest : ∀ u : String, u.toList <+: s.toList → (encode u).length ≤ n → u.toList <+: t.toList

theorem fitting_beginning
    (n : Nat) (cs : List Char) :
  fitting n cs <+: cs
  := by
  induction cs generalizing n with
  | nil => exact List.nil_prefix
  | cons c cs ih =>
    rw [fitting]
    split
    · exact List.cons_prefix_cons.mpr ⟨rfl, ih _⟩
    · exact List.nil_prefix

theorem length_fitting_le
    (n : Nat) (cs : List Char) :
  ((fitting n cs).flatMap encodeChar).length ≤ n
  := by
  induction cs generalizing n with
  | nil => exact Nat.zero_le n
  | cons c cs ih =>
    rw [fitting]
    split
    · have rest := ih (n - (encodeChar c).length)
      rw [List.flatMap_cons, List.length_append]
      omega
    · exact Nat.zero_le n

theorem fitting_longest
    {n : Nat} {cs ds : List Char} (hbeginning : ds <+: cs)
    (hfits : (ds.flatMap encodeChar).length ≤ n) :
  ds <+: fitting n cs
  := by
  induction cs generalizing n ds with
  | nil =>
    rw [List.prefix_nil.mp hbeginning]
    exact List.nil_prefix
  | cons c cs ih =>
    cases ds with
    | nil => exact List.nil_prefix
    | cons d ds =>
      obtain ⟨rfl, hrest⟩ := List.cons_prefix_cons.mp hbeginning
      rw [List.flatMap_cons, List.length_append] at hfits
      rw [fitting, if_pos (by omega)]
      exact List.cons_prefix_cons.mpr ⟨rfl, ih hrest (by omega)⟩

theorem isLongestFitting_fitting
    (n : Nat) (s : String) :
  IsLongestFitting n s (String.ofList (fitting n s.toList))
  where
  beginning := by
    rw [String.toList_ofList]
    apply fitting_beginning
  fits := by
    rw [encode, String.toList_ofList]
    apply length_fitting_le
  longest := by
    intro u hbeginning hfits
    rw [String.toList_ofList]
    apply fitting_longest hbeginning hfits

/-- The first bytes of a text are those of the longest beginning that they hold, and then perhaps
some of the next character, which are replaced when they are read; with these, they are the bytes of
no text. -/
theorem decode_take_encode
    (n : Nat) (s : String) :
  ∃ t, IsLongestFitting n s t ∧
    (WellFormed ((encode s).take n) ↔ (encode s).take n = encode t) ∧
    decode ((encode s).take n) =
      if (encode s).take n = encode t then t else t ++ String.singleton replacement
  := by
  obtain ⟨unfinished, hread, hwhole⟩ := exists_foldl_take n [] s.toList
  rw [← encode, List.append_nil] at hread
  have bytes : (fitting n s.toList).flatMap encodeChar =
      encode (String.ofList (fitting n s.toList)) := by
    rw [encode, String.toList_ofList]
  rw [← encode, bytes] at hwhole
  refine ⟨String.ofList (fitting n s.toList), isLongestFitting_fitting n s, ?_, ?_⟩
  · constructor
    · rintro ⟨t, ht⟩
      apply hwhole.mp
      rw [← ht, encode, foldl_flatMap_encodeChar] at hread
      exact (congrArg State.unfinished hread).symm
    · exact fun h => ⟨_, h.symm⟩
  · rw [decode, hread]
    by_cases h : (encode s).take n = encode (String.ofList (fitting n s.toList))
    · rw [if_pos h, hwhole.mpr h, State.finish, List.reverse_reverse]
    · cases unfinished with
      | none => exact absurd (hwhole.mp rfl) h
      | some u =>
        rw [if_neg h, State.finish, List.reverse_cons, List.reverse_reverse, ← String.toList_inj]
        simp

end Utf8

namespace Value

theorem truncated_eq_take
    {α : Type} (max : Option Nat) (as : List α) :
  truncated max as = as.take (max.getD as.length)
  := by
  cases max with
  | none => exact List.take_length.symm
  | some n => rfl

theorem truncated_beginning
    {α : Type} (max : Option Nat) (as : List α) :
  truncated max as <+: as
  := by
  rw [truncated_eq_take]
  apply List.take_prefix

theorem length_truncated_le
    {α : Type} {max : Option Nat} {n : Nat} (h : n ∈ max) (as : List α) :
  (truncated max as).length ≤ n
  := by
  obtain rfl := h
  apply List.length_take_le

/-- A text parameter that is cut short.  For every status of the server, the literal is scanned as
the bytes of a text, which are read as that text, and it is a beginning of the parameter with no
more characters than the limit says.  The binary field holds the first bytes, no more than the limit
says.  Either these are the longest beginning that they hold, and are read as it, or they are no
text, and are read as that beginning with a replacement behind it. -/
theorem truncated_text
    (s : String) (max : Option Nat) (status : UInt16) :
  (∃ out t,
    (text s).textBytesAs .text (.ofStatus status) max = .ok out ∧
    Quoted.scan (if status.toNat.testBit 9 then .quotesOnly else .backslash) out =
      some (Utf8.encode t, []) ∧
    (Reader.text (Utf8.encode t).length).run (Utf8.encode t) = .ok t ∧
    t.toList <+: s.toList ∧ ∀ n ∈ max, t.toList.length ≤ n) ∧
  let content := truncated max (Utf8.encode s)
  (text s).binaryBytesAs .text max = .ok (Layout.lengthEncodedBytes content) ∧
  content <+: Utf8.encode s ∧ (∀ n ∈ max, content.length ≤ n) ∧
  ∃ t, Utf8.IsLongestFitting (max.getD (Utf8.encode s).length) s t ∧
    (Utf8.WellFormed content ↔ content = Utf8.encode t) ∧
    (Reader.text content.length).run content =
      .ok (if content = Utf8.encode t then t else t ++ String.singleton Utf8.replacement)
  := by
  constructor
  · refine ⟨_, String.ofList (truncated max s.toList), rfl, ?_, ?_, ?_, ?_⟩
    · rw [← Quoted.Escaping.ofStatus_eq, ← List.append_nil (quoted _ _)]
      exact Quoted.scan_literal _ _ nofun
    · rw [Reader.run_text, Utf8.decode_encode]
    · rw [String.toList_ofList]
      apply truncated_beginning
    · intro n hn
      rw [String.toList_ofList]
      apply length_truncated_le hn
  · intro content
    refine ⟨rfl, truncated_beginning _ _, fun n hn => length_truncated_le hn _, ?_⟩
    obtain ⟨t, hlongest, hwhole, hdecoded⟩ :=
      Utf8.decode_take_encode (max.getD (Utf8.encode s).length) s
    rw [← truncated_eq_take] at hwhole hdecoded
    refine ⟨t, hlongest, hwhole, ?_⟩
    rw [Reader.run_text, hdecoded]

/-- The first of the two bytes of a character is no text, and what is read for it is no beginning of
the parameter. -/
theorem not_truncated_text :
  (text "é").binaryBytesAs .text (some 1) = .ok (Layout.lengthEncodedBytes [0xC3]) ∧
  ¬ Utf8.WellFormed [0xC3] ∧
  (Reader.text 1).run [0xC3] = .ok (String.singleton Utf8.replacement) ∧
  ¬ (String.singleton Utf8.replacement).toList <+: "é".toList
  := by
  have read : Utf8.decode [0xC3] = String.singleton Utf8.replacement := by decide +kernel
  refine ⟨by decide +kernel, ?_, ?_, by decide +kernel⟩
  · rintro ⟨t, ht⟩
    rw [← ht, Utf8.decode_encode] at read
    rw [read] at ht
    exact absurd ht (by decide +kernel)
  · exact congrArg Except.ok read

end Value

end SqlWire
