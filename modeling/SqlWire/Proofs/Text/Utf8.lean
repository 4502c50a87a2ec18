import SqlWire.Text.Utf8

/-!
# Text is read back from its bytes

The machine that decodes bytes, standing between two characters, reads the bytes of a character as
that character and stands between two characters again: `Utf8.foldl_encodeChar`.  So the bytes of a
text are decoded as the text, `Utf8.decode_encode`.  No other bytes are decoded as a text of ASCII
characters, `Utf8.encode_decode`, because bytes beyond ASCII leave a character beyond it.
-/

namespace SqlWire.Utf8

/-- A character is no surrogate, and no greater than the greatest one. -/
theorem toNat_valid
    (c : Char) :
  c.toNat < 0xD800 ∨ 0xDFFF < c.toNat ∧ c.toNat < 0x110000
  :=
  c.valid

theorem step_none
    {b : Nat} (hb : b < 256) (read : List Char) :
  step ⟨read, none⟩ (UInt8.ofNat b) = start read b
  := by
  rw [step, UInt8.toNat_ofNat_of_lt' hb]

/-- A byte within the bounds continues the unfinished character. -/
theorem step_some
    {u : Unfinished} {b : Nat} (hleast : u.least ≤ b) (hgreatest : b ≤ u.greatest) (hb : b < 256)
    (read : List Char) :
  step ⟨read, some u⟩ (UInt8.ofNat b) =
    if u.owed ≤ 1 then ⟨Char.ofNat (64 * u.value + (b - 0x80)) :: read, none⟩
    else ⟨read, some ⟨64 * u.value + (b - 0x80), u.owed - 1, 0x80, 0xBF⟩⟩
  := by
  rw [step, UInt8.toNat_ofNat_of_lt' hb]
  apply if_pos ⟨hleast, hgreatest⟩

/-- The last byte of a character. -/
theorem step_last
    {value least greatest n : Nat} (hleast : least ≤ 0x80 + n % 64)
    (hgreatest : 0x80 + n % 64 ≤ greatest) (hvalue : value = n / 64) (read : List Char) :
  step ⟨read, some ⟨value, 1, least, greatest⟩⟩ (UInt8.ofNat (0x80 + n % 64)) =
    ⟨Char.ofNat n :: read, none⟩
  := by
  have whole : 64 * value + (0x80 + n % 64 - 0x80) = n := by omega
  rw [step_some hleast hgreatest (by omega), if_pos (Nat.le_refl 1), whole]

/-- A byte of a character before its last. -/
theorem step_inner
    {value owed least greatest n : Nat} (hleast : least ≤ 0x80 + n % 64)
    (hgreatest : 0x80 + n % 64 ≤ greatest) (hvalue : value = n / 64) (read : List Char) :
  step ⟨read, some ⟨value, owed + 2, least, greatest⟩⟩ (UInt8.ofNat (0x80 + n % 64)) =
    ⟨read, some ⟨n, owed + 1, 0x80, 0xBF⟩⟩
  := by
  have whole : 64 * value + (0x80 + n % 64 - 0x80) = n := by omega
  rw [step_some hleast hgreatest (by omega), if_neg (by simp), whole]
  rfl

/-! The first byte of a character of two, three or four bytes: the bounds of the second byte are
those that surrogates and numbers out of range would leave. -/

theorem step_first_of_two
    {n : Nat} (hlow : 0x80 ≤ n) (hhigh : n < 0x800) (read : List Char) :
  step ⟨read, none⟩ (UInt8.ofNat (0xC0 + n / 64)) = ⟨read, some ⟨n / 64, 1, 0x80, 0xBF⟩⟩
  := by
  rw [step_none (by omega), start, if_neg (by omega), if_neg (by omega), if_pos (by omega),
    Nat.add_sub_cancel_left]

theorem step_first_of_three
    {n : Nat} (hlow : 0x800 ≤ n) (hhigh : n < 0x10000) (read : List Char) :
  step ⟨read, none⟩ (UInt8.ofNat (0xE0 + n / 4096)) =
    ⟨read, some ⟨n / 4096, 2, if 0xE0 + n / 4096 = 0xE0 then 0xA0 else 0x80,
      if 0xE0 + n / 4096 = 0xED then 0x9F else 0xBF⟩⟩
  := by
  rw [step_none (by omega), start, if_neg (by omega), if_neg (by omega), if_neg (by omega),
    if_pos (by omega), Nat.add_sub_cancel_left]

theorem step_first_of_four
    {n : Nat} (hlow : 0x10000 ≤ n) (hhigh : n < 0x110000) (read : List Char) :
  step ⟨read, none⟩ (UInt8.ofNat (0xF0 + n / 262144)) =
    ⟨read, some ⟨n / 262144, 3, if 0xF0 + n / 262144 = 0xF0 then 0x90 else 0x80,
      if 0xF0 + n / 262144 = 0xF4 then 0x8F else 0xBF⟩⟩
  := by
  rw [step_none (by omega), start, if_neg (by omega), if_neg (by omega), if_neg (by omega),
    if_neg (by omega), if_pos (by omega), Nat.add_sub_cancel_left]

/-- From between two characters, the bytes of a character are read as the character. -/
theorem foldl_encodeChar
    (read : List Char) (c : Char) :
  (encodeChar c).foldl step ⟨read, none⟩ = ⟨c :: read, none⟩
  := by
  have hvalid := toNat_valid c
  have hc : Char.ofNat c.toNat = c := Char.ofNat_toNat c
  rw [encodeChar]
  generalize c.toNat = n at hvalid hc ⊢
  rcases Nat.lt_or_ge n 0x80 with h₁ | h₁
  · rw [if_pos h₁, List.foldl_cons, step_none (by omega), start, if_pos h₁,
      List.foldl_nil, hc]
  rcases Nat.lt_or_ge n 0x800 with h₂ | h₂
  · rw [if_neg (by omega), if_pos h₂, List.foldl_cons, List.foldl_cons, step_first_of_two h₁ h₂,
      step_last (by omega) (by omega) rfl, List.foldl_nil, hc]
  rcases Nat.lt_or_ge n 0x10000 with h₃ | h₃
  · rw [if_neg (by omega), if_neg (by omega), if_pos h₃, List.foldl_cons, List.foldl_cons,
      List.foldl_cons, step_first_of_three h₂ h₃,
      step_inner (by split <;> omega) (by split <;> omega) (by omega),
      step_last (by omega) (by omega) rfl, List.foldl_nil, hc]
  · rw [if_neg (by omega), if_neg (by omega), if_neg (by omega), List.foldl_cons, List.foldl_cons,
      List.foldl_cons, List.foldl_cons, step_first_of_four h₃ (by omega),
      step_inner (by split <;> omega) (by split <;> omega) (by omega),
      step_inner (by omega) (by omega) (by omega), step_last (by omega) (by omega) rfl,
      List.foldl_nil, hc]

/-- From between two characters, the bytes of characters are read as these. -/
theorem foldl_flatMap_encodeChar
    (read cs : List Char) :
  (cs.flatMap encodeChar).foldl step ⟨read, none⟩ = ⟨cs.reverse ++ read, none⟩
  := by
  induction cs generalizing read with
  | nil => rfl
  | cons c cs ih =>
    rw [List.flatMap_cons, List.foldl_append, foldl_encodeChar, ih, List.reverse_cons,
      List.append_assoc]
    rfl

/-- A text is decoded from its bytes. -/
theorem decode_encode
    (s : String) :
  decode (encode s) = s
  := by
  rw [decode, encode, foldl_flatMap_encodeChar, State.finish, List.append_nil,
    List.reverse_reverse, String.ofList_toList]

/-- A byte of ASCII stands for the character of its number only. -/
theorem toNat_eq_of_mem_encodeChar
    {c : Char} {b : UInt8} (h : b ∈ encodeChar c) (hb : b.toNat < 0x80) :
  c.toNat = b.toNat
  := by
  have beyond {n : Nat} (hn : 0x80 ≤ n) (hlt : n < 256) : b ≠ UInt8.ofNat n := by
    rintro rfl
    rw [UInt8.toNat_ofNat_of_lt' hlt] at hb
    exact absurd hn (Nat.not_le.mpr hb)
  have hvalid := toNat_valid c
  rw [encodeChar] at h
  generalize c.toNat = n at h hvalid ⊢
  rcases Nat.lt_or_ge n 0x80 with h₁ | h₁
  · rw [if_pos h₁, List.mem_singleton] at h
    rw [h, UInt8.toNat_ofNat_of_lt' (Nat.lt_trans h₁ (by decide))]
  -- Every byte of a longer form has its highest bit set.
  exfalso
  rw [if_neg (by omega)] at h
  rcases Nat.lt_or_ge n 0x800 with h₂ | h₂
  · rw [if_pos h₂] at h
    simp only [List.mem_cons, List.not_mem_nil, or_false] at h
    rcases h with h | h <;> exact beyond (by omega) (by omega) h
  rw [if_neg (by omega)] at h
  rcases Nat.lt_or_ge n 0x10000 with h₃ | h₃
  · rw [if_pos h₃] at h
    simp only [List.mem_cons, List.not_mem_nil, or_false] at h
    rcases h with h | h | h <;> exact beyond (by omega) (by omega) h
  · rw [if_neg (by omega)] at h
    simp only [List.mem_cons, List.not_mem_nil, or_false] at h
    rcases h with h | h | h | h <;> exact beyond (by omega) (by omega) h

/-- The byte zero stands for the character NUL only. -/
theorem zero_mem_encodeChar
    {c : Char} (h : 0 ∈ encodeChar c) :
  c = '\x00'
  := by
  have hzero := toNat_eq_of_mem_encodeChar h (by decide)
  rw [← Char.ofNat_toNat c, hzero]
  rfl

/-- A text without a NUL has no byte zero. -/
theorem zero_not_mem_encode
    {s : String} (h : '\x00' ∉ s.toList) :
  0 ∉ encode s
  := by
  intro hzero
  obtain ⟨c, hc, hmem⟩ := List.mem_flatMap.mp hzero
  rw [zero_mem_encodeChar hmem] at hc
  exact h hc

/-! ### Texts of ASCII characters -/

theorem encodeChar_ne_nil
    (c : Char) :
  encodeChar c ≠ []
  := by
  rw [encodeChar]
  repeat' split
  all_goals apply List.cons_ne_nil

/-- A first byte of ASCII stands for the first character. -/
theorem head?_encode_eq_some
    {s : String} {b : UInt8} (h : (encode s).head? = some b) (hb : b.toNat < 0x80) :
  ∃ c, s.toList.head? = some c ∧ c.toNat = b.toNat
  := by
  rw [encode] at h
  cases hs : s.toList with
  | nil => rw [hs] at h; cases h
  | cons c cs =>
    rw [hs, List.flatMap_cons, List.head?_append,
      List.head?_eq_some_head (encodeChar_ne_nil c)] at h
    have first : b ∈ encodeChar c := Option.some.inj h ▸ List.head_mem _
    exact ⟨c, rfl, toNat_eq_of_mem_encodeChar first hb⟩

/-- Characters of ASCII have a byte each. -/
theorem length_encode_of_ascii
    {s : String} (h : ∀ c ∈ s.toList, c.toNat < 0x80) :
  (encode s).length = s.length
  := by
  have single : ∀ c ∈ s.toList, (encodeChar c).length = 1 := by
    intro c hc
    rw [encodeChar, if_pos (h c hc)]
    rfl
  rw [encode, List.length_flatMap, List.map_congr_left single, List.map_const',
    List.sum_replicate_nat, Nat.mul_one, String.length_toList]

/-- However many bytes continue a character as they may, it is none of ASCII. -/
def EndsForeign : Nat → Nat → Nat → Nat → Prop
  | 0, value, _, _ => 0x80 ≤ value ∧ value.isValidChar
  | owed + 1, value, least, greatest =>
    ∀ b, least ≤ b → b ≤ greatest → EndsForeign owed (64 * value + (b - 0x80)) 0x80 0xBF

/-- The text will have a character that is none of ASCII, whatever bytes come. -/
def State.Foreign (s : State) : Prop :=
  (∃ c ∈ s.read, 0x80 ≤ c.toNat) ∨
    ∃ u ∈ s.unfinished, 0 < u.owed ∧ EndsForeign u.owed u.value u.least u.greatest

theorem toNat_ofNat
    {n : Nat} (h : n.isValidChar) :
  (Char.ofNat n).toNat = n
  := by
  rw [Char.ofNat, dif_pos h]
  rfl

theorem foreign_cons
    {read : List Char} {c : Char} (h : 0x80 ≤ c.toNat) (unfinished : Option Unfinished) :
  State.Foreign ⟨c :: read, unfinished⟩
  :=
  .inl ⟨c, List.mem_cons_self, h⟩

/-- The characters read stay read. -/
theorem mem_read_start
    {read : List Char} {c : Char} (h : c ∈ read) (b : Nat) :
  c ∈ (start read b).read
  := by
  have more (c' : Char) : c ∈ c' :: read := List.mem_cons_of_mem c' h
  rw [start]
  repeat' split
  all_goals first | exact h | exact more _

/-- A byte beyond ASCII starts no character of it. -/
theorem foreign_start
    {b : Nat} (h : 0x80 ≤ b) (read : List Char) :
  (start read b).Foreign
  := by
  have illFormed : State.Foreign ⟨replacement :: read, none⟩ := foreign_cons (by decide) none
  rw [start, if_neg (by omega)]
  split
  next => exact illFormed
  split
  next =>
    refine .inr ⟨_, rfl, Nat.one_pos, ?_⟩
    intro b₁ h₁ h₁'
    dsimp only at h₁ h₁' ⊢
    rw [EndsForeign, Nat.isValidChar]
    omega
  split
  next =>
    refine .inr ⟨_, rfl, Nat.two_pos, ?_⟩
    intro b₁ h₁ h₁' b₂ h₂ h₂'
    dsimp only at h₁ h₁' ⊢
    rw [EndsForeign, Nat.isValidChar]
    split at h₁ <;> split at h₁' <;> omega
  split
  next =>
    refine .inr ⟨_, rfl, Nat.succ_pos 2, ?_⟩
    intro b₁ h₁ h₁' b₂ h₂ h₂' b₃ h₃ h₃'
    dsimp only at h₁ h₁' ⊢
    rw [EndsForeign, Nat.isValidChar]
    split at h₁ <;> split at h₁' <;> omega
  next => exact illFormed

theorem State.Foreign.step
    {s : State} (h : s.Foreign) (byte : UInt8) :
  (step s byte).Foreign
  := by
  obtain ⟨read, unfinished⟩ := s
  rcases h with ⟨c, hc, hforeign⟩ | ⟨u, hu, howed, hends⟩
  · left
    refine ⟨c, ?_, hforeign⟩
    cases unfinished with
    | none => exact mem_read_start hc _
    | some u =>
      rw [Utf8.step]
      dsimp only
      split
      next =>
        split
        next => exact List.mem_cons_of_mem _ hc
        next => exact hc
      next => exact mem_read_start (List.mem_cons_of_mem _ hc) _
  · obtain rfl : unfinished = some u := hu
    rw [Utf8.step]
    dsimp only
    obtain ⟨owed, hsucc⟩ := Nat.exists_eq_add_of_lt howed
    rw [Nat.zero_add] at hsucc
    split
    next hbounds =>
      rw [hsucc] at hends
      have ends := hends _ hbounds.1 hbounds.2
      split
      next hlast =>
        obtain rfl : owed = 0 := by omega
        apply foreign_cons
        rw [toNat_ofNat ends.2]
        exact ends.1
      next hmore =>
        refine .inr ⟨_, rfl, by dsimp only; omega, ?_⟩
        rw [hsucc]
        exact ends
    next => exact .inl ⟨replacement, mem_read_start List.mem_cons_self _, by decide⟩

theorem State.Foreign.finish
    {s : State} (h : s.Foreign) :
  ∃ c ∈ s.finish, 0x80 ≤ c.toNat
  := by
  obtain ⟨read, unfinished⟩ := s
  cases unfinished with
  | some u => exact ⟨replacement, List.mem_reverse.mpr List.mem_cons_self, by decide⟩
  | none =>
    rcases h with ⟨c, hc, hforeign⟩ | ⟨u, hu, -⟩
    · exact ⟨c, List.mem_reverse.mpr hc, hforeign⟩
    · cases hu

theorem State.Foreign.foldl
    {s : State} (h : s.Foreign) (bs : Bytes) :
  (bs.foldl Utf8.step s).Foreign
  := by
  induction bs generalizing s with
  | nil => exact h
  | cons byte bs ih => exact ih (h.step byte)

/-- From between two characters, bytes that give characters of ASCII only are their bytes. -/
theorem exists_foldl_eq
    (bs : Bytes) (read : List Char)
    (h : ∀ c ∈ (bs.foldl step ⟨read, none⟩).finish, c.toNat < 0x80) :
  ∃ cs : List Char,
    bs.foldl step ⟨read, none⟩ = ⟨cs.reverse ++ read, none⟩ ∧ cs.flatMap encodeChar = bs
  := by
  induction bs generalizing read with
  | nil => exact ⟨[], rfl, rfl⟩
  | cons byte bs ih =>
    rcases Nat.lt_or_ge byte.toNat 0x80 with hascii | hbeyond
    · have first : step ⟨read, none⟩ byte = ⟨Char.ofNat byte.toNat :: read, none⟩ := by
        rw [step]
        exact if_pos hascii
      have char : encodeChar (Char.ofNat byte.toNat) = [byte] := by
        rw [encodeChar, toNat_ofNat (.inl (by omega)), if_pos hascii, UInt8.ofNat_toNat]
      rw [List.foldl_cons, first] at h ⊢
      obtain ⟨cs, hcs, hbytes⟩ := ih _ h
      refine ⟨Char.ofNat byte.toNat :: cs, ?_, ?_⟩
      · rw [hcs, List.reverse_cons, List.append_assoc]
        rfl
      · rw [List.flatMap_cons, hbytes, char]
        rfl
    · obtain ⟨c, hc, hforeign⟩ := ((foreign_start hbeyond read).foldl bs).finish
      exact absurd (h c hc) (Nat.not_lt.mpr hforeign)

/-- A text of ASCII characters is decoded from its own bytes only. -/
theorem encode_decode
    {bs : Bytes} (h : ∀ c ∈ (decode bs).toList, c.toNat < 0x80) :
  encode (decode bs) = bs
  := by
  rw [decode, String.toList_ofList] at h
  obtain ⟨cs, hcs, hbytes⟩ := exists_foldl_eq bs [] h
  rw [encode, decode, String.toList_ofList, hcs, State.finish, List.append_nil,
    List.reverse_reverse]
  exact hbytes

end SqlWire.Utf8
