import SqlWire.Proofs.Access.Indexed
import SqlWire.Proofs.Framing

/-!
# Cursors stay in the payload

What an access does to the cursor, when it fails as well.  One that takes a given number of bytes,
`Reader.Takes`, fails exactly if fewer are left, and then does not move; one that begins with a
length fails behind as much of the length as could be read, `Reader.lengthRead`.  With the agreement
of cursors and indices this makes `Access.readAll_inBounds`, about any script and a further access.
-/

namespace SqlWire

namespace Reader

variable {α β : Type}

/-! ### Bytes of a given number -/

/-- The reader moves over `n` bytes and gives a value if they are left, and otherwise fails for want
of them where it stands. -/
structure Takes (r : Reader α) (n : Nat) : Prop where
  gives : r.Gives n
  fails : ∀ c : Cursor, c.remaining < n → r c = (.error (.shortBuffer n c.remaining), c)

theorem Gives.exists_eq_ok
    {r : Reader α} {n : Nat} {c : Cursor} (hr : r.Gives n) (enough : n ≤ c.remaining) :
  ∃ a, r c = (.ok a, c.advance n)
  := by
  have hlength := List.length_take_of_le enough
  obtain ⟨a, ha⟩ := hr (c.rest.take n) hlength
  use a
  have read := ha c.position (c.rest.drop n)
  rw [List.take_append_drop, hlength] at read
  exact read

theorem Takes.map
    {r : Reader α} {n : Nat} (f : α → β) (hr : r.Takes n) :
  (r >>= fun a => pure (f a)).Takes n
  := by
  use hr.gives.map f
  intro c short
  rw [map_apply, hr.fails c short]
  rfl

theorem takes_bytes
    (n : Nat) :
  (bytes n).Takes n
  := by
  use gives_bytes n
  intro c short
  rw [bytes, if_neg (mt (Cursor.has_iff c n).mp (Nat.not_le_of_lt short))]

theorem takes_skip
    (n : Nat) :
  (skip n).Takes n
  := by
  use gives_skip n
  intro c short
  rw [skip, if_neg (mt (Cursor.has_iff c n).mp (Nat.not_le_of_lt short))]

theorem takes_byte :
  byte.Takes 1
  := by
  use gives_byte
  rintro ⟨position, _ | ⟨b, rest⟩⟩ short
  · rfl
  · exact absurd (Nat.succ_le_succ (Nat.zero_le rest.length)) (Nat.not_le_of_lt short)

theorem takes_uint
    (w : Nat) :
  (uint w).Takes w
  :=
  (takes_bytes w).map Bytes.littleEndian

/-- A reader of a given number of bytes that fails does not move. -/
theorem Takes.eq_of_error
    {r : Reader α} {n : Nat} {c c' : Cursor} {e : Error} (hr : r.Takes n)
    (h : r c = (.error e, c')) :
  c' = c
  := by
  rcases Nat.lt_or_ge c.remaining n with short | enough
  · rw [hr.fails c short] at h
    cases h
    rfl
  · obtain ⟨a, ha⟩ := hr.gives.exists_eq_ok enough
    rw [ha] at h
    cases h

/-- Where the cursor is afterwards. -/
theorem Takes.snd
    {r : Reader α} {n : Nat} (hr : r.Takes n) (c : Cursor) :
  (r c).2 = c.advance (if n ≤ c.remaining then n else 0)
  := by
  split
  next enough =>
    obtain ⟨a, ha⟩ := hr.gives.exists_eq_ok enough
    rw [ha]
  next short =>
    rw [hr.fails c (Nat.lt_of_not_le short)]
    rfl

/-! ### Lengths -/

/-- The number of bytes that the first byte of a length announces. -/
def announced : UInt8 → Nat
  | 0xFC => 2
  | 0xFD => 3
  | 0xFE => 8
  | _ => 0

/-- The number of bytes of a length that can be read: its first byte, if there is one, and those
that it announces, if all of them are there. -/
def lengthRead : Bytes → Nat
  | [] => 0
  | first :: bs => 1 + if announced first ≤ bs.length then announced first else 0

/-- A length that is read, or cannot be, is left behind as far as it could be. -/
theorem snd_lengthEncoded
    (c : Cursor) :
  (lengthEncoded c).2 = c.advance (lengthRead c.rest)
  := by
  obtain ⟨position, _ | ⟨first, bs⟩⟩ := c
  · rfl
  have further (k : Nat) :
      Cursor.advance ⟨position, first :: bs⟩ (1 + k) = Cursor.advance ⟨position + 1, bs⟩ k := by
    rw [Cursor.advance, Cursor.advance, Nat.add_comm 1 k, List.drop_succ_cons, Nat.add_comm k 1,
      Nat.add_assoc]
  have hfirst : byte ⟨position, first :: bs⟩ = (.ok first, ⟨position + 1, bs⟩) := rfl
  rw [lengthRead, further]
  change (Reader.bind byte _ _).2 = _
  rw [Reader.bind, hfirst]
  dsimp only
  split
  next => rfl
  next => exact ((takes_uint 2).map some).snd _
  next => exact ((takes_uint 3).map some).snd _
  next => exact ((takes_uint 8).map some).snd _
  next h₂ h₃ h₈ =>
    have none : announced first = 0 := by rw [announced] <;> assumption
    rw [none]
    rfl

theorem eq_advance_of_lengthEncodedBytes
    {c c' : Cursor} {e : Error} (h : lengthEncodedBytes c = (.error e, c')) :
  c' = c.advance (lengthRead c.rest)
  := by
  rw [← snd_lengthEncoded]
  change Reader.bind lengthEncoded _ c = _ at h
  rw [Reader.bind] at h
  split at h
  next length c₁ hlength =>
    rw [hlength]
    cases length with
    | none => cases h
    | some n => exact ((takes_bytes n).map some).eq_of_error h
  next e₁ c₁ hlength =>
    rw [hlength]
    cases h
    rfl

end Reader

namespace Access

/-- The number of bytes that an access takes, if it is known beforehand. -/
def size? : Access → Option Nat
  | skip n | bytes n | text n => some n
  | byte => some 1
  | uint w | sint w => some w
  | single => some 4
  | double => some 8
  | _ => none

/-- The access begins with a length. -/
def beginsWithLength : Access → Bool
  | lengthEncoded | lengthEncodedBytes | lengthEncodedText => true
  | _ => false

theorem takes_read
    {a : Access} {n : Nat} (h : a.size? = some n) :
  a.read.Takes n
  := by
  cases a <;> cases h
  case skip => exact Reader.takes_skip n
  case byte => exact Reader.takes_byte
  case uint => exact Reader.takes_uint n
  case sint => exact (Reader.takes_uint n).map (Bytes.signed n)
  case single => exact (Reader.takes_uint 4).map Single.ofBits
  case double => exact (Reader.takes_uint 8).map Double.ofBits
  case bytes => exact Reader.takes_bytes n
  case text => exact (Reader.takes_bytes n).map Utf8.decode

/-- An access that begins with a length and fails leaves the cursor behind what it read of it. -/
theorem eq_advance_of_beginsWithLength
    {a : Access} {c c' : Cursor} {e : Error} (ha : a.beginsWithLength = true)
    (h : a.read c = (.error e, c')) :
  c' = c.advance (Reader.lengthRead c.rest)
  := by
  cases a <;> cases ha
  case lengthEncoded =>
    rw [← Reader.snd_lengthEncoded]
    exact (congrArg Prod.snd h).symm
  case lengthEncodedBytes => exact Reader.eq_advance_of_lengthEncodedBytes h
  case lengthEncodedText =>
    exact Reader.eq_advance_of_lengthEncodedBytes (Reader.eq_error_of_map h)

/-- After any script the cursor is in the payload, and the same script reads the same by index, with
every slice in range.  A further access moves it no further back; if it takes a given number of
bytes, it takes them all or fails without a move; and if it begins with a length and fails, it moves
over the bytes of the length that are there. -/
theorem readAll_inBounds
    (data : Bytes) (as : List Access) :
  let c := (readAll as (.ofBytes data)).2
  c.position ≤ data.length ∧ c.position + c.remaining = data.length ∧
  sliceAll as ⟨data, 0⟩ = some ((readAll as (.ofBytes data)).1, ⟨data, c.position⟩) ∧
  ∀ a : Access,
    c.position ≤ (a.read c).2.position ∧
    (∀ n, a.size? = some n →
      (n ≤ c.remaining → ∃ answer, a.read c = (.ok answer, c.advance n)) ∧
      (c.remaining < n → a.read c = (.error (.shortBuffer n c.remaining), c))) ∧
    (a.beginsWithLength = true → ∀ e c', a.read c = (.error e, c') →
      c' = c.advance (Reader.lengthRead c.rest))
  := by
  intro c
  have start : (⟨data, 0⟩ : Place).index ≤ (⟨data, 0⟩ : Place).data.length := Nat.zero_le _
  obtain ⟨outcomes, i, -, hi, hslices, hreads⟩ := sliceAll_eq as start
  have whole : readAll as (.ofBytes data) = (outcomes, (⟨data, i⟩ : Place).cursor) := hreads
  have place : c = (⟨data, i⟩ : Place).cursor := congrArg Prod.snd whole
  have left : c.remaining = data.length - i := by
    rw [place]
    apply Place.remaining_cursor
  have position : c.position = i := congrArg Cursor.position place
  refine ⟨position ▸ hi, ?_, ?_, ?_⟩
  · rw [position, left, Nat.add_sub_cancel' hi]
  · rw [hslices, whole, position]
    rfl
  · intro a
    refine ⟨?_, ?_, ?_⟩
    · obtain ⟨outcome, j, hle, -, -, hread⟩ := agrees_slice a ⟨data, i⟩ hi
      rw [place, hread]
      exact hle
    · intro n hn
      exact ⟨(takes_read hn).gives.exists_eq_ok, (takes_read hn).fails c⟩
    · intro ha e c' hfails
      apply eq_advance_of_beginsWithLength ha hfails

/-- Behind a length of all bits one byte is left, in front of which a skip of as many bytes fails
without a move, and a length of three bytes behind the first of them. -/
theorem readAll_inBounds_long :
  let data : Bytes := [0xFE, 0xFF, 0xFF, 0xFF, 0xFF, 0xFF, 0xFF, 0xFF, 0xFF, 0xFD]
  let c := (readAll [.lengthEncodedBytes] (.ofBytes data)).2
  c = ⟨9, [0xFD]⟩ ∧
  (skip (2 ^ 64 - 1)).size? = some (2 ^ 64 - 1) ∧ c.remaining < 2 ^ 64 - 1 ∧
  (skip (2 ^ 64 - 1)).read c = (.error (.shortBuffer (2 ^ 64 - 1) 1), c) ∧
  lengthEncoded.beginsWithLength = true ∧
  lengthEncoded.read c = (.error (.shortBuffer 3 0), ⟨10, []⟩) ∧
  ⟨10, []⟩ = c.advance (Reader.lengthRead c.rest)
  := by
  intro data c
  obtain ⟨-, -, -, further⟩ := readAll_inBounds data [.lengthEncodedBytes]
  have place : c = ⟨9, [0xFD]⟩ := by rfl
  have short : c.remaining < 2 ^ 64 - 1 := by
    rw [place]
    decide
  have failure : lengthEncoded.read c = (.error (.shortBuffer 3 0), ⟨10, []⟩) := by rfl
  refine ⟨place, rfl, short, ?_, rfl, failure, ?_⟩
  · apply ((further (skip (2 ^ 64 - 1))).2.1 _ rfl).2 short
  · apply (further lengthEncoded).2.2 rfl _ _ failure

end Access

end SqlWire
