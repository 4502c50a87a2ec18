import SqlWire.Proofs.Access.Basic
import SqlWire.Proofs.Reading

/-!
# Reading by index

A payload can be read in another way than at a cursor: it stays whole, and an index goes through it.
A `Slicer` reads at such a `Place` by slices and single bytes of the payload, and gives nothing at
all if one of them is out of range.  The slicer of an access agrees with its reader, and so do whole
scripts: every slice is in range, and the index stands where the cursor does, `Access.sliceAll_eq`.
A count, however great, is added to an index only if the sum is still an index of the payload.
-/

namespace SqlWire

variable {α β : Type}

/-- A payload and an index into it. -/
structure Place where
  data : Bytes
  index : Nat

namespace Place

/-- The number of bytes from the index on. -/
def remaining (p : Place) : Nat :=
  p.data.length - p.index

/-- The bytes from one index up to another, if they are a range of the payload. -/
def slice? (p : Place) (i j : Nat) : Option Bytes :=
  if i ≤ j ∧ j ≤ p.data.length then some (p.data.extract i j) else none

/-- The place at another index. -/
def moveTo (p : Place) (i : Nat) : Place :=
  { p with index := i }

/-- The cursor at the place. -/
def cursor (p : Place) : Cursor :=
  ⟨p.index, p.data.drop p.index⟩

theorem remaining_cursor
    (p : Place) :
  p.cursor.remaining = p.remaining
  :=
  List.length_drop

theorem cursor_moveTo_add
    (p : Place) (n : Nat) :
  (p.moveTo (p.index + n)).cursor = p.cursor.advance n
  := by
  rw [cursor, moveTo, ← List.drop_drop]
  rfl

/-- A slice that starts at the index. -/
theorem slice?_index
    {p : Place} {n : Nat} (hp : p.index ≤ p.data.length) (h : n ≤ p.remaining) :
  p.slice? p.index (p.index + n) = some (p.cursor.rest.take n)
  := by
  rw [remaining] at h
  rw [slice?, if_pos (by omega), List.extract_eq_take_drop, Nat.add_sub_cancel_left]
  rfl

/-- The slice from the index to the end. -/
theorem slice?_length
    {p : Place} (hp : p.index ≤ p.data.length) :
  p.slice? p.index p.data.length = some p.cursor.rest
  := by
  rw [slice?, if_pos ⟨hp, Nat.le_refl _⟩, List.extract_eq_take_drop,
    List.take_of_length_le (Nat.le_of_eq List.length_drop)]
  rfl

end Place

/-! ### The next NUL -/

namespace Reader

theorem takeWhile_eq_take_findIdx
    (bs : Bytes) :
  bs.takeWhile (· != 0) = bs.take (bs.findIdx (· == 0))
  := by
  rw [List.takeWhile_eq_take_findIdx_not]
  simp only [bne, Bool.not_not]

/-- Without a NUL the reader takes all bytes left. -/
theorem untilNul_of_findIdx?_eq_none
    {c : Cursor} (h : c.rest.findIdx? (· == 0) = none) :
  untilNul c = allBytes c
  := by
  rw [List.findIdx?_eq_none_iff_findIdx_eq] at h
  simp only [untilNul, takeWhile_eq_take_findIdx, h, List.take_length, List.drop_length]
  rfl

/-- The reader goes beyond the first NUL. -/
theorem untilNul_of_findIdx?_eq_some
    {c : Cursor} {k : Nat} (h : c.rest.findIdx? (· == 0) = some k) :
  untilNul c = (.ok (c.rest.take k), c.advance (k + 1))
  := by
  obtain ⟨hk, hfirst⟩ := List.findIdx?_eq_some_iff_findIdx_eq.mp h
  have behind : c.rest.drop k = c.rest[k] :: c.rest.drop (k + 1) := List.drop_eq_getElem_cons hk
  have length : (c.rest.take k).length = k := List.length_take_of_le (Nat.le_of_lt hk)
  simp only [untilNul, takeWhile_eq_take_findIdx, hfirst, length, behind]
  rfl

end Reader

/-! ### Slices -/

/-- A way to read by index: the outcome and the place afterwards, or nothing if a slice or an index
is out of range. -/
def Slicer (α : Type) : Type :=
  Place → Option (Except Error α × Place)

namespace Slicer

/-- The slicer that reads nothing and gives a value. -/
protected def pure (a : α) : Slicer α :=
  fun p => some (.ok a, p)

/-- One slicer after another; the second is not run when the first fails. -/
protected def bind (s : Slicer α) (next : α → Slicer β) : Slicer β :=
  fun p =>
    match s p with
    | some (.ok a, p') => next a p'
    | some (.error e, p') => some (.error e, p')
    | none => none

instance : Monad Slicer where
  pure := Slicer.pure
  bind := Slicer.bind

/-- The index. -/
def position : Slicer Nat :=
  fun p => some (.ok p.index, p)

/-- The number of bytes left. -/
def remaining : Slicer Nat :=
  fun p => some (.ok p.remaining, p)

/-- Whether at least `n` bytes are left. -/
def has (n : Nat) : Slicer Bool :=
  fun p => some (.ok (decide (n ≤ p.remaining)), p)

/-- The slice of the next `n` bytes, if they are left. -/
def bytes (n : Nat) : Slicer Bytes :=
  fun p =>
    if n ≤ p.remaining then
      (p.slice? p.index (p.index + n)).map fun bs => (.ok bs, p.moveTo (p.index + n))
    else some (.error (.shortBuffer n p.remaining), p)

/-- A move over the next `n` bytes, if they are left. -/
def skip (n : Nat) : Slicer Unit :=
  fun p =>
    if n ≤ p.remaining then some (.ok (), p.moveTo (p.index + n))
    else some (.error (.shortBuffer n p.remaining), p)

/-- The byte at the index, left unread. -/
def peek : Slicer UInt8 :=
  fun p =>
    if 1 ≤ p.remaining then (p.data[p.index]?).map fun b => (.ok b, p)
    else some (.error (.shortBuffer 1 p.remaining), p)

/-- The byte at the index. -/
def byte : Slicer UInt8 := do
  let b ← peek
  skip 1
  return b

/-- The unsigned number in the next `w` bytes. -/
def uint (w : Nat) : Slicer Nat := do
  return Bytes.littleEndian (← bytes w)

/-- The slice from the index to the end. -/
def allBytes : Slicer Bytes :=
  fun p => (p.slice? p.index p.data.length).map fun bs => (.ok bs, p.moveTo p.data.length)

/-- The slice up to the next NUL behind the index, which is passed over; without one, to the end. -/
def untilNul : Slicer Bytes :=
  fun p => do
    let rest ← p.slice? p.index p.data.length
    match rest.findIdx? (· == 0) with
    | none => allBytes p
    | some k =>
      let run ← p.slice? p.index (p.index + k)
      return (.ok run, p.moveTo (p.index + k + 1))

/-- A length-encoded number. -/
def lengthEncoded : Slicer (Option Nat) := do
  let first ← byte
  if first = 0xFB then return none
  else if first = 0xFC then return some (← uint 2)
  else if first = 0xFD then return some (← uint 3)
  else if first = 0xFE then return some (← uint 8)
  else return some first.toNat

/-- Bytes behind their length. -/
def lengthEncodedBytes : Slicer (Option Bytes) := do
  match ← lengthEncoded with
  | none => return none
  | some n => return some (← bytes n)

/-! ### Agreement with readers -/

/-- From a place in the payload the slicer moves on, by slices of the payload only, to where the
reader moves the cursor, and has the same outcome. -/
def Agrees (s : Slicer α) (r : Reader α) : Prop :=
  ∀ p : Place, p.index ≤ p.data.length →
    ∃ outcome i, p.index ≤ i ∧ i ≤ p.data.length ∧
      s p = some (outcome, p.moveTo i) ∧ r p.cursor = (outcome, (p.moveTo i).cursor)

theorem agrees_pure
    (a : α) :
  Agrees (pure a) (pure a)
  := by
  intro p hp
  exact ⟨.ok a, p.index, Nat.le_refl _, hp, rfl, rfl⟩

theorem Agrees.bind
    {s : Slicer α} {r : Reader α} {next : α → Slicer β} {next' : α → Reader β}
    (h : s.Agrees r) (hnext : ∀ a, (next a).Agrees (next' a)) :
  (s >>= next).Agrees (r >>= next')
  := by
  intro p hp
  obtain ⟨outcome, i, hle, hi, hs, hr⟩ := h p hp
  have slicer : (s >>= next) p = Slicer.bind s next p := rfl
  have reader : (r >>= next') p.cursor = Reader.bind r next' p.cursor := rfl
  rw [slicer, reader, Slicer.bind, Reader.bind, hs, hr]
  cases outcome with
  | error e => exact ⟨.error e, i, hle, hi, rfl, rfl⟩
  | ok a =>
    obtain ⟨outcome, j, hle', hj, hs', hr'⟩ := hnext a (p.moveTo i) hi
    exact ⟨outcome, j, Nat.le_trans hle hle', hj, hs', hr'⟩

/-- A value that is made of the one read. -/
theorem Agrees.map
    {s : Slicer α} {r : Reader α} (f : α → β) (h : s.Agrees r) :
  Agrees (s >>= fun a => pure (f a)) (r >>= fun a => pure (f a))
  :=
  h.bind fun a => agrees_pure (f a)

/-- What is read without a move. -/
theorem agrees_of_eq
    {s : Slicer α} {r : Reader α}
    (h : ∀ p : Place, p.index ≤ p.data.length → ∃ outcome,
      s p = some (outcome, p) ∧ r p.cursor = (outcome, p.cursor)) :
  s.Agrees r
  := by
  intro p hp
  obtain ⟨outcome, hs, hr⟩ := h p hp
  exact ⟨outcome, p.index, Nat.le_refl _, hp, hs, hr⟩

theorem agrees_position :
  position.Agrees Reader.position
  := by
  apply agrees_of_eq
  intro p _
  exact ⟨.ok p.index, rfl, rfl⟩

theorem agrees_remaining :
  remaining.Agrees Reader.remaining
  := by
  apply agrees_of_eq
  intro p _
  use .ok p.remaining, rfl
  rw [Reader.remaining, p.remaining_cursor]

theorem agrees_has
    (n : Nat) :
  (has n).Agrees (Reader.has n)
  := by
  apply agrees_of_eq
  intro p _
  use .ok (decide (n ≤ p.remaining)), rfl
  have enough : p.cursor.has n = decide (n ≤ p.remaining) := by
    rw [Bool.eq_iff_iff, Cursor.has_iff, p.remaining_cursor, decide_eq_true_iff]
  rw [Reader.has, enough]

/-- The next `n` bytes are in the payload if they are left. -/
theorem agrees_bytes
    (n : Nat) :
  (bytes n).Agrees (Reader.bytes n)
  := by
  intro p hp
  rw [bytes, Reader.bytes, ← p.cursor_moveTo_add, p.remaining_cursor]
  simp only [Cursor.has_iff, p.remaining_cursor]
  split
  next enough =>
    rw [Place.slice?_index hp enough]
    rw [Place.remaining] at enough
    exact ⟨.ok (p.cursor.rest.take n), p.index + n, by omega, by omega, rfl, rfl⟩
  next => exact ⟨.error (.shortBuffer n p.remaining), p.index, Nat.le_refl _, hp, rfl, rfl⟩

theorem agrees_skip
    (n : Nat) :
  (skip n).Agrees (Reader.skip n)
  := by
  intro p hp
  rw [skip, Reader.skip, ← p.cursor_moveTo_add, p.remaining_cursor]
  simp only [Cursor.has_iff, p.remaining_cursor]
  split
  next enough =>
    rw [Place.remaining] at enough
    exact ⟨.ok (), p.index + n, by omega, by omega, rfl, rfl⟩
  next => exact ⟨.error (.shortBuffer n p.remaining), p.index, Nat.le_refl _, hp, rfl, rfl⟩

theorem agrees_peek :
  peek.Agrees Reader.peek
  := by
  apply agrees_of_eq
  intro p hp
  rw [peek, Place.remaining, Reader.peek]
  by_cases hend : p.index < p.data.length
  · have rest : p.cursor.rest = p.data[p.index] :: p.data.drop (p.index + 1) :=
      List.drop_eq_getElem_cons hend
    rw [if_pos (by omega), List.getElem?_eq_getElem hend, rest]
    exact ⟨.ok p.data[p.index], rfl, rfl⟩
  · have rest : p.cursor.rest = [] := List.drop_eq_nil_of_le (by omega)
    have none : p.data.length - p.index = 0 := by omega
    rw [if_neg (by omega), rest, none]
    exact ⟨.error (.shortBuffer 1 0), rfl, rfl⟩

theorem agrees_byte :
  byte.Agrees Reader.byte
  := by
  have steps : Reader.byte = (do let b ← Reader.peek; Reader.skip 1; return b) := by
    funext ⟨position, rest⟩
    cases rest <;> rfl
  rw [steps]
  apply agrees_peek.bind
  intro b
  apply (agrees_skip 1).map fun _ => b

theorem agrees_uint
    (w : Nat) :
  (uint w).Agrees (Reader.uint w)
  :=
  (agrees_bytes w).map Bytes.littleEndian

theorem agrees_allBytes :
  allBytes.Agrees Reader.allBytes
  := by
  intro p hp
  rw [allBytes, Place.slice?_length hp]
  refine ⟨.ok p.cursor.rest, p.data.length, hp, Nat.le_refl _, rfl, ?_⟩
  rw [Reader.allBytes, p.remaining_cursor, Place.remaining]
  simp only [Place.cursor, Place.moveTo, Nat.add_sub_cancel' hp, List.drop_length]

theorem agrees_untilNul :
  untilNul.Agrees Reader.untilNul
  := by
  intro p hp
  cases hfind : p.cursor.rest.findIdx? (· == 0) with
  | none =>
    have slicer : untilNul p = allBytes p := by
      simp only [untilNul, Place.slice?_length hp, Option.bind_eq_bind, Option.bind_some, hfind]
    rw [slicer, Reader.untilNul_of_findIdx?_eq_none hfind]
    apply agrees_allBytes p hp
  | some k =>
    obtain ⟨hk, -⟩ := List.findIdx?_eq_some_iff_findIdx_eq.mp hfind
    have left : k < p.remaining := by
      rw [← p.remaining_cursor]
      exact hk
    have run := Place.slice?_index hp (Nat.le_of_lt left)
    have slicer : untilNul p = some (.ok (p.cursor.rest.take k), p.moveTo (p.index + k + 1)) := by
      simp only [untilNul, Place.slice?_length hp, Option.bind_eq_bind, Option.bind_some, hfind,
        run]
      rfl
    rw [slicer, Reader.untilNul_of_findIdx?_eq_some hfind, ← p.cursor_moveTo_add]
    rw [Place.remaining] at left
    exact ⟨.ok (p.cursor.rest.take k), p.index + k + 1, by omega, by omega, rfl, rfl⟩

theorem agrees_lengthEncoded :
  lengthEncoded.Agrees Reader.lengthEncoded
  := by
  apply agrees_byte.bind
  intro first
  by_cases hnull : first = 0xFB
  · subst hnull
    exact agrees_pure none
  by_cases htwo : first = 0xFC
  · subst htwo
    exact (agrees_uint 2).map some
  by_cases hthree : first = 0xFD
  · subst hthree
    exact (agrees_uint 3).map some
  by_cases height : first = 0xFE
  · subst height
    exact (agrees_uint 8).map some
  rw [if_neg hnull, if_neg htwo, if_neg hthree, if_neg height]
  split
  next => contradiction
  next => contradiction
  next => contradiction
  next => contradiction
  next => apply agrees_pure

theorem agrees_lengthEncodedBytes :
  lengthEncodedBytes.Agrees Reader.lengthEncodedBytes
  := by
  apply agrees_lengthEncoded.bind
  rintro (_ | n)
  · apply agrees_pure
  · exact (agrees_bytes n).map some

end Slicer

namespace Access

/-- The slicer of an access. -/
def slice : (a : Access) → Slicer a.Answer
  | position => Slicer.position
  | remaining => Slicer.remaining
  | has n => Slicer.has n
  | peek => Slicer.peek
  | skip n => Slicer.skip n
  | byte => Slicer.byte
  | uint w => Slicer.uint w
  | sint w => do return Bytes.signed w (← Slicer.uint w)
  | single => do return Single.ofBits (← Slicer.uint 4)
  | double => do return Double.ofBits (← Slicer.uint 8)
  | bytes n => Slicer.bytes n
  | text n => do return Utf8.decode (← Slicer.bytes n)
  | allBytes => Slicer.allBytes
  | untilNul => Slicer.untilNul
  | lengthEncoded => Slicer.lengthEncoded
  | lengthEncodedBytes => Slicer.lengthEncodedBytes
  | lengthEncodedText => do return (← Slicer.lengthEncodedBytes).map Utf8.decode

/-- The outcomes of accesses by index one after another, and the place in the end, or nothing if a
slice or an index is out of range in one of them. -/
def sliceAll : List Access → Place → Option (List Outcome × Place)
  | [], p => some ([], p)
  | a :: as, p => do
    let (outcome, p') ← a.slice p
    let (outcomes, p'') ← sliceAll as p'
    return (⟨a, outcome⟩ :: outcomes, p'')

theorem agrees_slice
    (a : Access) :
  a.slice.Agrees a.read
  := by
  cases a with
  | position => exact Slicer.agrees_position
  | remaining => exact Slicer.agrees_remaining
  | has n => exact Slicer.agrees_has n
  | peek => exact Slicer.agrees_peek
  | skip n => exact Slicer.agrees_skip n
  | byte => exact Slicer.agrees_byte
  | uint w => exact Slicer.agrees_uint w
  | sint w => exact (Slicer.agrees_uint w).map (Bytes.signed w)
  | single => exact (Slicer.agrees_uint 4).map Single.ofBits
  | double => exact (Slicer.agrees_uint 8).map Double.ofBits
  | bytes n => exact Slicer.agrees_bytes n
  | text n => exact (Slicer.agrees_bytes n).map Utf8.decode
  | allBytes => exact Slicer.agrees_allBytes
  | untilNul => exact Slicer.agrees_untilNul
  | lengthEncoded => exact Slicer.agrees_lengthEncoded
  | lengthEncodedBytes => exact Slicer.agrees_lengthEncodedBytes
  | lengthEncodedText => exact Slicer.agrees_lengthEncodedBytes.map (Option.map Utf8.decode)

/-- A script that starts in the payload stays in it, with every slice in range, and has the outcomes
that it has at the cursor. -/
theorem sliceAll_eq
    (as : List Access) {p : Place} (hp : p.index ≤ p.data.length) :
  ∃ outcomes i, p.index ≤ i ∧ i ≤ p.data.length ∧
    sliceAll as p = some (outcomes, p.moveTo i) ∧
    readAll as p.cursor = (outcomes, (p.moveTo i).cursor)
  := by
  induction as generalizing p with
  | nil => exact ⟨[], p.index, Nat.le_refl _, hp, rfl, rfl⟩
  | cons a as ih =>
    obtain ⟨outcome, i, hle, hi, hslice, hread⟩ := agrees_slice a p hp
    obtain ⟨outcomes, j, hle', hj, hslices, hreads⟩ := ih (p := p.moveTo i) hi
    refine ⟨⟨a, outcome⟩ :: outcomes, j, Nat.le_trans hle hle', hj, ?_, ?_⟩
    · simp only [sliceAll, hslice, hslices, Option.bind_eq_bind, Option.bind_some]
      rfl
    · simp only [readAll, hread, hreads]
      rfl

end Access

end SqlWire
