import SqlWire.Error
import SqlWire.Floating.Basic
import SqlWire.Text.Utf8

/-!
# Reading packets

A `Cursor` over a payload, and `Reader`s, which give an outcome together with the cursor that they
leave, on failure as on success.  Fixed reads that fail leave the cursor where it was; a reader that
fails after a length has been read leaves it behind the length.  Numbers are little-endian.
-/

namespace SqlWire

/-- A place in a payload: the number of bytes before it, and the bytes after it. -/
structure Cursor where
  position : Nat
  rest : Bytes
  deriving DecidableEq, Repr

namespace Cursor

/-- The cursor at the start of a payload. -/
def ofBytes (bs : Bytes) : Cursor :=
  ⟨0, bs⟩

/-- The number of bytes left. -/
def remaining (c : Cursor) : Nat :=
  c.rest.length

/-- At least `n` bytes are left; only the first `n` bytes are looked at. -/
def has (c : Cursor) : Nat → Bool
  | 0 => true
  | n + 1 => !(c.rest.drop n).isEmpty

/-- The cursor `n` bytes further on. -/
def advance (c : Cursor) (n : Nat) : Cursor :=
  ⟨c.position + n, c.rest.drop n⟩

/-- Having `n` bytes is a matter of the number left. -/
theorem has_iff
    (c : Cursor) (n : Nat) :
  c.has n = true ↔ n ≤ c.remaining
  := by
  cases n with
  | zero => exact iff_of_true rfl (Nat.zero_le _)
  | succ n =>
    rw [has, Bool.not_eq_true', List.isEmpty_eq_false_iff, Ne, List.drop_eq_nil_iff, Nat.not_le]
    rfl

end Cursor

/-- A way to read at a cursor: the outcome, and the cursor afterwards. -/
def Reader (α : Type) : Type :=
  Cursor → Except Error α × Cursor

namespace Reader

variable {α β : Type}

/-- The reader that reads nothing and gives a value. -/
protected def pure (a : α) : Reader α :=
  fun c => (.ok a, c)

/-- One reader after another; the second is not run when the first fails. -/
protected def bind (r : Reader α) (next : α → Reader β) : Reader β :=
  fun c =>
    match r c with
    | (.ok a, c') => next a c'
    | (.error e, c') => (.error e, c')

instance : Monad Reader where
  pure := Reader.pure
  bind := Reader.bind

/-- The reader that reads nothing and fails. -/
def fail (e : Error) : Reader α :=
  fun c => (.error e, c)

/-- The reader that reads nothing and gives an outcome. -/
def lift (r : Except Error α) : Reader α :=
  fun c => (r, c)

/-- The outcome of reading a payload from its start. -/
def run (r : Reader α) (bs : Bytes) : Except Error α :=
  (r (.ofBytes bs)).1

/-- The number of bytes before the cursor. -/
def position : Reader Nat :=
  fun c => (.ok c.position, c)

/-- The number of bytes left. -/
def remaining : Reader Nat :=
  fun c => (.ok c.remaining, c)

/-- Whether at least `n` bytes are left. -/
def has (n : Nat) : Reader Bool :=
  fun c => (.ok (c.has n), c)

/-- The next `n` bytes. -/
def bytes (n : Nat) : Reader Bytes :=
  fun c =>
    if c.has n then (.ok (c.rest.take n), c.advance n)
    else (.error (.shortBuffer n c.remaining), c)

/-- A move over the next `n` bytes. -/
def skip (n : Nat) : Reader Unit :=
  fun c =>
    if c.has n then (.ok (), c.advance n) else (.error (.shortBuffer n c.remaining), c)

/-- A move over the next `n` bytes, or over all that are left. -/
def skipAtMost (n : Nat) : Reader Unit :=
  fun c => (.ok (), c.advance (min n c.remaining))

/-- The next byte, left unread. -/
def peek : Reader UInt8 :=
  fun c =>
    match c.rest with
    | b :: _ => (.ok b, c)
    | [] => (.error (.shortBuffer 1 0), c)

/-- The next byte. -/
def byte : Reader UInt8 :=
  fun c =>
    match c.rest with
    | b :: bs => (.ok b, ⟨c.position + 1, bs⟩)
    | [] => (.error (.shortBuffer 1 0), c)

/-- The unsigned number in the next `w` bytes. -/
def uint (w : Nat) : Reader Nat := do
  return Bytes.littleEndian (← bytes w)

/-- The two's complement number in the next `w` bytes. -/
def sint (w : Nat) : Reader Int := do
  return Bytes.signed w (← uint w)

/-- The floating-point number in the next eight bytes. -/
def double : Reader Double := do
  return .ofBits (← uint 8)

/-- The floating-point number in the next four bytes. -/
def single : Reader Single := do
  return .ofBits (← uint 4)

/-- The text of the next `n` bytes. -/
def text (n : Nat) : Reader String := do
  return Utf8.decode (← bytes n)

/-- All bytes left. -/
def allBytes : Reader Bytes :=
  fun c => (.ok c.rest, ⟨c.position + c.remaining, []⟩)

/-- The bytes before the next NUL, which is read too; without one, all bytes left. -/
def untilNul : Reader Bytes :=
  fun c =>
    let run := c.rest.takeWhile (· != 0)
    match c.rest.drop run.length with
    | [] => (.ok run, ⟨c.position + run.length, []⟩)
    | _ :: after => (.ok run, ⟨c.position + run.length + 1, after⟩)

/-- A length-encoded number, or nothing for the NULL marker: below 251 it is its own byte, and the
bytes 252, 253 and 254 announce two, three and eight bytes. -/
def lengthEncoded : Reader (Option Nat) := do
  let first ← byte
  match first with
  | 0xFB => return none
  | 0xFC => return some (← uint 2)
  | 0xFD => return some (← uint 3)
  | 0xFE => return some (← uint 8)
  | _ => return some first.toNat

/-- Bytes behind their length, or nothing for the NULL marker. -/
def lengthEncodedBytes : Reader (Option Bytes) := do
  match ← lengthEncoded with
  | none => return none
  | some n => return some (← bytes n)

/-- A text behind its length, or nothing for the NULL marker. -/
def lengthEncodedText : Reader (Option String) := do
  return (← lengthEncodedBytes).map Utf8.decode

end Reader

end SqlWire
