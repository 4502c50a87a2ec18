import Mathlib.Data.List.Forall2
import Mathlib.Tactic.Use
import SqlWire.Packet.Frame
import SqlWire.Proofs.Bytes

/-!
# The frames of payloads

Which frames make up a payload, `Frame.MakeUp`, and which numbers they carry, `Frame.consecutive`:
all but the last are full, the last is not, and the numbers follow each other around after 255.
`Frame.splitAll` gives the frames of payloads that are sent one after another.
-/

namespace SqlWire.Frame

/-- The frames are full up to the last, which is not, and hold the payload. -/
structure MakeUp (payload : Bytes) (frames : List Frame) : Prop where
  full : ∀ f ∈ frames.dropLast, f.content.length = maxLength
  last : ∃ f ∈ frames.getLast?, f.content.length < maxLength
  content : frames.flatMap content = payload

/-- As many numbers as asked for, from the given one on. -/
def consecutive (sequence : UInt8) (n : Nat) : List UInt8 :=
  (List.range n).map fun i => sequence + UInt8.ofNat i

theorem consecutive_one
    (sequence : UInt8) :
  consecutive sequence 1 = [sequence]
  := by
  rw [consecutive, List.range_one, List.map_singleton]
  exact congrArg (· :: []) (UInt8.add_zero sequence)

/-- The numbers of further frames start where those of the first end. -/
theorem consecutive_add
    (sequence : UInt8) (m n : Nat) :
  consecutive sequence (m + n) =
    consecutive sequence m ++ consecutive (sequence + UInt8.ofNat m) n
  := by
  rw [consecutive, List.range_add, List.map_append, List.map_map]
  congr 1
  apply List.map_congr_left
  intro i _
  rw [Function.comp_apply, UInt8.ofNat_add, UInt8.add_assoc]

theorem length_toBytes
    (f : Frame) :
  f.toBytes.length = headerLength + f.content.length
  := by
  simp only [toBytes, headerLength, List.length_append, List.length_cons, Bytes.length_ofNatLE]
  omega

/-! ### One payload -/

theorem split_of_lt
    (sequence : UInt8) {payload : Bytes} (hshort : payload.length < maxLength) :
  split sequence payload = [⟨sequence, payload⟩]
  := by
  rw [split, if_pos hshort]

theorem split_ne_nil
    (sequence : UInt8) (payload : Bytes) :
  split sequence payload ≠ []
  := by
  rw [split]
  split <;> exact List.cons_ne_nil _ _

/-- The bytes of a payload's frames start with a header. -/
theorem headerLength_le_split
    (sequence : UInt8) (payload : Bytes) :
  headerLength ≤ ((split sequence payload).flatMap toBytes).length
  := by
  obtain ⟨f, rest, hsplit⟩ := List.exists_cons_of_ne_nil (split_ne_nil sequence payload)
  rw [hsplit, List.flatMap_cons, List.length_append, length_toBytes]
  omega

theorem makeUp_split
    (sequence : UInt8) (payload : Bytes) :
  MakeUp payload (split sequence payload)
  := by
  constructor
  · fun_induction split sequence payload with
    | case1 => simp
    | case2 sequence payload hlong ih =>
      rw [List.dropLast_cons_of_ne_nil (split_ne_nil _ _)]
      intro f hf
      rcases List.mem_cons.mp hf with rfl | hf
      · simp only [List.length_take]
        omega
      · apply ih f hf
  · fun_induction split sequence payload with
    | case1 sequence payload hshort => simpa using hshort
    | case2 sequence payload hlong ih =>
      rw [List.getLast?_cons_of_ne_nil (split_ne_nil _ _)]
      apply ih
  · apply flatMap_content_split sequence payload

theorem map_sequence_split
    (sequence : UInt8) (payload : Bytes) :
  (split sequence payload).map Frame.sequence =
    consecutive sequence (split sequence payload).length
  := by
  fun_induction split sequence payload with
  | case1 => rw [List.map_singleton, List.length_singleton, consecutive_one]
  | case2 sequence payload hlong ih =>
    rw [List.map_cons, List.length_cons, Nat.add_comm, consecutive_add, consecutive_one, ih]
    rfl

/-! ### Payloads one after another -/

/-- The frames of payloads, each payload's numbered on from those before it. -/
def splitAll (sequence : UInt8) : List Bytes → List (List Frame)
  | [] => []
  | payload :: payloads =>
    let frames := split sequence payload
    frames :: splitAll (sequence + UInt8.ofNat frames.length) payloads

theorem makeUp_splitAll
    (sequence : UInt8) (payloads : List Bytes) :
  List.Forall₂ MakeUp payloads (splitAll sequence payloads)
  := by
  induction payloads generalizing sequence with
  | nil => exact .nil
  | cons payload payloads ih => exact .cons (makeUp_split sequence payload) (ih _)

theorem map_sequence_splitAll
    (sequence : UInt8) (payloads : List Bytes) :
  (splitAll sequence payloads).flatten.map Frame.sequence =
    consecutive sequence (splitAll sequence payloads).flatten.length
  := by
  induction payloads generalizing sequence with
  | nil => rfl
  | cons payload payloads ih =>
    rw [splitAll, List.flatten_cons, List.map_append, List.length_append, consecutive_add,
      map_sequence_split, ih]

end SqlWire.Frame
