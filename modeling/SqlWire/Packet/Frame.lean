import SqlWire.Bytes

/-!
# Frames

The type `Frame` of numbered pieces of a payload; the frames `Frame.split` that a payload is sent
in, numbered from a given number on; and their bytes `Frame.toBytes`.  A frame holds at most
`Frame.maxLength` bytes, and a payload ends with the first frame that holds fewer, so that a payload
that fills its frames exactly is followed by an empty one.
-/

namespace SqlWire

/-- A piece of a payload, and its number in the exchange, which wraps around after 255. -/
structure Frame where
  sequence : UInt8
  content : Bytes
  deriving DecidableEq, Repr

namespace Frame

/-- The greatest number of bytes that a frame holds. -/
def maxLength : Nat := 0xFFFFFF

/-- The number of bytes in front of a frame's content: three of its length and one of its number. -/
def headerLength : Nat := 4

/-- The frames of a payload, numbered from the given number on. -/
def split (sequence : UInt8) (payload : Bytes) : List Frame :=
  if payload.length < maxLength then [⟨sequence, payload⟩]
  else ⟨sequence, payload.take maxLength⟩ :: split (sequence + 1) (payload.drop maxLength)
termination_by payload.length
decreasing_by
  simp only [List.length_drop, maxLength] at *
  omega

/-- The bytes of a frame: the length of its content, its number, and its content. -/
def toBytes (f : Frame) : Bytes :=
  Bytes.ofNatLE 3 f.content.length ++ f.sequence :: f.content

/-- The contents of a payload's frames make up the payload. -/
theorem flatMap_content_split
    (sequence : UInt8) (payload : Bytes) :
  (split sequence payload).flatMap content = payload
  := by
  fun_induction split sequence payload with
  | case1 => simp
  | case2 sequence payload _ ih => simp [ih]

end Frame

end SqlWire
