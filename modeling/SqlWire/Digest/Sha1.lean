import SqlWire.Digest.Padding

/-!
# SHA-1

The digest `Sha1.digest` of twenty bytes.
-/

namespace SqlWire.Sha1

open Digest

/-- The chaining value. -/
structure State where
  a : UInt32
  b : UInt32
  c : UInt32
  d : UInt32
  e : UInt32
  deriving DecidableEq, Repr

/-- The chaining value before the first block. -/
def initial : State :=
  ⟨0x67452301, 0xEFCDAB89, 0x98BADCFE, 0x10325476, 0xC3D2E1F0⟩

/-- The next word of the schedule. -/
def nextWord (ws : List UInt32) : UInt32 :=
  rotateLeft (ws.getD 2 0 ^^^ ws.getD 7 0 ^^^ ws.getD 13 0 ^^^ ws.getD 15 0) 1

/-- The function and the constant of a round. -/
def mix (t : Nat) (b c d : UInt32) : UInt32 :=
  if t < 20 then ((b &&& c) ||| (~~~b &&& d)) + 0x5A827999
  else if t < 40 then (b ^^^ c ^^^ d) + 0x6ED9EBA1
  else if t < 60 then ((b &&& c) ||| (b &&& d) ||| (c &&& d)) + 0x8F1BBCDC
  else (b ^^^ c ^^^ d) + 0xCA62C1D6

/-- A round, with its number and its word of the schedule. -/
def round (s : State) (w : UInt32 × Nat) : State :=
  ⟨rotateLeft s.a 5 + mix w.2 s.b s.c s.d + s.e + w.1, s.a, rotateLeft s.b 30, s.c, s.d⟩

/-- The chaining value after a block. -/
def compress (s : State) (block : List UInt32) : State :=
  let r := (schedule nextWord 64 block).zipIdx.foldl round s
  ⟨s.a + r.a, s.b + r.b, s.c + r.c, s.d + r.d, s.e + r.e⟩

/-- The digest of a message. -/
def digest (message : Bytes) : Bytes :=
  let s := (blocks message).foldl compress initial
  wordBytes [s.a, s.b, s.c, s.d, s.e]

/-- A digest has twenty bytes. -/
theorem length_digest
    (message : Bytes) :
  (digest message).length = 20
  := by
  simp [digest, wordBytes]

end SqlWire.Sha1
