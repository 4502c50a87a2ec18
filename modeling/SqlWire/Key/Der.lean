import SqlWire.Bytes

/-!
# Distinguished encoding

Reading of elements `tag, length, content` in which the length has the fewest bytes, as far as the
forms of public keys need it: sequences, unsigned integers, object identifiers, null, and bit
strings of whole bytes.
-/

namespace SqlWire.Der

/-- An element: its tag and its content. -/
structure Element where
  tag : UInt8
  content : Bytes
  deriving DecidableEq, Repr

/-- The tag of an integer. -/
def integerTag : UInt8 := 0x02

/-- The tag of a bit string. -/
def bitStringTag : UInt8 := 0x03

/-- The tag of the null element. -/
def nullTag : UInt8 := 0x05

/-- The tag of an object identifier. -/
def identifierTag : UInt8 := 0x06

/-- The tag of a sequence. -/
def sequenceTag : UInt8 := 0x30

/-- A length and the bytes behind it.  From 128 on it is written in one to four bytes behind their
number, and never in more than it needs. -/
def length? : Bytes → Option (Nat × Bytes)
  | [] => none
  | b :: bs =>
    let n := b.toNat
    if n < 0x80 then some (n, bs)
    else
      let width := n - 0x80
      if width = 0 ∨ 4 < width ∨ bs.length < width then none
      else
        let value := Bytes.bigEndian (bs.take width)
        if value < 0x80 ∨ value < 256 ^ (width - 1) then none else some (value, bs.drop width)

/-- The element at the start of some bytes, and the bytes behind it. -/
def element? : Bytes → Option (Element × Bytes)
  | [] => none
  | tag :: bs => do
    let (n, bs) ← length? bs
    if bs.length < n then none else some (⟨tag, bs.take n⟩, bs.drop n)

/-- The content of the element with the given tag at the start of some bytes, and the bytes behind
it. -/
def tagged? (tag : UInt8) (bs : Bytes) : Option (Bytes × Bytes) := do
  let (e, bs) ← element? bs
  if e.tag = tag then some (e.content, bs) else none

/-- The content of the sequence that some bytes are. -/
def sequence? (bs : Bytes) : Option Bytes :=
  match tagged? sequenceTag bs with
  | some (content, []) => some content
  | _ => none

/-- The unsigned number of an integer's content: a leading zero byte is there exactly when the byte
behind it would mean a sign. -/
def unsigned? : Bytes → Option Nat
  | [] => none
  | [b] => if b.toNat < 0x80 then some b.toNat else none
  | a :: b :: bs =>
    if 0x80 ≤ a.toNat then none
    else if a = 0 ∧ b.toNat < 0x80 then none
    else some (Bytes.bigEndian (a :: b :: bs))

/-- The unsigned integer at the start of some bytes, if its content has at most the given number of
bytes, and the bytes behind it. -/
def integer? (width : Nat) (bs : Bytes) : Option (Nat × Bytes) := do
  let (content, bs) ← tagged? integerTag bs
  if content.length ≤ width then return (← unsigned? content, bs) else none

/-- The bytes of a bit string's content without bits left over. -/
def wholeBytes? : Bytes → Option Bytes
  | 0 :: bs => some bs
  | _ => none

end SqlWire.Der
