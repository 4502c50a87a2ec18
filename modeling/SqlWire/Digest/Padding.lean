import SqlWire.Bytes

/-!
# Blocks of a message

The blocks of sixteen 32-bit words that the digests read: the message, a one bit, as few zero bits
as complete a block, and the length of the message in bits.  Words are big-endian.
-/

namespace SqlWire.Digest

/-- The number of zero bytes between the one bit and the length. -/
def zeros (length : Nat) : Nat :=
  (119 - length % 64) % 64

/-- The message with its padding. -/
def padded (message : Bytes) : Bytes :=
  message ++ 0x80 :: List.replicate (zeros message.length) 0
    ++ Bytes.ofNatBE 8 (8 * message.length)

/-- The first `count` pieces of `n` bytes. -/
def pieces (n : Nat) : Nat → Bytes → List Bytes
  | 0, _ => []
  | count + 1, bs => bs.take n :: pieces n count (bs.drop n)

/-- The sixteen words of a block. -/
def words (block : Bytes) : List UInt32 :=
  (pieces 4 16 block).map fun w => UInt32.ofNat (Bytes.bigEndian w)

/-- The blocks of a message. -/
def blocks (message : Bytes) : List (List UInt32) :=
  let bs := padded message
  (pieces 64 (bs.length / 64) bs).map words

/-- The bytes of words. -/
def wordBytes (ws : List UInt32) : Bytes :=
  ws.flatMap fun w => Bytes.ofNatBE 4 w.toNat

/-- The word with its bits moved round to the left. -/
def rotateLeft (w : UInt32) (n : UInt32) : UInt32 :=
  (w <<< n) ||| (w >>> (32 - n))

/-- The word with its bits moved round to the right. -/
def rotateRight (w : UInt32) (n : UInt32) : UInt32 :=
  (w >>> n) ||| (w <<< (32 - n))

/-- The schedule of a block: its words, followed by as many more as asked for, each made from those
before it, which are given last first. -/
def schedule (next : List UInt32 → UInt32) (count : Nat) (block : List UInt32) : List UInt32 :=
  (Nat.repeat (fun ws => next ws :: ws) count block.reverse).reverse

end SqlWire.Digest
