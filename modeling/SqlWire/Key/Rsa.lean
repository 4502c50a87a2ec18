import SqlWire.Digest.Sha1
import SqlWire.Key.Der
import SqlWire.Key.Pem
import SqlWire.Text.Blank

/-!
# RSA public keys

The type `PublicKey` of RSA public keys, their reading from text, `PublicKey.ofText?`, and the
encryption `PublicKey.encrypt?` of short messages with the OAEP padding over SHA-1, together with
the decryption `Oaep.decrypt?` that undoes it.  The padding's seed is an argument.
-/

namespace SqlWire

/-- An RSA public key. -/
structure PublicKey where
  modulus : Nat
  exponent : Nat
  deriving DecidableEq, Repr

namespace PublicKey

/-- The number of bits of a number. -/
def bitLength (n : Nat) : Nat :=
  if n = 0 then 0 else n.log2 + 1

/-- The number of bytes of the modulus. -/
def size (k : PublicKey) : Nat :=
  (bitLength k.modulus + 7) / 8

/-- The key can be used: its modulus is odd, above the exponent and has 4096 bits at most, and its
exponent is odd, above one and has 33 bits at most. -/
def isUsable (k : PublicKey) : Bool :=
  bitLength k.modulus ≤ 4096 && k.exponent < k.modulus && k.modulus % 2 == 1
    && k.exponent % 2 == 1 && 2 ≤ k.exponent && k.exponent < 2 ^ 33

/-! ### Reading -/

/-- The number of bytes that a number of 4096 bits may take, with a zero in front of it. -/
def maxWidth : Nat := 513

/-- The key of a sequence of modulus and exponent. -/
def ofSequence? (bs : Bytes) : Option PublicKey := do
  let content ← Der.sequence? bs
  let (modulus, rest) ← Der.integer? maxWidth content
  let (exponent, rest) ← Der.integer? maxWidth rest
  let key : PublicKey := ⟨modulus, exponent⟩
  if rest.isEmpty && key.isUsable then some key else none

/-- The identifier of RSA keys. -/
def rsaIdentifier : Bytes :=
  [0x2A, 0x86, 0x48, 0x86, 0xF7, 0x0D, 0x01, 0x01, 0x01]

/-- The content of an algorithm's sequence is RSA with null parameters. -/
def isRsaAlgorithm (content : Bytes) : Bool :=
  match Der.tagged? Der.identifierTag content with
  | some (identifier, parameters) =>
    identifier == rsaIdentifier && Der.element? parameters == some (⟨Der.nullTag, []⟩, [])
  | none => false

/-- The key of a subject's public key information: the algorithm, and the key in a bit string. -/
def ofSubjectInfo? (bs : Bytes) : Option PublicKey := do
  let content ← Der.sequence? bs
  let (algorithm, rest) ← Der.tagged? Der.sequenceTag content
  let (key, rest) ← Der.tagged? Der.bitStringTag rest
  if isRsaAlgorithm algorithm && rest.isEmpty then ofSequence? (← Der.wholeBytes? key) else none

/-- The key of a text, in either of its two forms. -/
def ofText? (s : String) : Option PublicKey :=
  let cs := Blank.trim s.toList
  match (Pem.decode? "PUBLIC KEY" cs).bind ofSubjectInfo? with
  | some key => some key
  | none => (Pem.decode? "RSA PUBLIC KEY" cs).bind ofSequence?

end PublicKey

namespace Oaep

/-- The number of bytes of a digest. -/
def digestSize : Nat := 20

/-- The digest of the empty label. -/
def labelDigest : Bytes :=
  Sha1.digest []

/-- A mask of `n` bytes made from a seed. -/
def mask (seed : Bytes) (n : Nat) : Bytes :=
  ((List.range ((n + digestSize - 1) / digestSize)).flatMap fun i =>
    Sha1.digest (seed ++ Bytes.ofNatBE 4 i)).take n

/-- The power of a number modulo `n`. -/
def powMod (n b e : Nat) : Nat :=
  (List.range (e.log2 + 1)).reverse.foldl
    (fun acc i =>
      let square := acc * acc % n
      if e.testBit i then square * b % n else square)
    (1 % n)

/-- The padded message of `k` bytes, if the message is short enough. -/
def pad? (k : Nat) (seed message : Bytes) : Option Bytes :=
  if k < message.length + 2 * digestSize + 2 then none
  else
    let zeros := List.replicate (k - message.length - 2 * digestSize - 2) 0
    let block := labelDigest ++ zeros ++ 1 :: message
    let maskedBlock := Bytes.xor block (mask seed block.length)
    let maskedSeed := Bytes.xor seed (mask maskedBlock digestSize)
    some (0 :: maskedSeed ++ maskedBlock)

/-- The message of a padded one. -/
def unpad? (padded : Bytes) : Option Bytes :=
  match padded with
  | 0 :: rest =>
    let maskedBlock := rest.drop digestSize
    let seed := Bytes.xor (rest.take digestSize) (mask maskedBlock digestSize)
    let block := Bytes.xor maskedBlock (mask seed maskedBlock.length)
    if block.take digestSize = labelDigest then
      match (block.drop digestSize).dropWhile (· == 0) with
      | 1 :: message => some message
      | _ => none
    else none
  | _ => none

/-- The message of a ciphertext under a modulus and a private exponent. -/
def decrypt? (modulus exponent : Nat) (ciphertext : Bytes) : Option Bytes :=
  let k := PublicKey.size ⟨modulus, exponent⟩
  if ciphertext.length = k then
    unpad? (Bytes.ofNatBE k (powMod modulus (Bytes.bigEndian ciphertext) exponent))
  else none

end Oaep

/-- The ciphertext of a message under a key, with the given seed of the padding; nothing if the
message is too long for the key. -/
def PublicKey.encrypt? (k : PublicKey) (seed message : Bytes) : Option Bytes :=
  (Oaep.pad? k.size seed message).map fun padded =>
    Bytes.ofNatBE k.size (Oaep.powMod k.modulus (Bytes.bigEndian padded) k.exponent)

end SqlWire
