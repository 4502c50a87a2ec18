/-!
# Byte strings

The type `Bytes` of octet strings, in which packets, fields and keys are given; the numbers
`littleEndian` and `bigEndian` that a byte string denotes, and the byte strings `ofNatLE` and
`ofNatBE` of a given width that denote a number; the exclusive or of byte strings; and their
hexadecimal writing.  Reading back a number written in `w` bytes gives it modulo `256 ^ w`.
-/

-- Powers of natural numbers are those of the core library here, whatever else is imported.
attribute [instance (high), default_instance 20000] instPowNat

namespace SqlWire

/-- A string of octets. -/
abbrev Bytes := List UInt8

namespace Bytes

/-- The number whose base-256 digits are the bytes, least significant first. -/
def littleEndian : Bytes → Nat
  | [] => 0
  | b :: bs => b.toNat + 256 * littleEndian bs

/-- The `w` lowest base-256 digits of `n`, least significant first. -/
def ofNatLE : Nat → Nat → Bytes
  | 0, _ => []
  | w + 1, n => UInt8.ofNat n :: ofNatLE w (n / 256)

/-- The number whose base-256 digits are the bytes, most significant first. -/
def bigEndian (bs : Bytes) : Nat :=
  bs.foldl (fun n b => 256 * n + b.toNat) 0

/-- The `w` lowest base-256 digits of `n`, most significant first. -/
def ofNatBE (w n : Nat) : Bytes :=
  (ofNatLE w n).reverse

/-- The `w` bytes of the two's complement of `i`, least significant first. -/
def ofIntLE (w : Nat) (i : Int) : Bytes :=
  ofNatLE w (i % (256 ^ w : Nat)).toNat

/-- The integer whose two's complement in `w` bytes is `n`. -/
def signed (w n : Nat) : Int :=
  if 2 * n < 256 ^ w then n else (n : Int) - (256 ^ w : Nat)

/-- The byte-wise exclusive or, as long as the shorter of the two. -/
def xor (as bs : Bytes) : Bytes :=
  List.zipWith (· ^^^ ·) as bs

/-- The byte-wise exclusive or with the mask repeated from `whole` whenever it runs out. -/
def xorFrom (whole : Bytes) : Bytes → Bytes → Bytes
  | _, [] => []
  | m :: mask, b :: bs => (b ^^^ m) :: xorFrom whole mask bs
  | [], b :: bs =>
    match whole with
    | [] => b :: bs
    | m :: mask => (b ^^^ m) :: xorFrom whole mask bs

/-- The byte-wise exclusive or with a mask repeated cyclically; an empty mask changes nothing. -/
def xorCyclic (mask bs : Bytes) : Bytes :=
  xorFrom mask mask bs

/-! ### Hexadecimal writing -/

/-- The lower-case hexadecimal digit of a number below sixteen. -/
def hexDigit (n : Nat) : Char :=
  if n < 10 then Char.ofNat (48 + n) else Char.ofNat (87 + n)

/-- The two hexadecimal digits of a byte. -/
def hexByte (b : UInt8) : String :=
  String.ofList [hexDigit (b.toNat / 16), hexDigit (b.toNat % 16)]

/-- The bytes in hexadecimal between square brackets, separated by commas. -/
def hexList (bs : Bytes) : String :=
  "[" ++ ", ".intercalate (bs.map hexByte) ++ "]"

/-! ### Lengths and values -/

@[simp] theorem length_ofNatLE
    (w n : Nat) :
  (ofNatLE w n).length = w
  := by
  induction w generalizing n with
  | zero => rfl
  | succ w ih => simp [ofNatLE, ih]

@[simp] theorem length_ofNatBE
    (w n : Nat) :
  (ofNatBE w n).length = w
  := by
  simp [ofNatBE]

/-- Numbers written in `w` bytes are read back modulo `256 ^ w`. -/
theorem littleEndian_ofNatLE
    (w n : Nat) :
  littleEndian (ofNatLE w n) = n % 256 ^ w
  := by
  induction w generalizing n with
  | zero => simp [ofNatLE, littleEndian, Nat.mod_one]
  | succ w ih =>
    have step : (UInt8.ofNat n).toNat = n % 256 := UInt8.toNat_ofNat'
    simp only [ofNatLE, littleEndian, ih, step]
    rw [Nat.pow_succ, Nat.mul_comm (256 ^ w) 256, Nat.mod_mul]

/-- A byte string denotes a number below `256` to its length. -/
theorem littleEndian_lt
    (bs : Bytes) :
  littleEndian bs < 256 ^ bs.length
  := by
  induction bs with
  | nil => simp [littleEndian]
  | cons b bs ih =>
    have hb : b.toNat < 256 := b.toNat_lt
    simp only [littleEndian, List.length_cons, Nat.pow_succ]
    omega

end Bytes

end SqlWire
