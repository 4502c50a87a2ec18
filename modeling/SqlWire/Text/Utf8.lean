import SqlWire.Bytes

/-!
# UTF-8

The bytes `encode s` of a text, and the text `decode bs` of any bytes, in which each maximal
ill-formed part is replaced by U+FFFD.  Decoding is a machine run over the bytes: it stands either
between characters or inside one, where it knows how many continuation bytes are owed and the
bounds of the next one.
-/

namespace SqlWire.Utf8

/-- The bytes of a character: one below U+0080, two below U+0800, three below U+10000, else four. -/
def encodeChar (c : Char) : Bytes :=
  let n := c.toNat
  if n < 0x80 then [UInt8.ofNat n]
  else if n < 0x800 then [UInt8.ofNat (0xC0 + n / 64), UInt8.ofNat (0x80 + n % 64)]
  else if n < 0x10000 then
    [UInt8.ofNat (0xE0 + n / 4096), UInt8.ofNat (0x80 + n / 64 % 64), UInt8.ofNat (0x80 + n % 64)]
  else
    [UInt8.ofNat (0xF0 + n / 262144), UInt8.ofNat (0x80 + n / 4096 % 64),
      UInt8.ofNat (0x80 + n / 64 % 64), UInt8.ofNat (0x80 + n % 64)]

/-- The bytes of a text. -/
def encode (s : String) : Bytes :=
  s.toList.flatMap encodeChar

/-- An unfinished character: the value of the bits read, the number of continuation bytes owed, and
the least and greatest value of the next one. -/
structure Unfinished where
  value : Nat
  owed : Nat
  least : Nat
  greatest : Nat
  deriving DecidableEq, Repr

/-- The machine's state: the characters read, last first, and the unfinished one, if any. -/
structure State where
  read : List Char
  unfinished : Option Unfinished
  deriving DecidableEq, Repr

/-- The character that stands for an ill-formed part. -/
def replacement : Char :=
  Char.ofNat 0xFFFD

/-- The state after a byte that comes between characters. -/
def start (read : List Char) (b : Nat) : State :=
  if b < 0x80 then ⟨Char.ofNat b :: read, none⟩
  else if b < 0xC2 then ⟨replacement :: read, none⟩
  else if b < 0xE0 then ⟨read, some ⟨b - 0xC0, 1, 0x80, 0xBF⟩⟩
  else if b < 0xF0 then
    ⟨read, some ⟨b - 0xE0, 2, if b = 0xE0 then 0xA0 else 0x80, if b = 0xED then 0x9F else 0xBF⟩⟩
  else if b < 0xF5 then
    ⟨read, some ⟨b - 0xF0, 3, if b = 0xF0 then 0x90 else 0x80, if b = 0xF4 then 0x8F else 0xBF⟩⟩
  else ⟨replacement :: read, none⟩

/-- The state after one more byte; a byte that cannot continue the unfinished character ends it as
ill-formed and is read afresh. -/
def step (s : State) (byte : UInt8) : State :=
  let b := byte.toNat
  match s.unfinished with
  | none => start s.read b
  | some u =>
    if u.least ≤ b ∧ b ≤ u.greatest then
      let value := 64 * u.value + (b - 0x80)
      if u.owed ≤ 1 then ⟨Char.ofNat value :: s.read, none⟩
      else ⟨s.read, some ⟨value, u.owed - 1, 0x80, 0xBF⟩⟩
    else start (replacement :: s.read) b

/-- The characters of a state at the end of the bytes: an unfinished character is ill-formed. -/
def State.finish (s : State) : List Char :=
  match s.unfinished with
  | none => s.read.reverse
  | some _ => (replacement :: s.read).reverse

/-- The text of the bytes, each maximal ill-formed part replaced by U+FFFD. -/
def decode (bs : Bytes) : String :=
  String.ofList (bs.foldl step ⟨[], none⟩).finish

/-- The bytes are the encoding of some text. -/
def WellFormed (bs : Bytes) : Prop :=
  ∃ s : String, encode s = bs

end SqlWire.Utf8
