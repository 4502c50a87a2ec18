import SqlWire.Bytes

/-!
# Base 64

The bytes `Base64.decode?` that a text in base 64 stands for.  Its length is a multiple of four, the
last four characters may end with one or two signs of padding, and the bits that padding leaves over
are zero.  `Base64.decodeWhole?` takes no padding.
-/

namespace SqlWire.Base64

/-- The number of six bits that a character stands for. -/
def sextet? (c : Char) : Option Nat :=
  if 'A' ≤ c ∧ c ≤ 'Z' then some (c.toNat - 65)
  else if 'a' ≤ c ∧ c ≤ 'z' then some (c.toNat - 71)
  else if '0' ≤ c ∧ c ≤ '9' then some (c.toNat + 4)
  else if c = '+' then some 62
  else if c = '/' then some 63
  else none

/-- The three bytes of four characters without padding. -/
def group? (a b c d : Char) : Option Bytes := do
  let n := 262144 * (← sextet? a) + 4096 * (← sextet? b) + 64 * (← sextet? c) + (← sextet? d)
  return Bytes.ofNatBE 3 n

/-- The bytes of the last four characters: three, or one or two before padding. -/
def lastGroup? (a b c d : Char) : Option Bytes :=
  if d = '=' then
    if c = '=' then do
      let n := 64 * (← sextet? a) + (← sextet? b)
      if n % 16 = 0 then return [UInt8.ofNat (n / 16)] else none
    else do
      let n := 4096 * (← sextet? a) + 64 * (← sextet? b) + (← sextet? c)
      if n % 4 = 0 then return Bytes.ofNatBE 2 (n / 4) else none
  else group? a b c d

/-- The bytes of a text in base 64 without padding. -/
def decodeWhole? : List Char → Option Bytes
  | [] => some []
  | a :: b :: c :: d :: cs => do return (← group? a b c d) ++ (← decodeWhole? cs)
  | _ => none

/-- The bytes of a text in base 64. -/
def decode? : List Char → Option Bytes
  | [] => some []
  | [a, b, c, d] => lastGroup? a b c d
  | a :: b :: c :: d :: cs => do return (← group? a b c d) ++ (← decode? cs)
  | _ => none

end SqlWire.Base64
