import SqlWire.Text.Utf8

/-!
# Quoted literals

The content of a single-quoted literal as it is written, `escape`, and as a server reads it, `scan`.
A server reads a backslash as an escape unless it was told not to; in both ways of reading two
quotes stand for one, and a lone quote ends the literal.
-/

namespace SqlWire.Quoted

/-- The ways a server reads the content of a literal. -/
inductive Escaping where
  | backslash
  | quotesOnly
  deriving DecidableEq, Repr

/-- The byte of a single quote. -/
def quote : UInt8 := 0x27

/-- The byte of a backslash. -/
def slash : UInt8 := 0x5C

/-- The bytes that stand for one byte of content. -/
def escapeByte : Escaping → UInt8 → Bytes
  | .quotesOnly, b => if b = quote then [quote, quote] else [b]
  | .backslash, b =>
    if b = 0 then [slash, 0x30]
    else if b = quote ∨ b = 0x22 ∨ b = slash then [slash, b]
    else [b]

/-- The bytes that stand for some content. -/
def escape (mode : Escaping) (bs : Bytes) : Bytes :=
  bs.flatMap (escapeByte mode)

/-- The literal with the given content. -/
def literal (mode : Escaping) (bs : Bytes) : Bytes :=
  quote :: escape mode bs ++ [quote]

/-- The byte meant by a byte after a backslash. -/
def unescapeByte (b : UInt8) : UInt8 :=
  if b = 0x30 then 0 else b

/-- The content of a literal whose opening quote has been read, and the bytes behind its closing
quote; nothing when there is none. -/
def scanContent (mode : Escaping) : Bytes → Option (Bytes × Bytes)
  | [] => none
  | [b] => if b = quote then some ([], []) else none
  | b :: b' :: bs =>
    if b = quote then
      if b' = quote then (scanContent mode bs).map fun (c, r) => (quote :: c, r)
      else some ([], b' :: bs)
    else if b = slash ∧ mode = .backslash then
      (scanContent mode bs).map fun (c, r) => (unescapeByte b' :: c, r)
    else (scanContent mode (b' :: bs)).map fun (c, r) => (b :: c, r)

/-- The content of the literal at the start of some bytes, and the bytes behind it. -/
def scan (mode : Escaping) : Bytes → Option (Bytes × Bytes)
  | [] => none
  | b :: bs => if b = quote then scanContent mode bs else none

end SqlWire.Quoted
