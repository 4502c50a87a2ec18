import SqlWire.Text.Printable

/-!
# Escaped texts

The writing `Escaped.quoted` of a text between double quotes in which quotes, backslashes and what
does not show by itself are written as escapes.
-/

namespace SqlWire.Escaped

/-- The escape of a character by its number. -/
def byNumber (c : Char) : List Char :=
  "\\u\x7b".toList ++ Nat.toDigits 16 c.toNat ++ ['\x7d']

/-- The writing of one character. -/
def character (c : Char) : List Char :=
  if c = '\x00' then ['\\', '0']
  else if c = '\t' then ['\\', 't']
  else if c = '\r' then ['\\', 'r']
  else if c = '\n' then ['\\', 'n']
  else if c = '\\' ∨ c = '"' then ['\\', c]
  else if Printable.isPrintable c then [c]
  else byNumber c

/-- The writing of a text between double quotes. -/
def quoted (s : String) : String :=
  String.ofList ('"' :: s.toList.flatMap character ++ ['"'])

end SqlWire.Escaped
