/-!
# ASCII letters

The lower-case form of a text in which the case of the ASCII letters alone is changed.
-/

namespace SqlWire.Ascii

/-- The lower-case form of an ASCII capital; any other character is its own. -/
def lower (c : Char) : Char :=
  if 'A' ≤ c ∧ c ≤ 'Z' then Char.ofNat (c.toNat + 32) else c

/-- The text with its ASCII capitals in lower case. -/
def lowerText (s : String) : String :=
  String.ofList (s.toList.map lower)

end SqlWire.Ascii
