import SqlWire.Key.Base64

/-!
# Privacy-enhanced mail

The bytes `Pem.decode?` between the lines `-----BEGIN label-----` and `-----END label-----`: base 64
in lines of sixty-four characters, of which the last may be shorter, and one empty line may follow
it.  There may be lines before the first boundary, and nothing but the end of a line behind the
last.
-/

namespace SqlWire.Pem

/-- The width of a line. -/
def lineWidth : Nat := 64

/-- The text before the label of the first boundary. -/
def beginMark : List Char := "-----BEGIN ".toList

/-- The text before the label of the last boundary. -/
def endMark : List Char := "-----END ".toList

/-- The text behind the label of a boundary. -/
def closeMark : List Char := "-----".toList

/-- What follows the given start of a text. -/
def after? (start cs : List Char) : Option (List Char) :=
  if start.isPrefixOf cs then some (cs.drop start.length) else none

/-- What precedes the given end of a text. -/
def before? (stop cs : List Char) : Option (List Char) :=
  (after? stop.reverse cs.reverse).map List.reverse

/-- What follows the end of a line at the start of a text. -/
def afterLineEnd? : List Char → Option (List Char)
  | '\r' :: '\n' :: cs => some cs
  | '\r' :: cs => some cs
  | '\n' :: cs => some cs
  | _ => none

/-- What precedes the end of a line at the end of a text. -/
def beforeLineEnd? (cs : List Char) : Option (List Char) :=
  match cs.reverse with
  | '\n' :: '\r' :: rest => some rest.reverse
  | '\n' :: rest => some rest.reverse
  | '\r' :: rest => some rest.reverse
  | _ => none

/-- The text from the first boundary at the start of a line on, if no NUL comes before it. -/
def fromBoundary? : List Char → Option (List Char)
  | [] => none
  | c :: cs =>
    if c = '\x00' then none
    else if c = '\n' ∧ beginMark.isPrefixOf cs then some cs
    else fromBoundary? cs

/-- The text from the first boundary on. -/
def skipPreamble? (cs : List Char) : Option (List Char) :=
  if beginMark.isPrefixOf cs then some cs else fromBoundary? cs

/-- The text between boundaries with the given label. -/
def enclosed? (label cs : List Char) : Option (List Char) := do
  let cs ← skipPreamble? cs
  let cs ← after? beginMark cs
  let cs ← after? label cs
  let cs ← after? closeMark cs
  let cs ← afterLineEnd? cs
  let cs := (beforeLineEnd? cs).getD cs
  let cs ← before? closeMark cs
  let cs ← before? label cs
  let cs ← before? endMark cs
  beforeLineEnd? cs

/-- The bytes of lines of base 64.  A line with a line behind it, be it empty, has the full width
and no padding; the last one has at most that width, and may have the end of a line behind it.
Every line shortens the text, so that the fuel of its length is enough. -/
def decodeLines? : Nat → List Char → Option Bytes
  | 0, _ => none
  | fuel + 1, cs =>
    match cs.drop lineWidth with
    | [] => Base64.decode? ((beforeLineEnd? cs).getD cs)
    | rest => do
      let rest ← afterLineEnd? rest
      if rest.isEmpty then Base64.decode? (cs.take lineWidth)
      else return (← Base64.decodeWhole? (cs.take lineWidth)) ++ (← decodeLines? fuel rest)

/-- The bytes between boundaries with the given label. -/
def decode? (label : String) (cs : List Char) : Option Bytes := do
  let text ← enclosed? label.toList cs
  decodeLines? (text.length + 1) text

end SqlWire.Pem
