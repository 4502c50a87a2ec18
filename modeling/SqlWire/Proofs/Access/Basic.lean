import SqlWire.Cursor

/-!
# Accesses to a payload

An `Access` is one thing that can be asked at a cursor; it has a type of answers, `Access.Answer`,
and a reader that gives them, `Access.read`.  A script of accesses goes on after a failure, from the
cursor that the failed access has left, `Access.readAll`.
-/

namespace SqlWire

/-- What can be asked at a cursor. -/
inductive Access where
  | position
  | remaining
  | has (n : Nat)
  | peek
  | skip (n : Nat)
  | byte
  | uint (w : Nat)
  | sint (w : Nat)
  | single
  | double
  | bytes (n : Nat)
  | text (n : Nat)
  | allBytes
  | untilNul
  | lengthEncoded
  | lengthEncodedBytes
  | lengthEncodedText
  deriving DecidableEq, Repr

namespace Access

/-- The values that an access gives. -/
def Answer : Access → Type
  | position | remaining | uint _ => Nat
  | has _ => Bool
  | peek | byte => UInt8
  | skip _ => Unit
  | sint _ => Int
  | single => Single
  | double => Double
  | bytes _ | allBytes | untilNul => Bytes
  | text _ => String
  | lengthEncoded => Option Nat
  | lengthEncodedBytes => Option Bytes
  | lengthEncodedText => Option String

/-- The reader of an access. -/
def read : (a : Access) → Reader a.Answer
  | position => Reader.position
  | remaining => Reader.remaining
  | has n => Reader.has n
  | peek => Reader.peek
  | skip n => Reader.skip n
  | byte => Reader.byte
  | uint w => Reader.uint w
  | sint w => Reader.sint w
  | single => Reader.single
  | double => Reader.double
  | bytes n => Reader.bytes n
  | text n => Reader.text n
  | allBytes => Reader.allBytes
  | untilNul => Reader.untilNul
  | lengthEncoded => Reader.lengthEncoded
  | lengthEncodedBytes => Reader.lengthEncodedBytes
  | lengthEncodedText => Reader.lengthEncodedText

/-- An access with its outcome. -/
abbrev Outcome : Type :=
  Σ a : Access, Except Error a.Answer

/-- The outcomes of accesses one after another, and the cursor in the end. -/
def readAll : List Access → Cursor → List Outcome × Cursor
  | [], c => ([], c)
  | a :: as, c =>
    let (outcome, c') := a.read c
    let (outcomes, c'') := readAll as c'
    (⟨a, outcome⟩ :: outcomes, c'')

end Access

end SqlWire
