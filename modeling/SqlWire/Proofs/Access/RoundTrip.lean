import Mathlib.Data.List.Forall2
import SqlWire.Proofs.Access.Basic
import SqlWire.Proofs.Layout
import SqlWire.Writer

/-!
# Scripts are read back

An `Item` is one thing that is written to a payload; `Item.ReadAs` says by which accesses it is read
and what they then give, which for a number is itself or, read with a sign, the integer whose two's
complement it is.  Items written one after another are read back by accesses that match them one by
one, and what is behind the items is left unread, `Access.readAll_writeAll`.
-/

namespace SqlWire

/-- What is written to a payload at a time. -/
inductive Item where
  | number (w : Nat) (n : BitVec (8 * w))
  | single (x : Single)
  | double (x : Double)
  | bytes (bs : Bytes)
  | lengthEncoded (n : UInt64)
  | lengthEncodedBytes (bs : Bytes) (h : bs.length < 2 ^ 64)
  | nulTerminated (bs : Bytes) (h : 0 ∉ bs)

namespace Item

/-- The bytes of an item. -/
def toBytes : Item → Bytes
  | number w n => Bytes.ofNatLE w n.toNat
  | single x => Layout.single x
  | double x => Layout.double x
  | bytes bs => bs
  | lengthEncoded n => Layout.lengthEncoded n.toNat
  | lengthEncodedBytes bs _ => Layout.lengthEncodedBytes bs
  | nulTerminated bs _ => Layout.nulTerminated bs

/-- The writer of items, one behind the other. -/
def writeAll : List Item → Writer Unit
  | [] => pure ()
  | i :: items => do
    Writer.put i.toBytes
    writeAll items

/-- The access reads the item, and gives this. -/
inductive ReadAs : Item → (a : Access) → a.Answer → Prop
  | byte (b : UInt8) : ReadAs (.number 1 b.toBitVec) .byte b
  | unsigned (w : Nat) (n : BitVec (8 * w)) : ReadAs (.number w n) (.uint w) n.toNat
  | signed (w : Nat) (n : BitVec (8 * w)) : ReadAs (.number w n) (.sint w) n.toInt
  | single (x : Single) : ReadAs (.single x) .single x
  | double (x : Double) : ReadAs (.double x) .double x
  | bytes (bs : Bytes) : ReadAs (.bytes bs) (.bytes bs.length) bs
  | lengthEncoded (n : UInt64) : ReadAs (.lengthEncoded n) .lengthEncoded (some n.toNat)
  | lengthEncodedBytes (bs : Bytes) (h : bs.length < 2 ^ 64) :
    ReadAs (.lengthEncodedBytes bs h) .lengthEncodedBytes (some bs)
  | nulTerminated (bs : Bytes) (h : 0 ∉ bs) : ReadAs (.nulTerminated bs h) .untilNul bs

/-! ### One item -/

theorem reads_number
    {w : Nat} (n : BitVec (8 * w)) :
  (Reader.uint w).Reads (Bytes.ofNatLE w n.toNat) n.toNat
  := by
  apply Reader.reads_uint_of_lt
  rw [← Nat.pow_mul 2 8 w]
  apply n.isLt

theorem ReadAs.reads
    {i : Item} {a : Access} {answer : a.Answer} (h : ReadAs i a answer) :
  a.read.Reads i.toBytes answer
  := by
  cases h with
  | byte b =>
    have written : Bytes.ofNatLE 1 b.toNat = [b] := congrArg (fun b => [b]) UInt8.ofNat_toNat
    change Reader.byte.Reads (Bytes.ofNatLE 1 b.toNat) b
    rw [written]
    apply Reader.reads_byte
  | unsigned w n => apply reads_number
  | signed w n =>
    have read := (reads_number n).map (Bytes.signed w)
    rw [Bytes.signed_toNat] at read
    apply read
  | single x => apply Reader.reads_single
  | double x => apply Reader.reads_double
  | bytes bs => apply Reader.reads_bytes rfl
  | lengthEncoded n => apply Reader.reads_lengthEncoded n.toNat_lt
  | lengthEncodedBytes bs h => apply Reader.reads_lengthEncodedBytes h
  | nulTerminated bs h => apply Reader.reads_untilNul h

/-! ### Scripts -/

/-- Items are written behind what is in the buffer. -/
theorem writeAll_apply
    (items : List Item) (out : Bytes) :
  writeAll items out = (.ok (), out ++ items.flatMap toBytes)
  := by
  induction items generalizing out with
  | nil =>
    rw [List.flatMap_nil, List.append_nil]
    rfl
  | cons i items ih =>
    rw [List.flatMap_cons, ← List.append_assoc]
    apply ih

end Item

namespace Access

/-- An access with what it gives. -/
abbrev Answered : Type :=
  Σ a : Access, a.Answer

/-- The outcome in which the answer is given. -/
def Answered.outcome (r : Answered) : Outcome :=
  ⟨r.1, .ok r.2⟩

/-- Items in front of the cursor are read by the accesses that match them, up to what is behind. -/
theorem readAll_items
    {items : List Item} {answers : List Answered}
    (h : List.Forall₂ (fun i r => Item.ReadAs i r.1 r.2) items answers) (position : Nat)
    (rest : Bytes) :
  readAll (answers.map Sigma.fst) ⟨position, items.flatMap Item.toBytes ++ rest⟩ =
    (answers.map Answered.outcome, ⟨position + (items.flatMap Item.toBytes).length, rest⟩)
  := by
  induction h generalizing position with
  | nil => rfl
  | @cons i r items answers hread _ ih =>
    rw [List.map_cons, List.map_cons, List.flatMap_cons, List.append_assoc, readAll,
      hread.reads position]
    simp only [ih, List.length_append, Nat.add_assoc]
    rfl

/-- What is written to an empty buffer, with anything behind it, is read back in order by accesses
that match the items, and only what is behind it is left. -/
theorem readAll_writeAll
    {items : List Item} {answers : List Answered}
    (h : List.Forall₂ (fun i r => Item.ReadAs i r.1 r.2) items answers) (rest : Bytes) :
  ∃ out, Item.writeAll items [] = (.ok (), out) ∧
    readAll (answers.map Sigma.fst) (.ofBytes (out ++ rest)) =
      (answers.map Answered.outcome, ⟨out.length, rest⟩)
  := by
  use items.flatMap Item.toBytes
  constructor
  · apply Item.writeAll_apply
  · rw [Cursor.ofBytes, readAll_items h, Nat.zero_add]

/-- A number read with a sign, a length that is written like the NULL marker would be, the marker
inside of a run, and bytes that look like the beginning of a length. -/
theorem readAll_writeAll_marks :
  let items : List Item := [.number 3 0xFFFFFE#24, .lengthEncoded 251,
    .nulTerminated [0xFB] (by decide), .lengthEncodedBytes [0xFE, 0] (by decide)]
  let answers : List Answered := [⟨.sint 3, (-2 : Int)⟩, ⟨.lengthEncoded, some (251 : Nat)⟩,
    ⟨.untilNul, ([0xFB] : Bytes)⟩, ⟨.lengthEncodedBytes, some ([0xFE, 0] : Bytes)⟩]
  List.Forall₂ (fun i r => Item.ReadAs i r.1 r.2) items answers ∧
    readAll [.sint 3, .lengthEncoded, .untilNul, .lengthEncodedBytes]
      (.ofBytes [0xFE, 0xFF, 0xFF, 0xFC, 251, 0, 0xFB, 0, 2, 0xFE, 0, 9]) =
    (answers.map Answered.outcome, ⟨11, [9]⟩)
  := by
  intro items answers
  have matched : List.Forall₂ (fun i r => Item.ReadAs i r.1 r.2) items answers :=
    .cons (.signed 3 0xFFFFFE#24) (.cons (.lengthEncoded 251) (.cons (.nulTerminated [0xFB] _)
      (.cons (.lengthEncodedBytes [0xFE, 0] _) .nil)))
  obtain ⟨out, hwrite, hread⟩ := readAll_writeAll matched [9]
  obtain rfl : [0xFE, 0xFF, 0xFF, 0xFC, 251, 0, 0xFB, 0, 2, 0xFE, 0] = out :=
    congrArg Prod.snd hwrite
  exact ⟨matched, hread⟩

end Access

end SqlWire
