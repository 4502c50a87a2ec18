import Mathlib.Data.List.Forall2
import SqlWire.Proofs.Layout
import SqlWire.Row

/-!
# Rows in binary form are split into their fields

A field that has the width of its column's type, or comes behind its length, is told apart from what
follows it, whatever the column.  So a row is split where its fields meet, `Row.ofBinary_eq_ok`,
with every null field that the bitmap marks among them.
-/

namespace SqlWire.Row

/-- The field can stand in a row: its length has eight bytes, and is the one that the column's type
asks for, if it asks for one. -/
def CanHold (c : Column) (field : Option Bytes) : Prop :=
  ∀ bs ∈ field, bs.length < 2 ^ 64 ∧ ∀ w ∈ c.type.binaryWidth, bs.length = w

/-- The bytes of a field in a row; a null field has none. -/
def fieldBytes (c : Column) (field : Option Bytes) : Bytes :=
  (field.map (binaryField c)).getD []

theorem length_le_binaryField
    (c : Column) (bs : Bytes) :
  bs.length ≤ (binaryField c bs).length
  := by
  rw [binaryField]
  split
  · apply Nat.le_refl
  · rw [Layout.lengthEncodedBytes, List.length_append]
    apply Nat.le_add_left

theorem reads_readBinaryField
    {c : Column} {bs : Bytes} (h : CanHold c (some bs)) :
  (readBinaryField c).Reads (binaryField c bs) bs
  := by
  obtain ⟨hlength, hwidth⟩ := h bs rfl
  rw [readBinaryField, binaryField]
  split
  next w hw => exact Reader.reads_bytes (hwidth w hw)
  next =>
    apply (Reader.reads_lengthEncodedBytes hlength).bind_nil
    apply Reader.reads_pure bs

/-- From any column on, the fields are those marked as null and those behind each other. -/
theorem reads_readBinaryFields
    {bitmap : Bytes} {cs : Columns} {fields : List (Option Bytes)}
    (hfields : List.Forall₂ CanHold cs fields) {i : Nat}
    (hbits : (List.range' i fields.length).map (bit bitmap) = fields.map Option.isNone) :
  (readBinaryFields bitmap i cs).Reads (List.zipWith fieldBytes cs fields).flatten fields
  := by
  induction hfields generalizing i with
  | nil => exact Reader.reads_pure []
  | @cons c field cs fields hfield hfields ih =>
    rw [List.length_cons, List.range'_succ, List.map_cons, List.map_cons, List.cons.injEq] at hbits
    obtain ⟨hbit, hbits⟩ := hbits
    rw [List.zipWith_cons_cons, List.flatten_cons, readBinaryFields, hbit]
    cases field with
    | none => exact (ih hbits).map (none :: ·)
    | some bs => exact (reads_readBinaryField hfield).bind ((ih hbits).map (some bs :: ·))

/-- Behind the bitmap of their nulls the fields of a row are told apart. -/
theorem reads_readBinary
    {bitmap : Bytes} {cs : Columns} {fields : List (Option Bytes)}
    (hfields : List.Forall₂ CanHold cs fields)
    (hbitmap : bitmap.length = bitmapWidth cs.length)
    (hbits : (List.range' 2 fields.length).map (bit bitmap) = fields.map Option.isNone) :
  (readBinary cs).Reads (0 :: bitmap ++ (List.zipWith fieldBytes cs fields).flatten) fields
  :=
  (Reader.reads_byte 0).bind
    ((Reader.reads_bytes hbitmap).bind (reads_readBinaryFields hfields hbits))

theorem ofBinary_eq_ok
    {bitmap : Bytes} {cs : Columns} {fields : List (Option Bytes)}
    (hfields : List.Forall₂ CanHold cs fields)
    (hbitmap : bitmap.length = bitmapWidth cs.length)
    (hbits : (List.range' 2 fields.length).map (bit bitmap) = fields.map Option.isNone) :
  ofBinary cs (0 :: bitmap ++ (List.zipWith fieldBytes cs fields).flatten) =
    .ok ⟨cs, fields, .binary⟩
  := by
  rw [ofBinary, (reads_readBinary hfields hbitmap hbits).run]
  rfl

end SqlWire.Row
