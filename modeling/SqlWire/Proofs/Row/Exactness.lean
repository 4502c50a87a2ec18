import Mathlib.Data.Nat.Bitwise
import SqlWire.Proofs.Row.Splitting

/-!
# Rows hold the fields of their payloads, and no others

In both forms the payload of some fields is split into exactly these, whatever follows it, and no
payload that is cut short is a row; and every row has a field for each of its columns, whatever
payload it is of: `Row.ofPayload_fields`.  The bitmap of a payload in binary form has a bit for each
field behind its first two, `Row.bit_bitmapOf`.
-/

namespace SqlWire.Row

/-! ### Bitmaps -/

@[simp] theorem length_bitmapOf
    (w : Nat) (bits : List Bool) :
  (bitmapOf w bits).length = w
  := by
  induction w generalizing bits with
  | zero => rfl
  | succ w ih => rw [bitmapOf, List.length_cons, ih]

/-- The number whose binary digits are the bits, lowest first. -/
def binaryNumber (bits : List Bool) : Nat :=
  bits.foldr (fun b n => 2 * n + b.toNat) 0

theorem binaryNumber_cons
    (b : Bool) (bits : List Bool) :
  binaryNumber (b :: bits) = 2 * binaryNumber bits + b.toNat
  :=
  rfl

theorem testBit_binaryNumber
    (bits : List Bool) (i : Nat) :
  (binaryNumber bits).testBit i = bits.getD i false
  := by
  induction bits generalizing i with
  | nil => exact Nat.zero_testBit i
  | cons b bits ih =>
    have hb : b.toNat < 2 := Bool.toNat_lt b
    rw [binaryNumber_cons]
    cases i with
    | zero =>
      have lowest : (2 * binaryNumber bits + b.toNat) % 2 = b.toNat := by omega
      rw [Nat.testBit_zero, lowest, List.getD_cons_zero]
      cases b <;> rfl
    | succ i =>
      have others : (2 * binaryNumber bits + b.toNat) / 2 = binaryNumber bits := by omega
      rw [Nat.testBit_succ, others, ih, List.getD_cons_succ]

theorem binaryNumber_lt
    (bits : List Bool) :
  binaryNumber bits < 2 ^ bits.length
  := by
  induction bits with
  | nil => exact Nat.one_pos
  | cons b bits ih =>
    have hb : b.toNat < 2 := Bool.toNat_lt b
    rw [binaryNumber_cons, List.length_cons, Nat.pow_succ]
    omega

/-- The bits of a bitmap that is long enough are those that it is made of. -/
theorem bit_bitmapOf
    {w i : Nat} (bits : List Bool) (h : i < 8 * w) :
  bit (bitmapOf w bits) i = bits.getD i false
  := by
  induction w generalizing bits i with
  | zero => contradiction
  | succ w ih =>
    rw [bit, bitmapOf, ← binaryNumber]
    rcases Nat.lt_or_ge i 8 with hi | hi
    · have first : i / 8 = 0 := by omega
      have place : i % 8 = i := by omega
      have small : binaryNumber (bits.take 8) < 2 ^ 8 := by
        apply Nat.lt_of_lt_of_le (binaryNumber_lt _)
        apply Nat.pow_le_pow_right (by decide) (List.length_take_le _ _)
      rw [first, place, List.getD_cons_zero, UInt8.toNat_ofNat_of_lt' small, testBit_binaryNumber,
        List.getD_eq_getElem?_getD, List.getElem?_take_of_lt hi, ← List.getD_eq_getElem?_getD]
    · obtain ⟨j, rfl⟩ := Nat.exists_eq_add_of_le hi
      have later : (8 + j) / 8 = j / 8 + 1 := by omega
      have place : (8 + j) % 8 = j % 8 := by omega
      have rest := ih (i := j) (bits.drop 8) (by omega)
      rw [bit] at rest
      rw [later, place, List.getD_cons_succ, rest, List.getD_eq_getElem?_getD,
        List.getElem?_drop, ← List.getD_eq_getElem?_getD]

/-! ### Payloads -/

/-- The payload of fields in the given form. -/
def payload (p : Protocol) (cs : Columns) (fields : List (Option Bytes)) : Bytes :=
  match p with
  | .text => textPayload fields
  | .binary => binaryPayload cs fields

/-- The reading of a payload's fields in the given form. -/
def fieldsReader (p : Protocol) (cs : Columns) : Reader (List (Option Bytes)) :=
  match p with
  | .text => readTextFields cs
  | .binary => readBinary cs

theorem ofPayload_eq
    (p : Protocol) (cs : Columns) (bs : Bytes) :
  ofPayload p cs bs = (fieldsReader p cs).run bs >>= fun fields => .ok ⟨cs, fields, p⟩
  := by
  cases p <;> rfl

/-- The field can stand in a row of the given form: in both its length has eight bytes, and in
binary form it is the one that the column's type asks for, if it asks for one. -/
def CanStand (p : Protocol) (c : Column) (field : Option Bytes) : Prop :=
  match p with
  | .text => ∀ bs ∈ field, bs.length < 2 ^ 64
  | .binary => CanHold c field

theorem reads_readTextFields
    {cs : Columns} {fields : List (Option Bytes)}
    (hfields : List.Forall₂ (CanStand .text) cs fields) :
  (readTextFields cs).Reads (textPayload fields) fields
  := by
  induction hfields with
  | nil => exact Reader.reads_pure []
  | @cons c field cs fields hfield _ ih =>
    rw [textPayload, List.flatMap_cons, ← textPayload]
    cases field with
    | none => exact Reader.reads_lengthEncodedBytes_none.bind (ih.map (none :: ·))
    | some bs =>
      exact (Reader.reads_lengthEncodedBytes (hfield bs rfl)).bind (ih.map (some bs :: ·))

theorem reads_binaryPayload
    {cs : Columns} {fields : List (Option Bytes)} (hfields : List.Forall₂ CanHold cs fields) :
  (readBinary cs).Reads (binaryPayload cs fields) fields
  := by
  apply reads_readBinary hfields (length_bitmapOf ((cs.length + 9) / 8) _)
  apply List.ext_getElem
  · rw [List.length_map, List.length_map, List.length_range']
  · intro i _ h
    rw [List.length_map] at h
    have inside : 2 + 1 * i < 8 * ((cs.length + 9) / 8) := by
      rw [hfields.length_eq]
      omega
    rw [List.getElem_map, List.getElem_range', bit_bitmapOf _ inside, Nat.one_mul,
      Nat.add_comm 2]
    rw [List.getElem_map, List.cons_append, List.cons_append, List.getD_cons_succ,
      List.getD_cons_succ, List.nil_append, List.getD_eq_getElem?_getD, List.getElem?_map,
      List.getElem?_eq_getElem h]
    rfl

/-! ### Payloads cut short -/

theorem settled_readTextFields
    (cs : Columns) :
  (readTextFields cs).Settled
  := by
  induction cs with
  | nil => apply Reader.settled_pure
  | cons c cs ih =>
    apply Reader.settled_lengthEncodedBytes.bind
    intro field
    exact ih.map (field :: ·)

theorem settled_readBinaryField
    (c : Column) :
  (readBinaryField c).Settled
  := by
  rw [readBinaryField]
  split
  · apply Reader.settled_bytes
  · apply Reader.settled_lengthEncodedBytes.bind
    rintro (_ | bs)
    · apply Reader.settled_fail
    · apply Reader.settled_pure

theorem settled_readBinaryFields
    (bitmap : Bytes) (i : Nat) (cs : Columns) :
  (readBinaryFields bitmap i cs).Settled
  := by
  induction cs generalizing i with
  | nil => apply Reader.settled_pure
  | cons c cs ih =>
    rw [readBinaryFields]
    split
    · exact (ih _).map (none :: ·)
    · apply (settled_readBinaryField c).bind
      intro field
      exact (ih _).map (some field :: ·)

theorem settled_fieldsReader
    (p : Protocol) (cs : Columns) :
  (fieldsReader p cs).Settled
  := by
  cases p with
  | text => apply settled_readTextFields
  | binary =>
    apply Reader.settled_byte.bind
    intro header
    split
    · apply (Reader.settled_bytes _).bind
      intro bitmap
      apply settled_readBinaryFields
    · apply Reader.settled_fail

/-! ### Rows of any payload -/

theorem length_readTextFields
    {cs : Columns} {fields : List (Option Bytes)} {c c' : Cursor}
    (h : readTextFields cs c = (.ok fields, c')) :
  fields.length = cs.length
  := by
  induction cs generalizing fields c c' with
  | nil =>
    cases h
    rfl
  | cons column cs ih =>
    obtain ⟨field, c₁, -, h⟩ := Reader.bind_apply_eq_ok_iff.mp h
    obtain ⟨others, c₂, h, hpure⟩ := Reader.bind_apply_eq_ok_iff.mp h
    cases hpure
    rw [List.length_cons, List.length_cons, ih h]

theorem length_readBinaryFields
    {bitmap : Bytes} {i : Nat} {cs : Columns} {fields : List (Option Bytes)} {c c' : Cursor}
    (h : readBinaryFields bitmap i cs c = (.ok fields, c')) :
  fields.length = cs.length
  := by
  induction cs generalizing i fields c c' with
  | nil =>
    cases h
    rfl
  | cons column cs ih =>
    rw [readBinaryFields] at h
    split at h
    · obtain ⟨others, c₁, h, hpure⟩ := Reader.bind_apply_eq_ok_iff.mp h
      cases hpure
      rw [List.length_cons, List.length_cons, ih h]
    · obtain ⟨field, c₁, -, h⟩ := Reader.bind_apply_eq_ok_iff.mp h
      obtain ⟨others, c₂, h, hpure⟩ := Reader.bind_apply_eq_ok_iff.mp h
      cases hpure
      rw [List.length_cons, List.length_cons, ih h]

theorem length_fieldsReader
    {p : Protocol} {cs : Columns} {fields : List (Option Bytes)} {c c' : Cursor}
    (h : fieldsReader p cs c = (.ok fields, c')) :
  fields.length = cs.length
  := by
  cases p with
  | text => apply length_readTextFields h
  | binary =>
    obtain ⟨header, c₁, -, h⟩ := Reader.bind_apply_eq_ok_iff.mp h
    split at h
    · obtain ⟨bitmap, c₂, -, h⟩ := Reader.bind_apply_eq_ok_iff.mp h
      apply length_readBinaryFields h
    · cases h

theorem reads_payload
    {p : Protocol} {cs : Columns} {fields : List (Option Bytes)}
    (hfields : List.Forall₂ (CanStand p) cs fields) :
  (fieldsReader p cs).Reads (payload p cs fields) fields
  := by
  cases p with
  | text => apply reads_readTextFields hfields
  | binary => apply reads_binaryPayload hfields

/-- The payload of fields is split into exactly these, whatever follows it, and what is left of it
when bytes are missing at its end is not split.  A row has a field for each column, whatever
payload it is of, so that there is one wherever there is a column to read it by, and the other way
around. -/
theorem ofPayload_fields
    (p : Protocol) (cs : Columns) :
  (∀ fields, List.Forall₂ (CanStand p) cs fields →
    (∀ more, ofPayload p cs (payload p cs fields ++ more) = .ok ⟨cs, fields, p⟩) ∧
    (∀ (i : Nat) (h : i < fields.length), isNull ⟨cs, fields, p⟩ i = fields[i].isNone) ∧
    ∀ before after, payload p cs fields = before ++ after → after ≠ [] →
      ∃ e, ofPayload p cs before = .error e) ∧
  ∀ bs row, ofPayload p cs bs = .ok row →
    row.columns = cs ∧ row.length = cs.length ∧ ∀ i, (∃ c, row.column i = .ok c) ↔ i < row.length
  := by
  constructor
  · intro fields hfields
    have read := reads_payload hfields
    refine ⟨?_, ?_, ?_⟩
    · intro more
      rw [ofPayload_eq, read.run_append]
      rfl
    · intro i h
      rw [isNull, List.getElem?_eq_getElem h]
      cases fields[i] <;> rfl
    · intro before after hpayload hafter
      rw [hpayload] at read
      obtain ⟨e, he⟩ := (settled_fieldsReader p cs).exists_error read hafter
      use e
      rw [ofPayload_eq, he]
      rfl
  · intro bs row hrow
    rw [ofPayload_eq] at hrow
    cases hrun : (fieldsReader p cs).run bs with
    | error e =>
      rw [hrun] at hrow
      cases hrow
    | ok fields =>
      rw [hrun] at hrow
      cases hrow
      have length := length_fieldsReader (Prod.ext hrun rfl)
      refine ⟨rfl, length, ?_⟩
      intro i
      rw [Row.length, length, column]
      rcases Nat.lt_or_ge i cs.length with hi | hi
      · simp [hi]
      · simp [Nat.not_lt.mpr hi]

/-- Eight columns, the seventh of which has its bit in the second byte of the bitmap. -/
theorem ofPayload_fields_wide :
  let cs : Columns := List.replicate 6 (.ofNameAndType "n" .tiny) ++
    List.replicate 2 (.ofNameAndType "b" .blob)
  let fields : List (Option Bytes) :=
    [some [1], none, some [3], some [4], some [5], some [6], none, some [7, 8]]
  List.Forall₂ (CanStand .binary) cs fields ∧
  ofPayload .binary cs [0, 0x08, 0x01, 1, 3, 4, 5, 6, 2, 7, 8, 9] = .ok ⟨cs, fields, .binary⟩ ∧
  ∃ e, ofPayload .binary cs [0, 0x08, 0x01, 1, 3, 4, 5, 6, 2, 7] = .error e
  := by
  intro cs fields
  have null (c : Column) : CanStand .binary c none := nofun
  have byte (b : UInt8) : CanStand .binary (.ofNameAndType "n" .tiny) (some [b]) := by
    rintro _ ⟨⟩
    refine ⟨(by decide : 1 < 2 ^ 64), ?_⟩
    rintro _ ⟨⟩
    rfl
  have bytes : CanStand .binary (.ofNameAndType "b" .blob) (some [7, 8]) := by
    rintro _ ⟨⟩
    refine ⟨by decide, ?_⟩
    rintro _ ⟨⟩
  have hfields : List.Forall₂ (CanStand .binary) cs fields :=
    .cons (byte 1) (.cons (null _) (.cons (byte 3) (.cons (byte 4) (.cons (byte 5)
      (.cons (byte 6) (.cons (null _) (.cons bytes .nil)))))))
  have hpayload : payload .binary cs fields = [0, 0x08, 0x01, 1, 3, 4, 5, 6, 2, 7, 8] := by decide
  obtain ⟨hread, -, hcut⟩ := (ofPayload_fields .binary cs).1 fields hfields
  rw [hpayload] at hread hcut
  exact ⟨hfields, hread [9], hcut _ [8] rfl (List.cons_ne_nil _ _)⟩

end SqlWire.Row
