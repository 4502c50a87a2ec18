import SqlWire.Proofs.BitField
import SqlWire.Proofs.Column.Numerals

/-!
# Bit fields as values

Whatever a bit field is read as shows one number, the one that its bytes make, most significant
first: its text in base two, and its truth value, integers and decimal as far as it fits into 64
bits, `Column.decode_bitField`.  The integer of one byte is not of this kind: it is the first byte
of the field.
-/

namespace SqlWire.Column

variable {c : Column} {p : Protocol} {target : Target} {least greatest : Int} {field : Bytes}

/-! ### Readers of bit fields -/

theorem family_eq_bit
    (hc : c.type = .bit) :
  c.family = .bit
  := by
  rw [Column.family, hc]

theorem run_readText_bit
    (hc : c.type = .bit) (p : Protocol) (field : Bytes) :
  (c.readText p field.length).run field = .ok (BitField.literal field)
  := by
  simp only [readText, family_eq_bit hc]
  exact ((Reader.reads_bytes rfl).map BitField.literal).run

theorem run_readBytes_bit
    (hc : c.type = .bit) (field : Bytes) :
  (c.readBytes field.length).run field = .ok field
  := by
  simp only [readBytes, family_eq_bit hc]
  exact (Reader.reads_bytes rfl).run

theorem run_readBool_bit
    (hc : c.type = .bit) (p : Protocol) (field : Bytes) :
  (c.readBool p field.length).run field = .ok (BitField.value field != 0)
  := by
  simp only [readBool, family_eq_bit hc]
  exact ((Reader.reads_bytes rfl).map fun bs => BitField.value bs != 0).run

theorem run_readDecimal_bit
    (hc : c.type = .bit) (p : Protocol) (field : Bytes) :
  (c.readDecimal p field.length).run field = .ok (.ofUInt64 (BitField.value field))
  := by
  simp only [readDecimal, family_eq_bit hc]
  exact ((Reader.reads_bytes rfl).map fun bs => Decimal.ofUInt64 (BitField.value bs)).run

theorem run_readInteger_bit
    (hc : c.type = .bit) (p : Protocol) (field : Bytes) (name : String) :
  (c.readInteger p field.length name).run field = .ok ((BitField.value field).toNat : Int)
  := by
  cases p <;> simp only [readInteger, readIntegerBinary, readIntegerText, hc, family_eq_bit hc] <;>
    exact ((Reader.reads_bytes rfl).map fun bs => ((BitField.value bs).toNat : Int)).run

/-! ### Kinds -/

theorem decode_bit_eq_run
    (hc : c.type = .bit) (ht : Family.bit.admits target = true) (p : Protocol) (field : Bytes) :
  c.decode p target field = (c.readAs p target field.length).run field
  := by
  rw [decode, if_pos]
  rw [admits_eq, family_eq_bit hc, ht]

/-- An integer of a kind is the number of the field, if that is in the bounds of the kind. -/
theorem decode_bit_integer
    (hc : c.type = .bit) (ht : target.bounds? = some (least, greatest)) (hbyte : target ≠ .int8)
    (p : Protocol) (field : Bytes) :
  c.decode p target field =
    Number.narrow least greatest (BitField.value field).toNat target.name >>= fun i =>
      .ok (target.ofInteger i)
  := by
  have admitted : Family.bit.admits target = true := by
    cases target <;> first | rfl | cases ht
  rw [decode_bit_eq_run hc admitted, readAs_eq_readNarrow ht (fun h => absurd h hbyte),
    Reader.run_map, readNarrow, Reader.run_bind_lift, run_readInteger_bit hc]
  rfl

/-- Every reading of a bit field shows the number that its bytes make, most significant first. -/
theorem decode_bitField
    {c : Column} (hc : c.type = .bit) (p : Protocol) (field : Bytes) :
  let n := field.bigEndian
  BitField.literal field =
      "b'" ++ (if n = 0 then "" else String.ofList (Nat.toDigits 2 n)) ++ "'" ∧
    c.decode p .text field = .ok (.text (BitField.literal field)) ∧
    c.decode p .bytes field = .ok (.bytes field) ∧
    (n < 2 ^ 64 →
      c.decode p .bool field = .ok (.bool (n != 0)) ∧
      (∃ d : Decimal, c.decode p .decimal field = .ok (.decimal d) ∧
        d.negative = false ∧ d.coefficient = n ∧ d.scale = 0) ∧
      ∀ target least greatest, target.bounds? = some (least, greatest) → target ≠ .int8 →
        ((n : Int) ≤ greatest →
          ∃ v, c.decode p target field = .ok v ∧ v.target? = some target ∧
            v.integer? = some (n : Int)) ∧
        (greatest < n → ∃ e, c.decode p target field = .error e ∧ e.kind = .overflow))
  := by
  intro n
  refine ⟨BitField.literal_eq field, ?_, ?_, ?_⟩
  · rw [decode_bit_eq_run hc rfl, readAs, Reader.run_map, run_readText_bit hc]
    rfl
  · rw [decode_bit_eq_run hc rfl, readAs, Reader.run_map, run_readBytes_bit hc]
    rfl
  intro hfits
  have number : (BitField.value field).toNat = n := by
    rw [BitField.toNat_value, Nat.mod_eq_of_lt hfits]
  refine ⟨?_, ?_, ?_⟩
  · have zero : (BitField.value field != 0) = (n != 0) := by
      rw [← number, Bool.eq_iff_iff, bne_iff_ne, bne_iff_ne, ne_eq, ne_eq, ← UInt64.toNat_inj]
      rfl
    rw [decode_bit_eq_run hc rfl, readAs, Reader.run_map, run_readBool_bit hc, zero]
    rfl
  · refine ⟨Decimal.ofUInt64 (BitField.value field), ?_, rfl, number, rfl⟩
    rw [decode_bit_eq_run hc rfl, readAs, Reader.run_map, run_readDecimal_bit hc]
    rfl
  · intro target least greatest ht hbyte
    rw [decode_bit_integer hc ht hbyte, number]
    have nonneg : least ≤ n := by
      cases target <;> cases ht <;> omega
    constructor
    · intro hrange
      exact (Target.narrow_ofInteger ht n).1 ⟨nonneg, hrange⟩
    · intro hrange
      exact (Target.narrow_ofInteger ht n).2 (by omega)

/-- A zero byte in front does not count, and a number of 17 bits overflows an integer of 16. -/
theorem decode_bitField_zero :
  let c := ofNameAndType "b" .bit
  let field : Bytes := [0, 1, 0x80, 5]
  c.type = .bit ∧ field.bigEndian = 98309 ∧
    c.decode .text .text field = .ok (.text "b'11000000000000101'") ∧
    c.decode .binary .bool field = .ok (.bool true) ∧
    (∃ v, c.decode .binary .int32 field = .ok v ∧ v.target? = some .int32 ∧
      v.integer? = some 98309) ∧
    ∃ e, c.decode .text .int16 field = .error e ∧ e.kind = .overflow
  := by
  intro c field
  have fits : field.bigEndian < 2 ^ 64 := by decide
  have text := decode_bitField (c := c) rfl .text field
  have binary := decode_bitField (c := c) rfl .binary field
  refine ⟨rfl, by decide, ?_, ?_, ?_, ?_⟩
  · have literal : BitField.literal field = "b'11000000000000101'" := by
      rw [text.1]
      decide +kernel
    rw [text.2.1, literal]
  · exact (binary.2.2.2 fits).1
  · exact ((binary.2.2.2 fits).2.2 .int32 _ _ rfl (by decide)).1 (by decide)
  · exact ((text.2.2.2 fits).2.2 .int16 _ _ rfl (by decide)).2 (by decide)

end SqlWire.Column
