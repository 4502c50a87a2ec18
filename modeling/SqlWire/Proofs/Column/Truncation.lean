import SqlWire.Proofs.Column.Numerals
import SqlWire.Proofs.Floating.Conversion

/-!
# Integers of floating-point numbers

A field that holds the bits of a floating-point number is read as an integer by cutting the number
off at the point.  Every number with an integer part in the bounds of the kind gives that integer,
and everything else, infinities and what is not a number included, overflows:
`Column.decode_integerPart`.
-/

namespace SqlWire

/-- The format of a type of floating-point numbers. -/
def WireType.format? : WireType → Option Format
  | float => some .binary32
  | double => some .binary64
  | _ => none

namespace Number

variable {x : Double} {q : ℚ} {i : ℤ}

theorem abs_lt_natAbs_integerPart
    (q : ℚ) :
  |q| < (integerPart q).natAbs + 1
  := by
  rw [Nat.cast_natAbs, Int.cast_abs, integerPart]
  split
  next hpositive =>
    have floor : (0 : ℚ) ≤ ⌊q⌋ := by exact_mod_cast Int.floor_nonneg.mpr hpositive
    rw [abs_of_nonneg hpositive, abs_of_nonneg floor]
    exact Int.lt_floor_add_one q
  next hnegative =>
    have below := Int.ceil_lt_add_one q
    have above := neg_le_abs (⌈q⌉ : ℚ)
    rw [abs_of_neg (not_le.mp hnegative)]
    linarith

/-- An integer part of fewer than 96 bits is far from the reach of integers. -/
theorem truncate_eq_ok
    (hq : q ∈ x.number?) (hfits : (integerPart q).natAbs < 2 ^ 96) (target : String) :
  truncate x target = .ok (integerPart q)
  := by
  have inside : ¬ x.datum.reaches integerReach = true := by
    rw [Datum.reaches_eq_true_iff, Double.number?_datum]
    rintro ⟨q', hq', hreach⟩
    obtain rfl := Option.mem_unique hq hq'
    have bits : ((integerPart q).natAbs : ℚ) + 1 ≤ 2 ^ 96 := by exact_mod_cast hfits
    have reach : (2 : ℚ) ^ 96 ≤ integerReach := by norm_num [integerReach]
    have magnitude := abs_lt_natAbs_integerPart q
    linarith
  rw [truncate, Datum.truncate?_eq, Double.number?_datum, hq]
  exact if_neg inside

theorem exists_of_truncate
    {target : String} (h : truncate x target = .ok i) :
  ∃ q ∈ x.number?, integerPart q = i
  := by
  rw [truncate, Datum.truncate?_eq, Double.number?_datum] at h
  split at h
  next i' hnumber =>
    split at h <;> cases h
    rwa [Option.map_eq_some_iff] at hnumber
  next => cases h

theorem failsWith_truncate_overflow
    (x : Double) (target : String) :
  FailsWith (·.kind = .overflow) (truncate x target)
  := by
  rw [truncate]
  split
  · split
    · exact failsWith_error rfl
    · apply failsWith_ok
  · exact failsWith_error rfl

end Number

namespace Column

variable {c : Column} {target : Target} {least greatest : ℤ} {f : Format} {field : Bytes}

/-- A field of floating-point numbers is read as the integer part of a number of eight bytes. -/
theorem exists_run_readInteger
    (hf : c.type.format? = some f) (hfield : c.type.binaryWidth = some field.length)
    (name : String) :
  ∃ x : Double, x.number? = f.number? field.littleEndian ∧
    (c.readInteger .binary field.length name).run field = Number.truncate x name
  := by
  cases htype : c.type <;> rw [htype] at hf hfield <;> cases hf
  case float =>
    have read := (Reader.reads_uint_of_length (Option.some.inj hfield).symm).map Single.ofBits
    refine ⟨(Single.ofBits field.littleEndian).toDouble, ?_, ?_⟩
    · rw [Single.number?_toDouble, Single.number?_ofBits]
    · simp only [readInteger, readIntegerBinary, htype]
      rw [Reader.run_bind_lift, Reader.single, read.run]
      rfl
  case double =>
    have read := (Reader.reads_uint_of_length (Option.some.inj hfield).symm).map Double.ofBits
    refine ⟨.ofBits field.littleEndian, Double.number?_ofBits _, ?_⟩
    simp only [readInteger, readIntegerBinary, htype]
    rw [Reader.run_bind_lift, Reader.double, read.run]
    rfl

/-- A floating-point number is read as its integer part, if that is in the bounds of the kind; and
if there is none in them, the field overflows. -/
theorem decode_integerPart
    (hf : c.type.format? = some f) (ht : target.bounds? = some (least, greatest))
    (hfield : c.type.binaryWidth = some field.length) :
  let fits (q : ℚ) : Prop := least ≤ Number.integerPart q ∧ Number.integerPart q ≤ greatest
  (∀ q ∈ f.number? field.littleEndian, fits q →
    ∃ v, c.decode .binary target field = .ok v ∧ v.target? = some target ∧
      v.integer? = some (Number.integerPart q)) ∧
  ((∀ q ∈ f.number? field.littleEndian, ¬ fits q) →
    ∃ e, c.decode .binary target field = .error e ∧ e.kind = .overflow)
  := by
  intro fits
  have family : c.family = .float := by
    cases htype : c.type <;> rw [htype] at hf <;> cases hf <;> rw [Column.family, htype]
  have admitted : c.admits target = true := by
    rw [admits_eq, family]
    cases target <;> first | rfl | cases ht
  have unlike : c.type ≠ .bit := by
    intro hbit
    rw [hbit] at hf
    cases hf
  obtain ⟨x, hnumber, hread⟩ := exists_run_readInteger hf hfield target.name
  rw [decode, if_pos admitted, readAs_eq_readNarrow ht (fun _ => unlike), Reader.run_map,
    Column.readNarrow, Reader.run_bind_lift, hread, ← hnumber]
  constructor
  · intro q hq hfits
    rw [Number.truncate_eq_ok hq (Target.natAbs_lt_of_bounds? ht hfits)]
    exact (Target.narrow_ofInteger ht (Number.integerPart q)).1 hfits
  · intro hbeyond
    -- the number overflows before it is cut off, or its integer part does afterwards
    cases htruncate : Number.truncate x target.name with
    | error e => exact ⟨e, rfl, Number.failsWith_truncate_overflow x target.name e htruncate⟩
    | ok i =>
      obtain ⟨q, hq, rfl⟩ := Number.exists_of_truncate htruncate
      exact (Target.narrow_ofInteger ht (Number.integerPart q)).2 (hbeyond q hq)

/-- A negative fraction is zero even where there are no signs, and the number after the greatest
integer of eight bytes overflows. -/
theorem decode_integerPart_fraction :
  let c := ofNameAndType "x" .double
  let fraction : Bytes := [0, 0, 0, 0, 0, 0, 0xE8, 0xBF]
  let beyond : Bytes := [0, 0, 0, 0, 0, 0, 0xE0, 0x43]
  c.type.format? = some .binary64 ∧
    Format.binary64.number? fraction.littleEndian = some (-3 / 4) ∧
    Format.binary64.number? beyond.littleEndian = some (2 ^ 63) ∧
    (∃ v, c.decode .binary .uint64 fraction = .ok v ∧ v.target? = some .uint64 ∧
      v.integer? = some 0) ∧
    ∃ e, c.decode .binary .int64 beyond = .error e ∧ e.kind = .overflow
  := by
  intro c fraction beyond
  have small : Format.binary64.number? fraction.littleEndian = some (-3 / 4) := by
    have datum : Format.binary64.datum fraction.littleEndian = .finite true (3 * 2 ^ 51) (-53) := by
      decide
    rw [← Format.number?_datum, datum]
    norm_num [Datum.number?]
  have large : Format.binary64.number? beyond.littleEndian = some (2 ^ 63) := by
    have datum : Format.binary64.datum beyond.littleEndian = .finite false (2 ^ 52) 11 := by
      decide
    rw [← Format.number?_datum, datum]
    norm_num [Datum.number?]
  have none : Number.integerPart (-3 / 4) = 0 := by norm_num [Number.integerPart]
  have many : Number.integerPart (2 ^ 63) = 2 ^ 63 := by norm_num [Number.integerPart]
  have inside : 0 ≤ Number.integerPart (-3 / 4) ∧ Number.integerPart (-3 / 4) ≤ 2 ^ 64 - 1 := by
    rw [none]
    decide
  have outside : ∀ q ∈ Format.binary64.number? beyond.littleEndian,
      ¬ (-2 ^ 63 ≤ Number.integerPart q ∧ Number.integerPart q ≤ 2 ^ 63 - 1) := by
    rw [large]
    rintro _ ⟨⟩
    rw [many]
    decide
  have format : c.type.format? = some .binary64 := rfl
  have unsigned : Target.uint64.bounds? = some (0, 2 ^ 64 - 1) := rfl
  have signed : Target.int64.bounds? = some (-2 ^ 63, 2 ^ 63 - 1) := rfl
  have width : c.type.binaryWidth = some fraction.length := rfl
  have width' : c.type.binaryWidth = some beyond.length := rfl
  have zero := (decode_integerPart format unsigned width).1 _ small inside
  have overflow := (decode_integerPart format signed width').2 outside
  rw [none] at zero
  exact ⟨format, small, large, zero, overflow⟩

end Column

end SqlWire
