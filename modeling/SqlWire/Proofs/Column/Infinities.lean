import SqlWire.Proofs.Column.Numerals
import SqlWire.Proofs.Floating.Reading

/-!
# Floating-point numbers that are too large

Reading a field as a floating-point number does not overflow.  A literal, or a number of eight
bytes, beyond the numbers of the kind is read as an infinity: `Column.decode_floating` says from
which magnitude on, and that besides literals the names of infinities, and of what is not a number,
are read.  So the outcome is a finite number or an overflow, `FiniteOrOverflow`, exactly below those
magnitudes.  The magnitude of a literal is that of the number it denotes, `Literal.abs_number`, or,
where its exponent is too long to be read whole, the product of its significand and power of ten.
-/

namespace SqlWire

/-- The finite number that a value of a floating-point kind is. -/
def Value.number? : Value → Option ℚ
  | float32 x => x.number?
  | float64 x => x.number?
  | _ => none

/-- The magnitudes of literals, and those of numbers of eight bytes, from which on a floating-point
kind has only infinities. -/
def Target.reach? : Target → Option (ℚ × ℚ)
  | float32 => some (2 ^ 128 - 2 ^ 103 - 2 ^ 74, 2 ^ 128 - 2 ^ 103)
  | float64 => some (2 ^ 1024 - 2 ^ 970, 2 ^ 1024 - 2 ^ 970)
  | _ => none

/-- The value of a floating-point kind that a number of eight bytes is. -/
def Target.ofDouble : Target → Double → Value
  | float32, x => .float32 x.toSingle
  | _, x => .float64 x

/-- The outcome is a finite number or an overflow. -/
def FiniteOrOverflow (outcome : Except Error Value) : Prop :=
  (∃ v, outcome = .ok v ∧ v.number?.isSome) ∨ ∃ e, outcome = .error e ∧ e.kind = .overflow

theorem finiteOrOverflow_ok
    (v : Value) :
  FiniteOrOverflow (.ok v) ↔ v.number?.isSome
  := by
  constructor
  · rintro (⟨_, ⟨⟩, hfinite⟩ | ⟨e, ⟨⟩, -⟩)
    exact hfinite
  · intro hfinite
    exact .inl ⟨v, rfl, hfinite⟩

namespace Target

variable {target : Target} {decimal double : ℚ} {l : Literal} {x : Double}

theorem target?_ofDouble
    (h : target.reach? = some (decimal, double)) (x : Double) :
  (target.ofDouble x).target? = some target
  := by
  cases target <;> first | rfl | cases h

theorem isSome_number?_ofDouble
    (h : target.reach? = some (decimal, double)) (x : Double) :
  (target.ofDouble x).number?.isSome ↔ ∃ q ∈ x.number?, |q| < double
  := by
  cases target with
  | float32 =>
    cases h
    rw [← Format.binary32_overflowThreshold]
    exact x.isSome_number?_toSingle
  | float64 =>
    cases h
    change x.number?.isSome ↔ _
    rw [← Format.binary64_overflowThreshold, Option.isSome_iff_exists]
    apply exists_congr
    intro q
    exact (and_iff_left_of_imp (Format.abs_lt_of_mem_number? (by decide))).symm
  | _ => cases h

theorem isSome_number?_ofDouble_ofLiteral
    (h : target.reach? = some (decimal, double)) (hl : l.WellFormed) :
  (target.ofDouble (.ofLiteral l)).number?.isSome ↔ (l.significand * 10 ^ l.power : ℚ) < decimal
  := by
  cases target with
  | float32 =>
    cases h
    exact Double.isSome_number?_toSingle_ofLiteral hl
  | float64 =>
    cases h
    exact Double.isSome_number?_ofLiteral hl
  | _ => cases h

/-- What is not finite in eight bytes is finite in no kind. -/
theorem number?_ofDouble
    (h : target.reach? = some (decimal, double)) (hx : x.number? = none) :
  (target.ofDouble x).number? = none
  := by
  rw [← Option.not_isSome_iff_eq_none, isSome_number?_ofDouble h, hx]
  rintro ⟨q, ⟨⟩, -⟩

end Target

namespace Column

variable {c : Column} {p : Protocol} {target : Target} {decimal double : ℚ}

/-! ### Fields as numbers of eight bytes -/

/-- Numbers of both kinds are read with eight bytes, but for those that a field of four holds. -/
theorem run_readAs_ofDouble
    (ht : target.reach? = some (decimal, double)) (hsingle : ¬ (c.type = .float ∧ p = .binary))
    (hfamily : c.family = .integer ∨ c.family = .float ∨ c.family = .decimal ∨ c.family = .text)
    (field : Bytes) :
  (c.readAs p target field.length).run field =
    (c.readDouble p field.length).run field >>= fun x => .ok (target.ofDouble x)
  := by
  cases target with
  | float32 =>
    have narrowed : c.readSingle p field.length =
        c.readDouble p field.length >>= fun x => pure x.toSingle := by
      rw [readSingle, if_neg hsingle]
      rcases hfamily with hfamily | hfamily | hfamily | hfamily <;> rw [hfamily]
    rw [readAs, Reader.run_map, narrowed, Reader.run_map]
    cases (c.readDouble p field.length).run field <;> rfl
  | float64 =>
    rw [readAs, Reader.run_map]
    rfl
  | _ => cases ht

theorem admits_of_reach?
    (ht : target.reach? = some (decimal, double))
    (hfamily : c.family = .integer ∨ c.family = .float ∨ c.family = .decimal ∨ c.family = .text) :
  c.admits target = true
  := by
  rw [admits_eq]
  rcases hfamily with hfamily | hfamily | hfamily | hfamily <;> rw [hfamily] <;>
    cases target <;> first | rfl | cases ht

theorem CarriesText.readDouble
    (h : c.CarriesText p) (length : Nat) :
  c.readDouble p length =
    Reader.text length >>= fun s => Reader.lift (Number.readDouble s Target.float64.name)
  := by
  rcases h with hdecimal | ⟨hstring, hbinary⟩ | ⟨rfl, hinteger | hfloat | hdouble⟩
  · simp only [Column.readDouble, family_eq_decimal hdecimal]
  · simp only [Column.readDouble, family_of_isString hstring, hbinary]
    rfl
  · simp only [Column.readDouble, family_eq_integer hinteger]
  · simp only [Column.readDouble, Column.family, hfloat]
  · simp only [Column.readDouble, Column.family, hdouble]

theorem CarriesText.decode_ofDouble
    (h : c.CarriesText p) (ht : target.reach? = some (decimal, double)) (field : Bytes) :
  c.decode p target field =
    Number.readDouble (Utf8.decode field) Target.float64.name >>= fun x => .ok (target.ofDouble x)
  := by
  have apart : ¬ (c.type = .float ∧ p = .binary) := by
    rintro ⟨hfloat, rfl⟩
    rcases h with hdecimal | ⟨hstring, -⟩ | ⟨hprotocol, -⟩
    · rw [hfloat] at hdecimal
      cases hdecimal
    · rw [hfloat] at hstring
      cases hstring
    · cases hprotocol
  rw [decode, if_pos (admits_of_reach? ht h.family), run_readAs_ofDouble ht apart h.family,
    h.readDouble, Reader.run_bind_lift, Reader.run_text]
  rfl

/-- A literal is always read, and the number is finite below the reach of the kind. -/
theorem CarriesText.decode_literal
    (h : c.CarriesText p) (ht : target.reach? = some (decimal, double)) {l : Literal}
    (hl : l.WellFormed) :
  let outcome := c.decode p target (Utf8.encode (String.ofList l.write))
  (∃ v, outcome = .ok v ∧ v.target? = some target) ∧
    (FiniteOrOverflow outcome ↔ (l.significand * 10 ^ l.power : ℚ) < decimal) ∧
    ((∀ e ∈ l.exponent, Digits.value e.digits < 0x10000) →
      (FiniteOrOverflow outcome ↔ |l.number| < decimal))
  := by
  intro outcome
  have read : outcome = .ok (target.ofDouble (.ofLiteral l)) := by
    change c.decode p target _ = _
    rw [h.decode_ofDouble ht, Utf8.decode_encode, Number.readDouble, Double.ofText?,
      Literal.ofString?, String.toList_ofList, Literal.ofChars?_write hl]
    rfl
  rw [read, finiteOrOverflow_ok, Target.isSome_number?_ofDouble_ofLiteral ht hl]
  refine ⟨⟨_, rfl, Target.target?_ofDouble ht _⟩, Iff.rfl, ?_⟩
  intro hexponent
  rw [Literal.abs_number hexponent]

/-- What is not a literal is malformed, but for the names of infinities and of what is not a
number. -/
theorem CarriesText.decode_name
    (h : c.CarriesText p) (ht : target.reach? = some (decimal, double)) {field : Bytes}
    (hfield : ¬ ∃ l : Literal, l.WellFormed ∧ field = Utf8.encode (String.ofList l.write)) :
  let outcome := c.decode p target field
  let name := Double.IsName (Utf8.decode field).toList
  ((∃ e, outcome = .error e ∧ e.kind = .malformedLiteral) ↔ ¬ name) ∧
    (name → ∃ v, outcome = .ok v ∧ v.number? = none)
  := by
  intro outcome name
  have read : outcome = match Double.ofName? (Utf8.decode field).toList with
      | some x => .ok (target.ofDouble x)
      | none => .error (.malformed (Utf8.decode field) Target.float64.name) := by
    change c.decode p target field = _
    rw [h.decode_ofDouble ht, Number.readDouble, Double.ofText?,
      (Literal.ofString?_decode_eq_none_iff field).mpr hfield]
    cases Double.ofName? (Utf8.decode field).toList <;> rfl
  have named : name ↔ (Double.ofName? (Utf8.decode field).toList).isSome :=
    Double.isSome_ofName?_iff.symm
  rw [read, named]
  cases hname : Double.ofName? (Utf8.decode field).toList with
  | some x =>
    refine ⟨?_, fun _ => ⟨_, rfl, Target.number?_ofDouble ht (Double.number?_of_ofName? hname)⟩⟩
    apply iff_of_false
    · rintro ⟨e, ⟨⟩, -⟩
    · exact not_not_intro rfl
  | none =>
    exact ⟨iff_of_true ⟨_, rfl, rfl⟩ Bool.false_ne_true,
      fun hsome => absurd hsome Bool.false_ne_true⟩

/-- A number of eight bytes is always read, and is finite below the reach of the kind. -/
theorem decode_double
    (hc : c.type = .double) (ht : target.reach? = some (decimal, double)) {field : Bytes}
    (hfield : field.length = 8) {q : ℚ} (hq : q ∈ Format.binary64.number? field.littleEndian) :
  let outcome := c.decode .binary target field
  (∃ v, outcome = .ok v ∧ v.target? = some target) ∧ (FiniteOrOverflow outcome ↔ |q| < double)
  := by
  intro outcome
  have family : c.family = .float := by
    rw [Column.family, hc]
  have hfamily : c.family = .integer ∨ c.family = .float ∨ c.family = .decimal ∨
      c.family = .text := .inr (.inl family)
  have reader : c.readDouble .binary field.length = Reader.double := by
    simp only [Column.readDouble, family, hc]
  have apart : ¬ (c.type = .float ∧ Protocol.binary = .binary) := by
    rw [hc]
    rintro ⟨⟨⟩, -⟩
  have read : outcome = .ok (target.ofDouble (.ofBits field.littleEndian)) := by
    have bits := (Reader.reads_uint_of_length hfield).map Double.ofBits
    change c.decode .binary target field = _
    rw [decode, if_pos (admits_of_reach? ht hfamily), run_readAs_ofDouble ht apart hfamily,
      reader, Reader.double, bits.run]
    rfl
  rw [read, finiteOrOverflow_ok, Target.isSome_number?_ofDouble ht, Double.number?_ofBits]
  refine ⟨⟨_, rfl, Target.target?_ofDouble ht _⟩, ?_⟩
  constructor
  · rintro ⟨q', hq', hlt⟩
    rwa [Option.mem_unique hq hq']
  · intro hlt
    exact ⟨q, hq, hlt⟩

/-- Numeric literals, and finite numbers of eight bytes, are always read as a floating-point number,
and it is finite exactly below the reach of the kind; beyond that there is an infinity and no
overflow.  For a literal it is the product of its parts that is compared with the reach, which is
the magnitude of the number denoted unless digits of the exponent are dropped.  Of other texts, the
names of infinities and of what is not a number are read, and the rest is malformed. -/
theorem decode_floating
    (ht : target.reach? = some (decimal, double)) :
  (c.CarriesText p →
    (∀ l : Literal, l.WellFormed →
      let outcome := c.decode p target (Utf8.encode (String.ofList l.write))
      (∃ v, outcome = .ok v ∧ v.target? = some target) ∧
        (FiniteOrOverflow outcome ↔ (l.significand * 10 ^ l.power : ℚ) < decimal) ∧
        ((∀ e ∈ l.exponent, Digits.value e.digits < 0x10000) →
          (FiniteOrOverflow outcome ↔ |l.number| < decimal))) ∧
    ∀ field : Bytes,
      (¬ ∃ l : Literal, l.WellFormed ∧ field = Utf8.encode (String.ofList l.write)) →
      let outcome := c.decode p target field
      let name := Double.IsName (Utf8.decode field).toList
      ((∃ e, outcome = .error e ∧ e.kind = .malformedLiteral) ↔ ¬ name) ∧
        (name → ∃ v, outcome = .ok v ∧ v.number? = none)) ∧
  (c.type = .double → ∀ field : Bytes, field.length = 8 →
    ∀ q ∈ Format.binary64.number? field.littleEndian,
      let outcome := c.decode .binary target field
      (∃ v, outcome = .ok v ∧ v.target? = some target) ∧
        (FiniteOrOverflow outcome ↔ |q| < double))
  :=
  ⟨fun h => ⟨fun _ hl => h.decode_literal ht hl, fun _ hfield => h.decode_name ht hfield⟩,
    fun hc _ hfield _ hq => decode_double hc ht hfield hq⟩

/-- A literal of text is read as an infinity, a name as what is not a number; a number of eight
bytes is too large for four. -/
theorem decode_floating_infinity :
  let text : Column := { ofNameAndType "x" .varString with charset := 33 }
  let binary := ofNameAndType "x" .double
  let large : Literal := ⟨some '-', ['3'], true, ['5'], some ⟨'e', none, ['3', '8']⟩⟩
  let name := "NaN"
  let field : Bytes := [0, 0, 0, 0, 0, 0, 0xF0, 0x47]
  (Target.float32.reach? = some (2 ^ 128 - 2 ^ 103 - 2 ^ 74, 2 ^ 128 - 2 ^ 103) ∧
      text.CarriesText .text ∧ large.WellFormed ∧
      (∀ e ∈ large.exponent, Digits.value e.digits < 0x10000) ∧ binary.type = .double) ∧
    ¬ FiniteOrOverflow (text.decode .text .float32 (Utf8.encode (String.ofList large.write))) ∧
    (∃ v, text.decode .text .float32 (Utf8.encode name) = .ok v ∧ v.number? = none) ∧
    ¬ FiniteOrOverflow (binary.decode .binary .float32 field)
  := by
  intro text binary large name field
  have reach : Target.float32.reach? = some (2 ^ 128 - 2 ^ 103 - 2 ^ 74, 2 ^ 128 - 2 ^ 103) := rfl
  have carries : text.CarriesText .text := .inr (.inl ⟨rfl, rfl⟩)
  have parts : Literal.ofChars? ['-', '3', '.', '5', 'e', '3', '8'] = some large := by decide
  have wellFormed : large.WellFormed := (Literal.ofChars?_eq_some_iff.mp parts).1
  have exponent : ∀ e ∈ large.exponent, Digits.value e.digits < 0x10000 := by
    rintro _ ⟨⟩
    decide
  have significand : large.significand = 35 := Digits.longValue_eq _
  have power : large.power = (37 : ℕ) := rfl
  have isName : Double.IsName (Utf8.decode (Utf8.encode name)).toList := by
    rw [Utf8.decode_encode]
    exact ⟨none, ['N', 'a', 'N'], nofun, by decide, by decide⟩
  have noLiteral : ¬ ∃ l : Literal, l.WellFormed ∧
      Utf8.encode name = Utf8.encode (String.ofList l.write) := by
    rw [← Literal.ofString?_decode_eq_none_iff, Utf8.decode_encode]
    decide
  have number : Format.binary64.number? field.littleEndian = some (2 ^ 128) := by
    have datum : Format.binary64.datum field.littleEndian = .finite false (2 ^ 52) 76 := by decide
    rw [← Format.number?_datum, datum]
    norm_num [Datum.number?]
  obtain ⟨literals, others⟩ := (decode_floating (c := text) reach).1 carries
  have numbers := (decode_floating (c := binary) (p := .binary) reach).2 rfl
  refine ⟨⟨reach, carries, wellFormed, exponent, rfl⟩, ?_, (others _ noLiteral).2 isName, ?_⟩
  · rw [(literals large wellFormed).2.2 exponent, Literal.abs_number exponent, significand, power]
    norm_num
  · rw [(numbers field rfl _ number).2]
    norm_num

/-- A literal of ten to the power of 400 is read as an infinity. -/
theorem not_finiteOrOverflow_decode :
  let c : Column := { ofNameAndType "x" .varString with charset := 33 }
  let l : Literal := ⟨none, ['1'], false, [], some ⟨'e', none, ['4', '0', '0']⟩⟩
  c.CarriesText .text ∧ l.WellFormed ∧
    ¬ FiniteOrOverflow (c.decode .text .float64 (Utf8.encode (String.ofList l.write)))
  := by
  intro c l
  have carries : c.CarriesText .text := .inr (.inl ⟨rfl, rfl⟩)
  have parts : Literal.ofChars? ['1', 'e', '4', '0', '0'] = some l := by decide
  have wellFormed : l.WellFormed := (Literal.ofChars?_eq_some_iff.mp parts).1
  have reach : Target.float64.reach? = some (2 ^ 1024 - 2 ^ 970, 2 ^ 1024 - 2 ^ 970) := rfl
  have significand : l.significand = 1 := Digits.longValue_eq _
  have power : l.power = (400 : ℕ) := rfl
  refine ⟨carries, wellFormed, ?_⟩
  rw [(carries.decode_literal reach wellFormed).2.1, significand, power, Nat.cast_one, one_mul,
    zpow_natCast, not_lt, ← Format.binary64_overflowThreshold]
  exact Double.binary64_overflowThreshold_le

end Column

end SqlWire
