import SqlWire.Proofs.Number.Decimal

/-!
# Integers are read back

The text of an integer is that of the decimal that it is, so that an integer of fewer than 96 bits
is read from its text as itself: `Number.readDecimal_toString`, `Number.readInteger_toString`.  So
is one that is written with any sign and any number of zeros in front: `Number.readInteger_ofDigits`.
-/

namespace SqlWire

namespace Decimal

theorem ofInt?_eq_some_iff
    {i : Int} {d : Decimal} :
  ofInt? i = some d ↔ d.negative = decide (i < 0) ∧ d.coefficient = i.natAbs ∧ d.scale = 0
  := by
  obtain ⟨negative, coefficient, scale, hcoefficient, hscale⟩ := d
  rw [ofInt?, ofParts?]
  constructor
  · intro h
    split at h
    next => cases h; exact ⟨rfl, rfl, rfl⟩
    next => cases h
  · rintro ⟨rfl, rfl, rfl⟩
    exact dif_pos ⟨hcoefficient, hscale⟩

theorem exists_ofInt?
    {i : Int} (h : i.natAbs < 2 ^ 96) :
  ∃ d, ofInt? i = some d
  :=
  ⟨_, dif_pos ⟨h, by decide⟩⟩

/-- The text of an integer: its sign and its digits. -/
theorem toList_toString
    (i : Int) :
  (toString i).toList = (if i < 0 then ['-'] else []) ++ Digits.ofNat i.natAbs
  := by
  cases i with
  | ofNat n =>
    rw [if_neg (Int.not_lt.mpr (Int.natCast_nonneg n) : ¬ Int.ofNat n < 0), List.nil_append]
    apply Nat.toList_repr
  | negSucc n =>
    rw [if_pos (Int.negSucc_lt_zero n)]
    change ("-" ++ (n + 1).repr).toList = _
    rw [String.toList_append, Nat.toList_repr]
    rfl

theorem toText_of_ofInt?
    {i : Int} {d : Decimal} (h : ofInt? i = some d) :
  d.toText = toString i
  := by
  obtain ⟨hnegative, hcoefficient, hscale⟩ := ofInt?_eq_some_iff.mp h
  have some : 0 < (Digits.ofNat i.natAbs).length := Nat.length_toDigits_pos
  have unfilled : Digits.fill 1 (Digits.ofNat i.natAbs) = Digits.ofNat i.natAbs := by
    rw [Digits.fill, Nat.sub_eq_zero_of_le some]
    rfl
  apply String.toList_inj.mp
  rw [toText, String.toList_ofList, toList_toString, hnegative, hcoefficient, hscale, unfilled,
    Nat.sub_zero, List.take_length, List.drop_length]
  simp

theorem truncate_of_ofInt?
    {i : Int} {d : Decimal} (h : ofInt? i = some d) :
  d.truncate = i
  := by
  obtain ⟨hnegative, hcoefficient, hscale⟩ := ofInt?_eq_some_iff.mp h
  rw [truncate, hnegative, hcoefficient, hscale, Nat.pow_zero, Nat.div_one]
  split
  next negative =>
    rw [decide_eq_true_iff] at negative
    omega
  next nonnegative =>
    rw [decide_eq_true_iff] at nonnegative
    omega

/-- An integer has no sign if it is zero. -/
theorem withoutZeroSign_of_ofInt?
    {i : Int} {d : Decimal} (h : ofInt? i = some d) :
  d.withoutZeroSign = d
  := by
  obtain ⟨negative, coefficient, scale, hcoefficient, hscale⟩ := d
  obtain ⟨rfl, rfl, -⟩ := ofInt?_eq_some_iff.mp h
  have sign : (decide (i < 0) && i.natAbs != 0) = decide (i < 0) := by
    rw [Bool.and_eq_left_iff_imp, decide_eq_true_iff, bne_iff_ne]
    omega
  rw [withoutZeroSign, mk.injEq]
  exact ⟨sign, rfl, rfl⟩

end Decimal

namespace Number

/-- The integer is read from its text as the decimal that it is. -/
theorem readDecimal_toString
    {i : Int} {d : Decimal} (h : Decimal.ofInt? i = some d) (target : String) :
  readDecimal (toString i) target = .ok d
  := by
  rw [← Decimal.toText_of_ofInt? h, readDecimal_toText_eq, Decimal.withoutZeroSign_of_ofInt? h]

theorem readInteger_toString
    {i : Int} (h : i.natAbs < 2 ^ 96) (target : String) :
  readInteger (toString i) target = .ok i
  := by
  obtain ⟨d, hd⟩ := Decimal.exists_ofInt? h
  rw [readInteger, readDecimal_toString hd]
  exact congrArg Except.ok (Decimal.truncate_of_ofInt? hd)

end Number

/-! ### Signs and digits -/

namespace Literal

variable {sign : Option Char} {ds : List Char}

/-- The literal of an optional sign and digits. -/
def ofDigits (sign : Option Char) (ds : List Char) : Literal :=
  ⟨sign, ds, false, [], none⟩

/-- The integer of an optional sign and digits. -/
def integer (sign : Option Char) (ds : List Char) : Int :=
  if sign = some '-' then -(Digits.value ds : Int) else Digits.value ds

theorem natAbs_integer
    (sign : Option Char) (ds : List Char) :
  (integer sign ds).natAbs = Digits.value ds
  := by
  rw [integer]
  split <;> omega

theorem wellFormed_ofDigits
    (hsign : ∀ c ∈ sign, isSign c) (hds : Digits.isNumber ds) :
  (ofDigits sign ds).WellFormed
  := by
  rw [Digits.isNumber_iff] at hds
  constructor
  · exact hsign
  · exact hds.2
  · intro c hc
    cases hc
  · intro _
    rfl
  · exact .inl hds.1
  · intro e he
    cases he

theorem write_ofDigits
    (sign : Option Char) (ds : List Char) :
  (ofDigits sign ds).write = sign.toList ++ ds
  := by
  simp [ofDigits, write]

/-- Digits without a point overflow only if they make a number that is too large. -/
theorem ofLiteral?_ofDigits
    (sign : Option Char) (ds : List Char) :
  Decimal.ofLiteral? (ofDigits sign ds) =
    if Digits.value ds < 2 ^ 96 then
      Decimal.ofUnsignedZero? (ofDigits sign ds).isNegative (Digits.value ds) 0
    else none
  := by
  have digits : Decimal.ofDigits? ds [] =
      if Digits.value ds < 2 ^ 96 then some (Digits.value ds, 0) else none := by
    rw [Decimal.ofDigits?, Digits.below?_eq (by decide), Decimal.limit]
    split <;> rfl
  rw [Decimal.ofLiteral?]
  change (Decimal.ofDigits? ds [] >>= fun parts =>
    Decimal.ofUnsignedZero? (ofDigits sign ds).isNegative parts.1 parts.2) = _
  rw [digits]
  split <;> rfl

end Literal

/-- An optional sign and digits, however many, are read as the integer that they make, if it has no
more than 96 bits. -/
theorem Number.readInteger_ofDigits
    {sign : Option Char} {ds : List Char} (hsign : ∀ c ∈ sign, Literal.isSign c)
    (hds : Digits.isNumber ds) (target : String) :
  Number.readInteger (String.ofList (sign.toList ++ ds)) target =
    if (Literal.integer sign ds).natAbs < 2 ^ 96 then .ok (Literal.integer sign ds)
    else .error (.overflow (String.ofList (sign.toList ++ ds)) target)
  := by
  have parts : Literal.ofString? (String.ofList (sign.toList ++ ds)) =
      some (Literal.ofDigits sign ds) := by
    rw [Literal.ofString?, String.toList_ofList, ← Literal.write_ofDigits,
      Literal.ofChars?_write (Literal.wellFormed_ofDigits hsign hds)]
  obtain ⟨hok, hoverflow⟩ := readInteger_of_ofLiteral? parts target
  have hdecimal := Literal.ofLiteral?_ofDigits sign ds
  rw [Literal.natAbs_integer]
  split
  next hfits =>
    rw [if_pos hfits] at hdecimal
    obtain ⟨d, hd⟩ := Decimal.exists_ofUnsignedZero? hfits (Nat.zero_le 28)
      (Literal.ofDigits sign ds).isNegative
    rw [hok d (hdecimal.trans hd), Decimal.truncate_of_ofUnsignedZero? hd, Nat.pow_zero,
      Nat.div_one, Literal.integer, Literal.isNegative, Literal.ofDigits]
    simp only [beq_iff_eq]
  next hlarge =>
    rw [if_neg hlarge] at hdecimal
    exact hoverflow hdecimal

end SqlWire
