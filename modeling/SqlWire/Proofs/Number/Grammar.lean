import Mathlib.Computability.RegularExpressions
import Mathlib.Tactic.IntervalCases
import SqlWire.Number.Reading
import SqlWire.Proofs.Number.Literal
import SqlWire.Proofs.Text.Digits

/-!
# The grammar of numeric literals

The texts of numeric literals as a regular expression, `Grammar.literal`: an optional sign, a
mantissa with a digit before or behind its point, and an optional exponent.  The parts of a literal
are the words of the parts of the expression, so that a text is recognised as a literal exactly if
it is a word of the whole, `Number.isLiteral_iff_mem_matches`.
-/

namespace SqlWire.Literal

namespace Grammar

open RegularExpression

/-- One of the given characters. -/
def oneOf (cs : List Char) : RegularExpression Char :=
  (cs.map char).sum

/-- The expression once, or nothing. -/
def optional (r : RegularExpression Char) : RegularExpression Char :=
  1 + r

/-- The expression once or more. -/
def several (r : RegularExpression Char) : RegularExpression Char :=
  r * star r

/-- The ten digits. -/
def digits : List Char :=
  ['0', '1', '2', '3', '4', '5', '6', '7', '8', '9']

/-- One of the ten digits. -/
def digit : RegularExpression Char :=
  oneOf digits

/-- A plus or a minus. -/
def sign : RegularExpression Char :=
  oneOf ['+', '-']

/-- Digits with an optional point behind or among them, or digits behind a point. -/
def mantissa : RegularExpression Char :=
  several digit * optional (char '.' * star digit) + char '.' * several digit

/-- A letter, an optional sign and digits. -/
def exponent : RegularExpression Char :=
  oneOf ['e', 'E'] * (optional sign * several digit)

/-- A numeric literal. -/
def literal : RegularExpression Char :=
  optional sign * (mantissa * optional exponent)

/-! ### Words of the small expressions -/

theorem mem_oneOf
    {as cs : List Char} :
  cs ∈ (oneOf as).matches' ↔ ∃ a ∈ as, cs = [a]
  := by
  induction as with
  | nil => simp [oneOf, matches'_zero]
  | cons a as ih =>
    rw [oneOf, List.map_cons, List.sum_cons, matches'_add, Language.mem_add, ← oneOf, ih,
      List.exists_mem_cons_iff]
    rfl

theorem mem_star_oneOf
    {as cs : List Char} :
  cs ∈ (star (oneOf as)).matches' ↔ ∀ c ∈ cs, c ∈ as
  := by
  rw [matches'_star, Language.mem_kstar]
  constructor
  · rintro ⟨words, rfl, hwords⟩ c hc
    obtain ⟨word, hword, hc⟩ := List.mem_flatten.mp hc
    obtain ⟨a, ha, rfl⟩ := mem_oneOf.mp (hwords word hword)
    rw [List.mem_singleton.mp hc]
    exact ha
  · intro h
    use cs.map fun c => [c]
    constructor
    · rw [← List.flatMap_def, List.flatMap_singleton']
    · intro word hword
      obtain ⟨c, hc, rfl⟩ := List.mem_map.mp hword
      exact mem_oneOf.mpr ⟨c, h c hc, rfl⟩

theorem mem_optional
    {r : RegularExpression Char} {cs : List Char} :
  cs ∈ (optional r).matches' ↔ cs = [] ∨ cs ∈ r.matches'
  := by
  rw [optional, matches'_add, Language.mem_add, matches'_epsilon, Language.mem_one]

theorem mem_char_mul
    {a : Char} {r : RegularExpression Char} {cs : List Char} :
  cs ∈ (char a * r).matches' ↔ ∃ bs ∈ r.matches', cs = a :: bs
  := by
  rw [matches'_mul, matches'_char, Language.mem_mul]
  constructor
  · rintro ⟨_, rfl, bs, hbs, rfl⟩
    exact ⟨bs, hbs, rfl⟩
  · rintro ⟨bs, hbs, rfl⟩
    exact ⟨[a], rfl, bs, hbs, rfl⟩

theorem mem_oneOf_mul
    {as : List Char} {r : RegularExpression Char} {cs : List Char} :
  cs ∈ (oneOf as * r).matches' ↔ ∃ a ∈ as, ∃ bs ∈ r.matches', cs = a :: bs
  := by
  rw [matches'_mul, Language.mem_mul]
  constructor
  · rintro ⟨_, hword, bs, hbs, rfl⟩
    obtain ⟨a, ha, rfl⟩ := mem_oneOf.mp hword
    exact ⟨a, ha, bs, hbs, rfl⟩
  · rintro ⟨a, ha, bs, hbs, rfl⟩
    exact ⟨[a], mem_oneOf.mpr ⟨a, ha, rfl⟩, bs, hbs, rfl⟩

/-! ### Words of the parts -/

theorem isDigit_iff_mem
    (c : Char) :
  Digits.isDigit c ↔ c ∈ digits
  := by
  constructor
  · intro h
    obtain ⟨hlow, hhigh⟩ := Digits.toNat_of_isDigit h
    rw [← Char.ofNat_toNat c]
    interval_cases c.toNat <;> decide
  · intro h
    have all : digits.all Digits.isDigit := by decide
    exact List.all_eq_true.mp all c h

theorem isSign_iff_mem
    (c : Char) :
  isSign c ↔ c ∈ ['+', '-']
  := by
  rw [isSign, Bool.or_eq_true, beq_iff_eq, beq_iff_eq, List.mem_pair]

theorem isMarker_iff_mem
    (c : Char) :
  isMarker c ↔ c ∈ ['e', 'E']
  := by
  rw [isMarker, Bool.or_eq_true, beq_iff_eq, beq_iff_eq, List.mem_pair]

theorem mem_star_digit
    {cs : List Char} :
  cs ∈ (star digit).matches' ↔ ∀ c ∈ cs, Digits.isDigit c
  := by
  rw [digit, mem_star_oneOf]
  simp only [isDigit_iff_mem]

theorem mem_several_digit
    {cs : List Char} :
  cs ∈ (several digit).matches' ↔ Digits.isNumber cs
  := by
  rw [several]
  nth_rewrite 1 [digit]
  rw [mem_oneOf_mul, Digits.isNumber_iff]
  simp only [mem_star_digit, ← isDigit_iff_mem]
  constructor
  · rintro ⟨c, hc, ds, hds, rfl⟩
    exact ⟨List.cons_ne_nil c ds, List.forall_mem_cons.mpr ⟨hc, hds⟩⟩
  · rintro ⟨hsome, hdigits⟩
    obtain ⟨c, ds, rfl⟩ := List.exists_cons_of_ne_nil hsome
    obtain ⟨hc, hds⟩ := List.forall_mem_cons.mp hdigits
    exact ⟨c, hc, ds, hds, rfl⟩

theorem mem_optional_sign
    {cs : List Char} :
  cs ∈ (optional sign).matches' ↔ ∃ s : Option Char, (∀ c ∈ s, isSign c) ∧ cs = s.toList
  := by
  rw [mem_optional, sign, mem_oneOf]
  simp only [← isSign_iff_mem]
  constructor
  · rintro (rfl | ⟨c, hc, rfl⟩)
    · exact ⟨none, nofun, rfl⟩
    · refine ⟨some c, ?_, rfl⟩
      rintro _ ⟨⟩
      exact hc
  · rintro ⟨_ | c, hc, rfl⟩
    · exact .inl rfl
    · exact .inr ⟨c, hc c rfl, rfl⟩

/-- The words of the mantissa are digits around an optional point, of which there is one at least. -/
theorem mem_mantissa
    {cs : List Char} :
  cs ∈ mantissa.matches' ↔
    ∃ (whole : List Char) (pointed : Bool) (fraction : List Char),
      (∀ c ∈ whole, Digits.isDigit c) ∧ (∀ c ∈ fraction, Digits.isDigit c) ∧
      (pointed = false → fraction = []) ∧ (whole ≠ [] ∨ fraction ≠ []) ∧
      cs = whole ++ pointText pointed fraction
  := by
  rw [mantissa, matches'_add, Language.mem_add, matches'_mul, Language.mem_mul, mem_char_mul]
  simp only [mem_optional, mem_char_mul, mem_several_digit, mem_star_digit, Digits.isNumber_iff]
  constructor
  · rintro (⟨whole, ⟨hsome, hwhole⟩, _, rfl | ⟨fraction, hfraction, rfl⟩, rfl⟩ |
      ⟨fraction, ⟨hsome, hfraction⟩, rfl⟩)
    · exact ⟨whole, false, [], hwhole, nofun, fun _ => rfl, .inl hsome, rfl⟩
    · exact ⟨whole, true, fraction, hwhole, hfraction, nofun, .inl hsome, rfl⟩
    · exact ⟨[], true, fraction, nofun, hfraction, nofun, .inr hsome, rfl⟩
  · rintro ⟨whole, pointed, fraction, hwhole, hfraction, hpointed, hsome, rfl⟩
    by_cases hempty : whole = []
    · -- Without a digit before it there is a point, since there are digits behind it.
      subst hempty
      have hsome : fraction ≠ [] := hsome.resolve_left (not_not_intro rfl)
      cases pointed with
      | false => exact absurd (hpointed rfl) hsome
      | true => exact .inr ⟨fraction, ⟨hsome, hfraction⟩, rfl⟩
    · refine .inl ⟨whole, ⟨hempty, hwhole⟩, pointText pointed fraction, ?_, rfl⟩
      cases pointed with
      | false => exact .inl rfl
      | true => exact .inr ⟨fraction, hfraction, rfl⟩

theorem mem_optional_exponent
    {cs : List Char} :
  cs ∈ (optional exponent).matches' ↔
    ∃ e : Option Exponent, (∀ x ∈ e, x.WellFormed) ∧ cs = exponentText e
  := by
  rw [mem_optional, exponent, mem_oneOf_mul]
  simp only [matches'_mul, Language.mem_mul, mem_optional_sign, mem_several_digit,
    ← isMarker_iff_mem]
  constructor
  · rintro (rfl | ⟨c, hc, _, ⟨_, ⟨s, hs, rfl⟩, ds, hds, rfl⟩, rfl⟩)
    · exact ⟨none, nofun, rfl⟩
    · refine ⟨some ⟨c, s, ds⟩, ?_, rfl⟩
      rintro _ ⟨⟩
      exact ⟨hc, hs, hds⟩
  · rintro ⟨_ | e, he, rfl⟩
    · exact .inl rfl
    · obtain ⟨hmarker, hsign, hdigits⟩ := he e rfl
      exact .inr ⟨e.marker, hmarker, _, ⟨_, ⟨e.sign, hsign, rfl⟩, e.digits, hdigits, rfl⟩, rfl⟩

theorem write_eq
    (l : Literal) :
  l.write =
    l.sign.toList ++ (l.whole ++ pointText l.pointed l.fraction ++ exponentText l.exponent)
  := by
  simp only [write, List.append_assoc]
  rfl

/-- The words of the whole are the texts of the literals. -/
theorem mem_literal
    {cs : List Char} :
  cs ∈ literal.matches' ↔ ∃ l : Literal, l.WellFormed ∧ cs = l.write
  := by
  rw [literal]
  simp only [matches'_mul, Language.mem_mul, mem_optional_sign, mem_mantissa, mem_optional_exponent]
  constructor
  · rintro ⟨_, ⟨s, hsign, rfl⟩, _, ⟨_, ⟨whole, pointed, fraction, hwhole, hfraction, hpointed, hsome,
      rfl⟩, _, ⟨e, hexponent, rfl⟩, rfl⟩, rfl⟩
    use ⟨s, whole, pointed, fraction, e⟩, ⟨hsign, hwhole, hfraction, hpointed, hsome, hexponent⟩
    rw [write_eq]
  · rintro ⟨l, hl, rfl⟩
    exact ⟨_, ⟨l.sign, hl.sign, rfl⟩, _, ⟨_, ⟨l.whole, l.pointed, l.fraction, hl.whole, hl.fraction,
      hl.pointed, hl.digits, rfl⟩, _, ⟨l.exponent, hl.exponent, rfl⟩, rfl⟩, (write_eq l).symm⟩

end Grammar

end SqlWire.Literal

namespace SqlWire.Number

/-- A text is taken for a numeric literal exactly if it is a word of the grammar of literals. -/
theorem isLiteral_iff_mem_matches
    (s : String) :
  isLiteral s = true ↔ s.toList ∈ Literal.Grammar.literal.matches'
  := by
  rw [isLiteral, Option.isSome_iff_exists, Literal.Grammar.mem_literal]
  apply exists_congr
  intro l
  apply Literal.ofChars?_eq_some_iff

/-- A point may end a mantissa, and the exponent of a number may have a sign. -/
example : "-12.e+05".toList ∈ Literal.Grammar.literal.matches' := by
  decide

end SqlWire.Number
