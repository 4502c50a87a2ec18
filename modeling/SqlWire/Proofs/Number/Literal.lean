import SqlWire.Number.Literal

/-!
# Literals are read back

The text of a literal has the parts that it was written from: `Literal.ofChars?_write`.  Each part
ends where the next one starts, because none can start with a character of the part before it.
-/

namespace SqlWire.Literal

/-! ### The characters of the parts -/

theorem not_isDigit_of_isSign
    {c : Char} (h : isSign c) :
  ¬ Digits.isDigit c
  := by
  rw [isSign, Bool.or_eq_true, beq_iff_eq, beq_iff_eq] at h
  rcases h with rfl | rfl <;> decide

theorem ne_point_and_not_isDigit_of_isMarker
    {c : Char} (h : isMarker c) :
  c ≠ '.' ∧ ¬ Digits.isDigit c
  := by
  rw [isMarker, Bool.or_eq_true, beq_iff_eq, beq_iff_eq] at h
  rcases h with rfl | rfl <;> decide

/-! ### One part and what is behind it -/

theorem takeSign_append
    {sign : Option Char} {rest : List Char} (hsign : ∀ c ∈ sign, isSign c)
    (hrest : ∀ c ∈ rest.head?, ¬ isSign c) :
  takeSign (sign.toList ++ rest) = (sign, rest)
  := by
  cases sign with
  | some c => rw [Option.toList_some, List.singleton_append, takeSign, if_pos (hsign c rfl)]
  | none =>
    cases rest with
    | nil => rfl
    | cons c rest => rw [Option.toList_none, List.nil_append, takeSign, if_neg (hrest c rfl)]

theorem takeDigits_append
    {ds rest : List Char} (hds : ∀ c ∈ ds, Digits.isDigit c)
    (hrest : ∀ c ∈ rest.head?, ¬ Digits.isDigit c) :
  takeDigits (ds ++ rest) = (ds, rest)
  := by
  rw [takeDigits, List.takeWhile_append_of_pos hds, List.dropWhile_append_of_pos hds]
  cases rest with
  | nil => simp
  | cons c rest =>
    have hc := hrest c rfl
    rw [List.takeWhile_cons_of_neg hc, List.dropWhile_cons_of_neg hc, List.append_nil]

/-- The text of the point and the digits behind it. -/
def pointText (pointed : Bool) (fraction : List Char) : List Char :=
  if pointed then '.' :: fraction else []

theorem takeFraction_append
    {pointed : Bool} {fraction rest : List Char} (hfraction : ∀ c ∈ fraction, Digits.isDigit c)
    (hpointed : pointed = false → fraction = [])
    (hrest : ∀ c ∈ rest.head?, c ≠ '.' ∧ ¬ Digits.isDigit c) :
  takeFraction (pointText pointed fraction ++ rest) = (pointed, fraction, rest)
  := by
  cases pointed with
  | true =>
    rw [pointText, if_pos rfl, List.cons_append, takeFraction, if_pos rfl,
      takeDigits_append hfraction fun c hc => (hrest c hc).2]
  | false =>
    rw [hpointed rfl]
    cases rest with
    | nil => rfl
    | cons c rest => simp [pointText, takeFraction, (hrest c rfl).1]

/-- The text of an exponent, if there is one. -/
def exponentText (exponent : Option Exponent) : List Char :=
  (exponent.map Exponent.write).getD []

theorem takeExponent_exponentText
    {exponent : Option Exponent} (h : ∀ e ∈ exponent, e.WellFormed) :
  takeExponent (exponentText exponent) = some exponent
  := by
  cases exponent with
  | none => rfl
  | some e =>
    obtain ⟨hmarker, hsign, hdigits⟩ := h e rfl
    have first : ∀ c ∈ e.digits.head?, ¬ isSign c := by
      intro c hc hsigned
      have digit : Digits.isDigit c := by
        rw [Digits.isNumber, Bool.and_eq_true, List.all_eq_true] at hdigits
        apply hdigits.2 c (List.mem_of_mem_head? hc)
      apply not_isDigit_of_isSign hsigned digit
    change takeExponent (e.marker :: e.sign.toList ++ e.digits) = _
    rw [List.cons_append, takeExponent, if_pos hmarker, takeSign_append hsign first]
    simp only [hdigits, if_true]

theorem isMarker_of_mem_head?_exponentText
    {exponent : Option Exponent} (h : ∀ e ∈ exponent, e.WellFormed) :
  ∀ c ∈ (exponentText exponent).head?, isMarker c
  := by
  intro c hc
  cases exponent with
  | none => cases hc
  | some e =>
    cases hc
    apply (h e rfl).marker

/-! ### All parts -/

/-- A literal is read from its text. -/
theorem ofChars?_write
    {l : Literal} (h : l.WellFormed) :
  ofChars? l.write = some l
  := by
  obtain ⟨sign, whole, pointed, fraction, exponent⟩ := l
  obtain ⟨hsign, hwhole, hfraction, hpointed, hdigits, hexponent⟩ := h
  simp only at hsign hwhole hfraction hpointed hdigits hexponent
  have behindFraction : ∀ c ∈ (exponentText exponent).head?, c ≠ '.' ∧ ¬ Digits.isDigit c := by
    intro c hc
    apply ne_point_and_not_isDigit_of_isMarker
      (isMarker_of_mem_head?_exponentText hexponent c hc)
  have behindWhole :
      ∀ c ∈ (pointText pointed fraction ++ exponentText exponent).head?, ¬ Digits.isDigit c := by
    intro c hc
    cases pointed with
    | true =>
      cases hc
      decide
    | false => exact (behindFraction c hc).2
  have behindSign :
      ∀ c ∈ (whole ++ (pointText pointed fraction ++ exponentText exponent)).head?,
        ¬ isSign c := by
    intro c hc hsigned
    cases whole with
    | cons d whole =>
      cases hc
      apply not_isDigit_of_isSign hsigned (hwhole _ List.mem_cons_self)
    | nil =>
      cases pointed with
      | true =>
        cases hc
        exact absurd hsigned (by decide)
      | false =>
        rcases hdigits with hwhole | hfraction
        · apply hwhole rfl
        · apply hfraction (hpointed rfl)
  have text : write ⟨sign, whole, pointed, fraction, exponent⟩ =
      sign.toList ++ (whole ++ (pointText pointed fraction ++ exponentText exponent)) := by
    rw [write, List.append_assoc, List.append_assoc]
    rfl
  have some : (whole.isEmpty && fraction.isEmpty) = false := by
    rw [Bool.and_eq_false_iff, List.isEmpty_eq_false_iff, List.isEmpty_eq_false_iff]
    apply hdigits
  rw [ofChars?, text, takeSign_append hsign behindSign]
  simp only [takeDigits_append hwhole behindWhole,
    takeFraction_append hfraction hpointed behindFraction, takeExponent_exponentText hexponent,
    some]
  rfl

/-! ### Every text that has parts -/

theorem eq_append_of_takeSign
    {cs rest : List Char} {sign : Option Char} (h : takeSign cs = (sign, rest)) :
  cs = sign.toList ++ rest ∧ ∀ c ∈ sign, isSign c
  := by
  cases cs with
  | nil =>
    cases h
    exact ⟨rfl, nofun⟩
  | cons c cs =>
    rw [takeSign] at h
    split at h
    next hsign =>
      cases h
      refine ⟨rfl, ?_⟩
      rintro _ ⟨⟩
      exact hsign
    next =>
      cases h
      exact ⟨rfl, nofun⟩

theorem eq_append_of_takeDigits
    {cs ds rest : List Char} (h : takeDigits cs = (ds, rest)) :
  cs = ds ++ rest ∧ ∀ c ∈ ds, Digits.isDigit c
  := by
  cases h
  exact ⟨List.takeWhile_append_dropWhile.symm, List.all_eq_true.mp List.all_takeWhile⟩

theorem eq_append_of_takeFraction
    {cs fraction rest : List Char} {pointed : Bool}
    (h : takeFraction cs = (pointed, fraction, rest)) :
  cs = pointText pointed fraction ++ rest ∧ (∀ c ∈ fraction, Digits.isDigit c) ∧
    (pointed = false → fraction = [])
  := by
  cases cs with
  | nil =>
    cases h
    exact ⟨rfl, nofun, fun _ => rfl⟩
  | cons c cs =>
    rw [takeFraction] at h
    split at h
    next hpoint =>
      cases h
      obtain ⟨htext, hdigits⟩ := eq_append_of_takeDigits (rfl : takeDigits cs = _)
      refine ⟨?_, hdigits, nofun⟩
      rw [hpoint, pointText, if_pos rfl, List.cons_append, ← htext]
    next =>
      cases h
      exact ⟨rfl, nofun, fun _ => rfl⟩

theorem eq_exponentText_of_takeExponent
    {cs : List Char} {exponent : Option Exponent} (h : takeExponent cs = some exponent) :
  cs = exponentText exponent ∧ ∀ e ∈ exponent, e.WellFormed
  := by
  cases cs with
  | nil =>
    cases h
    exact ⟨rfl, nofun⟩
  | cons c cs =>
    rw [takeExponent] at h
    split at h
    next hmarker =>
      cases hsign : takeSign cs with
      | mk sign ds =>
        obtain ⟨rfl, hsigns⟩ := eq_append_of_takeSign hsign
        simp only [hsign] at h
        split at h
        next hdigits =>
          cases h
          refine ⟨rfl, ?_⟩
          rintro _ ⟨⟩
          exact ⟨hmarker, hsigns, hdigits⟩
        next => cases h
    next => cases h

/-- A text has the parts of a literal exactly when it is the literal's text. -/
theorem ofChars?_eq_some_iff
    {cs : List Char} {l : Literal} :
  ofChars? cs = some l ↔ l.WellFormed ∧ cs = l.write
  := by
  constructor
  · intro h
    rcases hsign : takeSign cs with ⟨sign, cs₁⟩
    rcases hwhole : takeDigits cs₁ with ⟨whole, cs₂⟩
    rcases hfraction : takeFraction cs₂ with ⟨pointed, fraction, cs₃⟩
    simp only [ofChars?, hsign, hwhole, hfraction] at h
    split at h
    next => cases h
    next hsome =>
      obtain ⟨exponent, hexponent, rfl⟩ := Option.map_eq_some_iff.mp h
      obtain ⟨rfl, hsigns⟩ := eq_append_of_takeSign hsign
      obtain ⟨rfl, hwholes⟩ := eq_append_of_takeDigits hwhole
      obtain ⟨rfl, hfractions, hpointed⟩ := eq_append_of_takeFraction hfraction
      obtain ⟨rfl, hexponents⟩ := eq_exponentText_of_takeExponent hexponent
      have digits : whole ≠ [] ∨ fraction ≠ [] := by
        by_cases hempty : whole = []
        · right
          rintro rfl
          exact hsome (by rw [hempty]; rfl)
        · exact .inl hempty
      refine ⟨⟨hsigns, hwholes, hfractions, hpointed, digits, hexponents⟩, ?_⟩
      rw [write, List.append_assoc, List.append_assoc]
      rfl
  · rintro ⟨h, rfl⟩
    exact ofChars?_write h

end SqlWire.Literal
