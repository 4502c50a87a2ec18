import SqlWire.Parameter
import SqlWire.Proofs.Floating.Texts
import SqlWire.Proofs.Geometry.Text
import SqlWire.Proofs.Text.Utf8

/-!
# Literals of geometries

The shortest text that is read back as a number is a numeral, `Double.isNumeral_toText`.  So
a geometry with finite coordinates is determined by its well-known text and by the literal of it
that is written into statements, `Geometry.texts_eq_iff`.
-/

namespace SqlWire

open WellKnownText

/-- Finite numbers are told by their shortest texts. -/
theorem Double.isNumeral_toText :
  IsNumeral toText
  where
  eq_of_eq {x y} hx hy htext := by
    have read := ofText?_toText hx
    rw [htext, ofText?_toText hy] at read
    exact (Option.some.inj read).symm
  ne_empty {x} hx hempty := by
    have read := ofText?_toText hx
    rw [hempty] at read
    cases read
  isNumeralChar {x} hx := by
    obtain ⟨negative, whole, part, r, hdenotes, htext, -⟩ := exists_toText_eq hx
    have digit {c : Char} (hc : Digits.isDigit c) : isNumeralChar c = true := by
      rw [isNumeralChar, hc]
      rfl
    have sign : ∀ c ∈ (if negative then ['-'] else []), isNumeralChar c := by
      cases negative
      · nofun
      · exact List.forall_mem_singleton.mpr rfl
    rw [htext, Shortest.write_literal, List.forall_mem_append, List.forall_mem_append]
    refine ⟨sign, fun c hc => digit (hdenotes.digits c (List.mem_append_left _ hc)), ?_⟩
    split
    · nofun
    · rw [List.forall_mem_cons]
      exact ⟨rfl, fun c hc => digit (hdenotes.digits c (List.mem_append_right _ hc))⟩

namespace Geometry

/-- Two geometries with finite coordinates are the same if they have the same well-known text, with
any numerals that tell numbers apart, or the same literal. -/
theorem texts_eq_iff
    {number : Double → String} (hnumber : IsNumeral number) {g h : Geometry} (hg : g.IsFinite)
    (hh : h.IsFinite) (mode mode' : Quoted.Escaping) (max max' : Option Nat) :
  (g.toTextWith number = h.toTextWith number ↔ g = h) ∧
  ((Value.geometry g).textBytesAs .geometry mode max =
    (Value.geometry h).textBytesAs .geometry mode' max' ↔ g = h)
  := by
  refine ⟨⟨eq_of_toTextWith_eq hnumber hg hh, ?_⟩, ?_, ?_⟩
  · rintro rfl
    rfl
  · intro hliteral
    have text := congrArg Utf8.decode (Except.ok.inj hliteral)
    rw [Value.plain, Value.plain, Utf8.decode_encode, Utf8.decode_encode, String.append_left_inj,
      String.append_right_inj] at text
    exact eq_of_toTextWith_eq Double.isNumeral_toText hg hh text
  · rintro rfl
    rfl

/-- The two zeros behind a collection without points. -/
theorem texts_eq_iff_zeros :
  let g := collection [multiPoint [], point ⟨.ofBits 0, .ofBits 0⟩]
  let h := collection [multiPoint [], point ⟨.ofBits 0, .ofBits 0x8000000000000000⟩]
  IsNumeral Double.toText ∧ g.IsFinite ∧ h.IsFinite ∧
    g.toTextWith Double.toText ≠ h.toTextWith Double.toText ∧
    (Value.geometry g).textBytesAs .geometry .backslash none ≠
      (Value.geometry h).textBytesAs .geometry .backslash none
  := by
  intro g h
  have hg : g.IsFinite := List.forall_mem_singleton.mpr ⟨by decide, by decide⟩
  have hh : h.IsFinite := List.forall_mem_singleton.mpr ⟨by decide, by decide⟩
  have zeros : g.points ≠ h.points := by decide
  have hne : g ≠ h := fun same => zeros (congrArg points same)
  obtain ⟨htexts, hliterals⟩ :=
    texts_eq_iff Double.isNumeral_toText hg hh .backslash .backslash none none
  exact ⟨Double.isNumeral_toText, hg, hh, mt htexts.mp hne, mt hliterals.mp hne⟩

end Geometry

end SqlWire
