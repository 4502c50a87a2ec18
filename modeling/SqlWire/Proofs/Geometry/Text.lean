import SqlWire.Geometry.Text
import SqlWire.Proofs.Geometry.Grammar

/-!
# Geometries are told by their texts

Where texts are put between brackets and separated by commas, each of them ends in front of a comma
or a closing bracket.  A text is `Told` if it can be read off up to there; then so can a list of
such texts in brackets, `told_bracketed`, and with it whatever is nested.  So geometries with finite
coordinates are told by their well-known texts, `Geometry.eq_of_toTextWith_eq`, as long as numbers
are told by their numerals, `IsNumeral`.
-/

namespace SqlWire

namespace WellKnownText

/-- The characters of numerals: digits, the point and the minus sign. -/
def isNumeralChar (c : Char) : Bool :=
  Digits.isDigit c || c == '.' || c == '-'

/-- The numerals of finite numbers have characters of numerals, one at least, and tell the numbers
apart. -/
structure IsNumeral (number : Double → String) : Prop where
  eq_of_eq {x y : Double} : x.isFinite → y.isFinite → number x = number y → x = y
  ne_empty {x : Double} : x.isFinite → number x ≠ ""
  isNumeralChar {x : Double} : x.isFinite → ∀ c ∈ (number x).toList, isNumeralChar c

/-- The character may be behind a text in a list: a comma, or the bracket that closes the list. -/
def IsEnd (c : Char) : Prop :=
  c = ',' ∨ c = ')'

/-- The text is not empty, and does not begin with the bracket that closes a list. -/
def Opens (text : String) : Prop :=
  ∃ c cs, text.toList = c :: cs ∧ c ≠ ')'

variable {α : Type}

/-- The text of `a` is told from those of all that have the property, by what is in front of the
comma or the bracket behind it. -/
def Told (P : α → Prop) (text : α → String) (a : α) : Prop :=
  ∀ ⦃b : α⦄ ⦃c c' : Char⦄ ⦃rest rest' : List Char⦄, P b → IsEnd c → IsEnd c' →
    (text a).toList ++ c :: rest = (text b).toList ++ c' :: rest' → a = b ∧ c :: rest = c' :: rest'

/-! ### Lists in brackets -/

/-- Two runs of characters of one kind, in front of others that are not of it. -/
theorem eq_of_run_eq
    {f : Char → Bool} {cs cs' rest rest' : List Char} {c c' : Char} (hcs : ∀ x ∈ cs, f x)
    (hcs' : ∀ x ∈ cs', f x) (hc : f c = false) (hc' : f c' = false)
    (h : cs ++ c :: rest = cs' ++ c' :: rest') :
  cs = cs' ∧ c :: rest = c' :: rest'
  := by
  have run {cs rest : List Char} {c : Char} (hcs : ∀ x ∈ cs, f x) (hc : f c = false) :
      (cs ++ c :: rest).takeWhile f = cs := by
    rw [List.takeWhile_append_of_pos hcs, List.takeWhile_cons_of_neg (by simp [hc]),
      List.append_nil]
  have same := congrArg (List.takeWhile f) h
  rw [run hcs hc, run hcs' hc'] at same
  subst same
  exact ⟨rfl, List.append_cancel_left h⟩

/-- The texts behind the first one in a list, each behind a comma. -/
def furtherTexts (text : α → String) (as : List α) : List Char :=
  as.flatMap fun a => ',' :: (text a).toList

theorem toList_intercalate_cons
    (text : α → String) (a : α) (as : List α) :
  (",".intercalate ((a :: as).map text)).toList = (text a).toList ++ furtherTexts text as
  := by
  induction as generalizing a with
  | nil => simp [furtherTexts]
  | cons b as ih =>
    have rest := ih b
    rw [List.map_cons] at rest
    rw [List.map_cons, List.map_cons, String.intercalate_cons_cons, String.toList_append,
      String.toList_append, rest, furtherTexts, furtherTexts, List.flatMap_cons, List.append_assoc]
    rfl

theorem exists_furtherTexts_eq_cons
    (text : α → String) (as : List α) (rest : List Char) :
  ∃ c cs, furtherTexts text as ++ ')' :: rest = c :: cs ∧ IsEnd c
  := by
  cases as with
  | nil => exact ⟨')', rest, rfl, .inr rfl⟩
  | cons a as => exact ⟨',', _, rfl, .inl rfl⟩

section

variable {P : α → Prop} {text : α → String} {as bs : List α} {rest rest' : List Char}

/-- The first of two texts in lists, and then the others. -/
theorem Told.eq_of_furtherTexts
    {a b : α} (ha : Told P text a) (hb : P b)
    (h : (text a).toList ++ (furtherTexts text as ++ ')' :: rest) =
      (text b).toList ++ (furtherTexts text bs ++ ')' :: rest')) :
  a = b ∧ furtherTexts text as ++ ')' :: rest = furtherTexts text bs ++ ')' :: rest'
  := by
  obtain ⟨c, cs, hc, hend⟩ := exists_furtherTexts_eq_cons text as rest
  obtain ⟨c', cs', hc', hend'⟩ := exists_furtherTexts_eq_cons text bs rest'
  rw [hc, hc'] at h ⊢
  apply ha hb hend hend' h

theorem furtherTexts_inj
    (has : ∀ a ∈ as, Told P text a) (hbs : ∀ b ∈ bs, P b)
    (h : furtherTexts text as ++ ')' :: rest = furtherTexts text bs ++ ')' :: rest') :
  as = bs ∧ rest = rest'
  := by
  induction as generalizing bs with
  | nil =>
    cases bs with
    | nil => exact ⟨rfl, (List.cons.inj h).2⟩
    | cons b bs => cases h
  | cons a as ih =>
    cases bs with
    | nil => cases h
    | cons b bs =>
      rw [List.forall_mem_cons] at has hbs
      simp only [furtherTexts, List.flatMap_cons, List.cons_append, List.append_assoc,
        List.cons.injEq, true_and] at h
      obtain ⟨rfl, hfurther⟩ := has.1.eq_of_furtherTexts hbs.1 h
      obtain ⟨rfl, hrest⟩ := ih has.2 hbs.2 hfurther
      exact ⟨rfl, hrest⟩

/-- Texts in brackets are read off one after the other. -/
theorem intercalate_inj
    (hopens : ∀ b, P b → Opens (text b)) (has : ∀ a ∈ as, P a ∧ Told P text a)
    (hbs : ∀ b ∈ bs, P b)
    (h : (",".intercalate (as.map text)).toList ++ ')' :: rest =
      (",".intercalate (bs.map text)).toList ++ ')' :: rest') :
  as = bs ∧ rest = rest'
  := by
  have opened {b : α} {cs cs' : List Char} (hb : P b) :
      (text b).toList ++ cs ≠ ')' :: cs' := by
    obtain ⟨c, rest, hcons, hc⟩ := hopens b hb
    rw [hcons, List.cons_append]
    intro hsame
    exact hc (List.cons.inj hsame).1
  cases as with
  | nil =>
    cases bs with
    | nil => exact ⟨rfl, (List.cons.inj h).2⟩
    | cons b bs =>
      rw [toList_intercalate_cons, List.append_assoc] at h
      exact absurd h.symm (opened (hbs b List.mem_cons_self))
  | cons a as =>
    rw [List.forall_mem_cons] at has
    cases bs with
    | nil =>
      rw [toList_intercalate_cons, List.append_assoc] at h
      exact absurd h (opened has.1.1)
    | cons b bs =>
      rw [List.forall_mem_cons] at hbs
      rw [toList_intercalate_cons, toList_intercalate_cons, List.append_assoc, List.append_assoc]
        at h
      obtain ⟨rfl, hfurther⟩ := has.1.2.eq_of_furtherTexts hbs.1 h
      obtain ⟨rfl, hrest⟩ := furtherTexts_inj (fun a ha => (has.2 a ha).2) hbs.2 hfurther
      exact ⟨rfl, hrest⟩

theorem toList_bracketed
    (texts : List String) (rest : List Char) :
  (bracketed texts).toList ++ rest = '(' :: ((",".intercalate texts).toList ++ ')' :: rest)
  := by
  simp [bracketed]

/-- A list of texts in brackets is told whatever is behind it, if each text is told within it. -/
theorem told_bracketed
    (hopens : ∀ b, P b → Opens (text b)) (has : ∀ a ∈ as, P a ∧ Told P text a) :
  Told (fun bs => ∀ b ∈ bs, P b) (fun bs => bracketed (bs.map text)) as
  := by
  intro bs c c' rest rest' hbs _ _ h
  dsimp only at h
  rw [toList_bracketed, toList_bracketed] at h
  apply intercalate_inj hopens has hbs (List.cons.inj h).2

end

theorem opens_bracketed
    (texts : List String) :
  Opens (bracketed texts)
  := by
  refine ⟨'(', (",".intercalate texts ++ ")").toList, ?_, by decide⟩
  rw [bracketed, String.append_assoc, String.toList_append]
  rfl

/-! ### Coordinates -/

end WellKnownText

/-- Both coordinates of a point are finite. -/
def Point.IsFinite (p : Point) : Prop :=
  p.x.isFinite ∧ p.y.isFinite

namespace WellKnownText

variable {number : Double → String}

/-- The text of a point is that of a run of one point, under another name. -/
theorem point_eq
    (number : Double → String) (p : Point) :
  point number p = "POINT" ++ bracketed [coordinates number p]
  := by
  have bracket : "POINT(" = "POINT" ++ "(" := by rfl
  rw [point, bracketed, String.intercalate_singleton, bracket, @String.append_assoc "POINT" "(",
    @String.append_assoc "POINT"]

theorem not_isNumeralChar_of_isEnd
    {c : Char} (h : IsEnd c) :
  isNumeralChar c = false
  := by
  rcases h with rfl | rfl <;> rfl

theorem opens_coordinates
    (hnumber : IsNumeral number) {p : Point} (hp : p.IsFinite) :
  Opens (coordinates number p)
  := by
  cases hx : (number p.x).toList with
  | nil => exact absurd (String.toList_eq_nil_iff.mp hx) (hnumber.ne_empty hp.1)
  | cons c cs =>
    have hc := hnumber.isNumeralChar hp.1 c (by rw [hx]; apply List.mem_cons_self)
    refine ⟨c, cs ++ (" " ++ number p.y).toList, ?_, ?_⟩
    · rw [coordinates, String.append_assoc, String.toList_append, hx, List.cons_append]
    · rintro rfl
      cases hc

theorem told_coordinates
    (hnumber : IsNumeral number) {p : Point} (hp : p.IsFinite) :
  Told Point.IsFinite (coordinates number) p
  := by
  intro q c c' rest rest' hq hc hc' h
  have text (r : Point) (cs : List Char) : (coordinates number r).toList ++ cs =
      (number r.x).toList ++ ' ' :: ((number r.y).toList ++ cs) := by
    simp [coordinates]
  rw [text, text] at h
  obtain ⟨hx, hrest⟩ := eq_of_run_eq (hnumber.isNumeralChar hp.1) (hnumber.isNumeralChar hq.1)
    (by rfl) (by rfl) h
  obtain ⟨hy, hend⟩ := eq_of_run_eq (hnumber.isNumeralChar hp.2) (hnumber.isNumeralChar hq.2)
    (not_isNumeralChar_of_isEnd hc) (not_isNumeralChar_of_isEnd hc') (List.cons.inj hrest).2
  refine ⟨?_, hend⟩
  have same_x := hnumber.eq_of_eq hp.1 hq.1 (String.toList_inj.mp hx)
  have same_y := hnumber.eq_of_eq hp.2 hq.2 (String.toList_inj.mp hy)
  cases p
  cases q
  cases same_x
  cases same_y
  rfl

theorem told_run
    (hnumber : IsNumeral number) {points : PointRun} (h : ∀ p ∈ points, p.IsFinite) :
  Told (fun ps => ∀ p ∈ ps, p.IsFinite) (run number) points
  :=
  told_bracketed (fun _ => opens_coordinates hnumber) fun p hp =>
    ⟨h p hp, told_coordinates hnumber (h p hp)⟩

theorem told_point
    (hnumber : IsNumeral number) {p : Point} (hp : p.IsFinite) :
  Told Point.IsFinite (fun q => bracketed ([q].map (coordinates number))) p
  := by
  have single := told_run hnumber (List.forall_mem_singleton.mpr hp)
  intro q c c' rest rest' hq hc hc' h
  obtain ⟨hlist, hrest⟩ := single (List.forall_mem_singleton.mpr hq) hc hc' h
  exact ⟨List.singleton_inj.mp hlist, hrest⟩

theorem told_runs
    (hnumber : IsNumeral number) {rings : Rings} (h : ∀ r ∈ rings, ∀ p ∈ r, p.IsFinite) :
  Told (fun rs => ∀ r ∈ rs, ∀ p ∈ r, p.IsFinite) (runs number) rings
  :=
  told_bracketed (fun _ _ => opens_bracketed _) fun r hr => ⟨h r hr, told_run hnumber (h r hr)⟩

end WellKnownText

open WellKnownText

namespace Geometry

/-! ### Geometries -/

mutual

/-- All points of a geometry. -/
def points : Geometry → List Point
  | point p => [p]
  | lineString ps => ps
  | polygon rings => rings.flatten
  | multiPoint ps => ps
  | multiLineString lines => lines.flatten
  | multiPolygon polygons => polygons.flatten.flatten
  | collection members => membersPoints members

/-- All points of the members of a collection. -/
def membersPoints : List Geometry → List Point
  | [] => []
  | g :: gs => points g ++ membersPoints gs

end

/-- All coordinates of the geometry are finite. -/
def IsFinite (g : Geometry) : Prop :=
  ∀ p ∈ g.points, p.IsFinite

theorem isFinite_collection_iff
    {members : List Geometry} :
  (collection members).IsFinite ↔ ∀ m ∈ members, m.IsFinite
  := by
  simp only [IsFinite, points]
  induction members with
  | nil => simp [membersPoints]
  | cons m members ih => rw [membersPoints, List.forall_mem_append, ih, List.forall_mem_cons]

end Geometry

/-- The name of a shape in well-known text. -/
def Shape.label : Shape → String
  | point => "POINT"
  | lineString => "LINESTRING"
  | polygon => "POLYGON"
  | multiPoint => "MULTIPOINT"
  | multiLineString => "MULTILINESTRING"
  | multiPolygon => "MULTIPOLYGON"
  | collection => "GEOMETRYCOLLECTION"

theorem Shape.eq_of_label_eq
    {s t : Shape} (h : s.label = t.label) :
  s = t
  := by
  cases s <;> cases t <;> simp [label] at h ⊢

namespace Geometry

variable {number : Double → String}

/-- What is behind the name of the shape in the well-known text of a geometry. -/
def content (number : Double → String) : Geometry → String
  | point p => bracketed ([p].map (coordinates number))
  | lineString points => run number points
  | polygon rings => runs number rings
  | multiPoint points => run number points
  | multiLineString lines => runs number lines
  | multiPolygon polygons => bracketed (polygons.map (runs number))
  | collection members => bracketed (members.map (toTextWith number))

theorem memberTexts_eq
    (number : Double → String) (members : List Geometry) :
  memberTexts number members = members.map (toTextWith number)
  := by
  induction members with
  | nil => rfl
  | cons m members ih => rw [memberTexts, ih, List.map_cons]

theorem toTextWith_eq
    (number : Double → String) (g : Geometry) :
  g.toTextWith number = g.shape.label ++ g.content number
  := by
  -- by computation, since the equations of the definition take long to be stated
  cases g with
  | point p =>
    change WellKnownText.point number p = _
    rw [WellKnownText.point_eq]
    rfl
  | collection members =>
    change "GEOMETRYCOLLECTION" ++ bracketed (memberTexts number members) = _
    rw [memberTexts_eq]
    rfl
  | lineString | polygon | multiPoint | multiLineString | multiPolygon => rfl

theorem toList_content
    (number : Double → String) (g : Geometry) :
  ∃ cs, ∀ rest, (g.content number).toList ++ rest = '(' :: (cs ++ ')' :: rest)
  := by
  have bracket (texts : List String) : ∃ cs, ∀ rest,
      (bracketed texts).toList ++ rest = '(' :: (cs ++ ')' :: rest) :=
    ⟨_, toList_bracketed texts⟩
  cases g <;> apply bracket

/-- The name of the shape is told by the bracket behind it, and so the rest is what tells a
geometry from those of the same shape. -/
theorem told_of_content
    {g : Geometry} (h : Told (fun h => h.shape = g.shape ∧ h.IsFinite) (content number) g) :
  Told IsFinite (toTextWith number) g
  := by
  have label (s : Shape) : ∀ c ∈ s.label.toList, (c != '(') = true := by
    apply List.all_eq_true.mp
    cases s <;> rfl
  intro g' c c' rest rest' hg' hc hc' htext
  simp only [toTextWith_eq, String.toList_append, List.append_assoc] at htext
  obtain ⟨cs, hcs⟩ := toList_content number g
  obtain ⟨cs', hcs'⟩ := toList_content number g'
  rw [hcs, hcs'] at htext
  obtain ⟨hlabel, hcontent⟩ := eq_of_run_eq (label _) (label _) (by rfl) (by rfl) htext
  rw [← hcs, ← hcs'] at hcontent
  have shape := Shape.eq_of_label_eq (String.toList_inj.mp hlabel)
  apply h ⟨shape.symm, hg'⟩ hc hc' hcontent

/-- A geometry is told by its content from those of the same shape if what it is made of is told. -/
theorem told_content
    {α : Type} {P : α → Prop} {text : α → String} {a : α} (make : α → Geometry)
    (h : Told P text a) (hcontent : ∀ b, (make b).content number = text b)
    (hshape : ∀ g : Geometry, g.shape = (make a).shape → g.IsFinite → ∃ b, P b ∧ g = make b) :
  Told (fun g => g.shape = (make a).shape ∧ g.IsFinite) (content number) (make a)
  := by
  rintro g c c' rest rest' ⟨hg, hfinite⟩ hc hc' htext
  obtain ⟨b, hb, rfl⟩ := hshape g hg hfinite
  rw [hcontent, hcontent] at htext
  obtain ⟨rfl, hrest⟩ := h hb hc hc' htext
  exact ⟨rfl, hrest⟩

theorem opens_toTextWith
    (number : Double → String) (g : Geometry) :
  Opens (g.toTextWith number)
  := by
  have label (s : Shape) : Opens s.label := by
    cases s <;> exact ⟨_, _, rfl, by decide⟩
  obtain ⟨c, cs, hlabel, hc⟩ := label g.shape
  refine ⟨c, cs ++ (g.content number).toList, ?_, hc⟩
  rw [toTextWith_eq, String.toList_append, hlabel, List.cons_append]

/-- Geometries are told by their well-known texts, whatever is behind them in a list. -/
theorem told_toTextWith
    (hnumber : IsNumeral number) (g : Geometry) :
  g.IsFinite → Told IsFinite (toTextWith number) g
  := by
  have parts {α : Type} {P : α → Prop} {lists : List (List α)} (h : ∀ a ∈ lists.flatten, P a) :
      ∀ as ∈ lists, ∀ a ∈ as, P a :=
    fun as has a ha => h a (List.mem_flatten_of_mem has ha)
  induction g using members_induction with
  | step g ih =>
    intro hg
    apply told_of_content
    cases g with
    | point p =>
      apply told_content point (told_point hnumber (hg p List.mem_cons_self)) fun _ => rfl
      rintro (q | _ | _ | _ | _ | _ | _) hshape hfinite <;> cases hshape
      exact ⟨q, hfinite q List.mem_cons_self, rfl⟩
    | lineString ps =>
      apply told_content lineString (told_run hnumber hg) fun _ => rfl
      rintro (_ | qs | _ | _ | _ | _ | _) hshape hfinite <;> cases hshape
      exact ⟨qs, hfinite, rfl⟩
    | polygon rings =>
      apply told_content polygon (told_runs hnumber (parts hg)) fun _ => rfl
      rintro (_ | _ | rings' | _ | _ | _ | _) hshape hfinite <;> cases hshape
      exact ⟨rings', parts hfinite, rfl⟩
    | multiPoint ps =>
      apply told_content multiPoint (told_run hnumber hg) fun _ => rfl
      rintro (_ | _ | _ | qs | _ | _ | _) hshape hfinite <;> cases hshape
      exact ⟨qs, hfinite, rfl⟩
    | multiLineString lines =>
      apply told_content multiLineString (told_runs hnumber (parts hg)) fun _ => rfl
      rintro (_ | _ | _ | _ | lines' | _ | _) hshape hfinite <;> cases hshape
      exact ⟨lines', parts hfinite, rfl⟩
    | multiPolygon polygons =>
      have each : ∀ rings ∈ polygons, (∀ r ∈ rings, ∀ p ∈ r, p.IsFinite) ∧
          Told (fun rs => ∀ r ∈ rs, ∀ p ∈ r, p.IsFinite) (runs number) rings := by
        intro rings hrings
        have finite := parts (parts hg) rings hrings
        exact ⟨finite, told_runs hnumber finite⟩
      apply told_content multiPolygon (told_bracketed (fun _ _ => opens_bracketed _) each)
        fun _ => rfl
      rintro (_ | _ | _ | _ | _ | polygons' | _) hshape hfinite <;> cases hshape
      exact ⟨polygons', parts (parts hfinite), rfl⟩
    | collection members =>
      have each : ∀ m ∈ members, m.IsFinite ∧ Told IsFinite (toTextWith number) m := by
        intro m hm
        have finite := isFinite_collection_iff.mp hg m hm
        exact ⟨finite, ih m hm finite⟩
      apply told_content collection (told_bracketed (fun g _ => opens_toTextWith number g) each)
        fun _ => rfl
      rintro (_ | _ | _ | _ | _ | _ | members') hshape hfinite <;> cases hshape
      exact ⟨members', isFinite_collection_iff.mp hfinite, rfl⟩

/-- Two geometries with finite coordinates and the same well-known text are the same. -/
theorem eq_of_toTextWith_eq
    (hnumber : IsNumeral number) {g h : Geometry} (hg : g.IsFinite) (hh : h.IsFinite)
    (htext : g.toTextWith number = h.toTextWith number) :
  g = h
  := by
  have closed : (g.toTextWith number).toList ++ [')'] = (h.toTextWith number).toList ++ [')'] := by
    rw [htext]
  exact (told_toTextWith hnumber g hg hh (.inr rfl) (.inr rfl) closed).1

end Geometry

end SqlWire
