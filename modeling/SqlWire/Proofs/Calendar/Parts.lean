import SqlWire.Proofs.Calendar.Texts

/-!
# Parts of texts

A part of a text is settled by the characters that it takes and the one behind them,
`Temporal.Local`, so that a text may be cut behind a part or go on in another way.  A date is such a
part, `Temporal.local_date`, and so is all that is in front of its day, `Temporal.upToDay`.
-/

namespace SqlWire

open Digits

namespace Temporal

variable {α β : Type}

/-! ### Parts and what is behind them -/

/-- What the part takes, and its value, stay the same when what is behind it is left out or goes on
in another way behind its first character. -/
def Local (p : Part α) : Prop :=
  ∀ cs a rest, p cs = some (a, rest) →
    ∃ taken, cs = taken ++ rest ∧
      ∀ rest' : List Char, rest' = [] ∨ rest'.head? = rest.head? →
        p (taken ++ rest') = some (a, rest')

theorem Local.bind
    {p : Part α} {next : α → Part β} (hp : Local p) (hnext : ∀ a, Local (next a)) :
  Local fun cs => p cs >>= fun x => next x.1 x.2
  := by
  intro cs b rest h
  obtain ⟨⟨a, cs₁⟩, h₁, h₂⟩ := Option.bind_eq_some_iff.mp h
  obtain ⟨taken₁, rfl, same₁⟩ := hp _ _ _ h₁
  obtain ⟨taken₂, rfl, same₂⟩ := hnext a _ _ _ h₂
  refine ⟨taken₁ ++ taken₂, (List.append_assoc _ _ _).symm, ?_⟩
  intro rest' hrest
  have behind : taken₂ ++ rest' = [] ∨ (taken₂ ++ rest').head? = (taken₂ ++ rest).head? := by
    cases taken₂ with
    | nil => exact hrest
    | cons c taken₂ => exact .inr rfl
  dsimp only
  rw [List.append_assoc, same₁ _ behind]
  exact same₂ rest' hrest

/-- A value that is not read. -/
theorem local_value
    (a : Option α) :
  Local fun cs => a >>= fun a => some (a, cs)
  := by
  intro cs b rest h
  obtain ⟨a, ha, h⟩ := Option.bind_eq_some_iff.mp h
  cases h
  refine ⟨[], rfl, fun rest' _ => ?_⟩
  rw [ha]
  rfl

theorem local_char
    (c : Char) :
  Local (char c)
  := by
  intro cs a rest h
  cases cs with
  | nil => cases h
  | cons c' cs =>
    rw [char] at h
    split at h
    next hc =>
      cases h
      exact ⟨[c'], rfl, fun rest' _ => if_pos hc⟩
    next => cases h

/-- A run of characters that does not change with what is behind its end. -/
theorem local_run
    {run : List Char → List Char} (hstart : ∀ cs, run cs <+: cs)
    (hrun : ∀ cs rest, rest = [] ∨ rest.head? = (cs.drop (run cs).length).head? →
      run (run cs ++ rest) = run cs)
    (value : List Char → Option α) :
  Local fun cs => value (run cs) >>= fun a => some (a, cs.drop (run cs).length)
  := by
  intro cs a rest h
  obtain ⟨a, ha, h⟩ := Option.bind_eq_some_iff.mp h
  cases h
  refine ⟨run cs, (List.prefix_iff_eq_append.mp (hstart cs)).symm, fun rest' hrest => ?_⟩
  dsimp only
  rw [hrun cs rest' hrest, ha, List.drop_left]
  rfl

/-- A run of bounded width ends there, or in front of a character that is none of its kind. -/
theorem takeWhile_take_append_of_head?
    (f : Char → Bool) (w : Nat) (cs : List Char) {rest : List Char}
    (h : rest = [] ∨ rest.head? = (cs.drop ((cs.take w).takeWhile f).length).head?) :
  (((cs.take w).takeWhile f ++ rest).take w).takeWhile f = (cs.take w).takeWhile f
  := by
  induction w generalizing cs with
  | zero => rfl
  | succ w ih =>
    cases cs with
    | nil =>
      obtain rfl : rest = [] := by simpa using h
      rfl
    | cons c cs =>
      rw [List.take_succ_cons] at h ⊢
      by_cases hc : f c
      · simp only [List.takeWhile_cons_of_pos hc, List.length_cons, List.drop_succ_cons] at h ⊢
        rw [List.cons_append, List.take_succ_cons, List.takeWhile_cons_of_pos hc, ih cs h]
      · simp only [List.takeWhile_cons_of_neg hc, List.length_nil, List.drop_zero] at h ⊢
        rcases h with rfl | h
        · rfl
        · obtain ⟨rest, rfl⟩ := List.head?_eq_some_iff.mp h
          exact List.takeWhile_cons_of_neg hc

/-- A run ends in front of a character that is none of its kind. -/
theorem takeWhile_append_of_head?
    (f : Char → Bool) (cs : List Char) {rest : List Char}
    (h : rest = [] ∨ rest.head? = (cs.drop (cs.takeWhile f).length).head?) :
  (cs.takeWhile f ++ rest).takeWhile f = cs.takeWhile f
  := by
  -- a run is one of a width that it does not reach
  have whole : cs.take (cs.length + rest.length) = cs := List.take_of_length_le (by omega)
  have short : (cs.takeWhile f ++ rest).length ≤ cs.length + rest.length := by
    have := (cs.takeWhile_prefix f).length_le
    rw [List.length_append]
    omega
  have bounded := takeWhile_take_append_of_head? f (cs.length + rest.length) cs
    (by rw [whole]; exact h)
  rw [whole, List.take_of_length_le short] at bounded
  exact bounded

/-! ### The parts of a date -/

theorem trimStart_eq_drop
    (cs : List Char) :
  Blank.trimStart cs = cs.drop (cs.takeWhile Blank.isBlank).length
  :=
  calc Blank.trimStart cs
    _ = (cs.takeWhile Blank.isBlank ++ Blank.trimStart cs).drop
          (cs.takeWhile Blank.isBlank).length := List.drop_left.symm
    _ = cs.drop (cs.takeWhile Blank.isBlank).length := by
          rw [Blank.trimStart, List.takeWhile_append_dropWhile]

theorem local_blanks :
  Local fun cs => some ((), Blank.trimStart cs)
  := by
  have run : (fun cs => some ((), Blank.trimStart cs)) = fun cs =>
      some () >>= fun a => some (a, cs.drop (cs.takeWhile Blank.isBlank).length) := by
    funext cs
    rw [trimStart_eq_drop]
    rfl
  rw [run]
  exact local_run (fun cs => List.takeWhile_prefix _)
    (fun cs rest => takeWhile_append_of_head? Blank.isBlank cs) fun _ => some ()

theorem Local.trimStart
    {p : Part α} (hp : Local p) :
  Local fun cs => p (Blank.trimStart cs)
  :=
  local_blanks.bind fun _ => hp

theorem local_digits
    (w : Nat) :
  Local (digits w)
  := by
  have run : digits w = fun cs =>
      let ds := (cs.take w).takeWhile isDigit
      (if ds.isEmpty then none else some (value ds)) >>= fun a => some (a, cs.drop ds.length) := by
    funext cs
    rw [digits]
    dsimp only
    split <;> rfl
  rw [run]
  exact local_run (fun cs => (List.takeWhile_prefix _).trans (List.take_prefix _ _))
    (fun cs rest => takeWhile_take_append_of_head? isDigit w cs)
    fun ds => if ds.isEmpty then none else some (value ds)

theorem local_allDigits :
  Local allDigits
  := by
  have run : allDigits = fun cs =>
      let ds := cs.takeWhile isDigit
      (if ds.isEmpty then none else below? (2 ^ 63) ds) >>= fun a =>
        some (a, cs.drop ds.length) := by
    funext cs
    rw [allDigits]
    dsimp only
    split
    next => rfl
    next => rw [Option.map_eq_bind]; rfl
  rw [run]
  exact local_run (fun cs => List.takeWhile_prefix _)
    (fun cs rest => takeWhile_append_of_head? isDigit cs)
    fun ds => if ds.isEmpty then none else below? (2 ^ 63) ds

/-- A value that is refused unless it is allowed. -/
theorem local_guard
    (q : Prop) [Decidable q] (a : α) :
  Local fun cs => if q then some (a, cs) else none
  := by
  split
  next => exact local_value (some a)
  next => exact local_value none

theorem local_twoDigits
    (least greatest : Nat) :
  Local (twoDigits least greatest)
  :=
  (local_digits 2).trimStart.bind fun n => local_guard (least ≤ n ∧ n ≤ greatest) n

/-- A sign and any number of digits, behind any blanks. -/
def signed (sign : Char) : Part Nat :=
  fun cs => char sign (Blank.trimStart cs) >>= fun x => allDigits x.2

theorem local_signed
    (sign : Char) :
  Local (signed sign)
  :=
  ((local_char sign).bind fun _ => local_allDigits).trimStart

theorem year_eq_some_iff
    {cs rest : List Char} {y : Int} :
  year cs = some (y, rest) ↔
    (∃ n, signed '-' cs = some (n, rest) ∧ -n = y) ∨
      (∃ n, signed '+' cs = some (n, rest) ∧ n = y) ∨
        ∃ n, digits 4 (Blank.trimStart cs) = some (n, rest) ∧ n = y
  := by
  have number (o : Option (Nat × List Char)) (f : Nat → Int) :
      (o.bind fun x => some (f x.1, x.2)) = some (y, rest) ↔
        ∃ n, o = some (n, rest) ∧ f n = y := by
    cases o <;> simp [Prod.ext_iff, and_comm]
  rw [year]
  split
  next cs' hcs =>
    have minus : signed '-' cs = allDigits cs' := by
      rw [signed, hcs]
      rfl
    have plus : signed '+' cs = none := by
      rw [signed, hcs]
      rfl
    have none : digits 4 ('-' :: cs') = none := rfl
    simpa [hcs, plus, none, minus] using number (allDigits cs') fun n => -n
  next cs' hcs =>
    have minus : signed '-' cs = none := by
      rw [signed, hcs]
      rfl
    have plus : signed '+' cs = allDigits cs' := by
      rw [signed, hcs]
      rfl
    have none : digits 4 ('+' :: cs') = none := rfl
    simpa [hcs, plus, none, minus] using number (allDigits cs') fun n => n
  next hminus hplus =>
    have unsigned {sign : Char} (h : ∀ cs', Blank.trimStart cs ≠ sign :: cs') :
        signed sign cs = none := by
      rw [signed]
      cases hcs : Blank.trimStart cs with
      | nil => rfl
      | cons c cs' =>
        have hc : sign ≠ c := fun hc => h cs' (hc ▸ hcs)
        rw [char, if_neg hc]
        rfl
    simpa [unsigned hminus, unsigned hplus] using
      number (digits 4 (Blank.trimStart cs)) fun n => n

theorem local_year :
  Local year
  := by
  intro cs y rest h
  rcases year_eq_some_iff.mp h with ⟨n, hn, rfl⟩ | ⟨n, hn, rfl⟩ | ⟨n, hn, rfl⟩
  · obtain ⟨taken, rfl, same⟩ := local_signed '-' _ _ _ hn
    exact ⟨taken, rfl, fun rest' hrest => year_eq_some_iff.mpr (.inl ⟨n, same _ hrest, rfl⟩)⟩
  · obtain ⟨taken, rfl, same⟩ := local_signed '+' _ _ _ hn
    exact ⟨taken, rfl, fun rest' hrest =>
      year_eq_some_iff.mpr (.inr (.inl ⟨n, same _ hrest, rfl⟩))⟩
  · obtain ⟨taken, rfl, same⟩ := (local_digits 4).trimStart _ _ _ hn
    exact ⟨taken, rfl, fun rest' hrest =>
      year_eq_some_iff.mpr (.inr (.inr ⟨n, same _ hrest, rfl⟩))⟩

/-- The year and month of a date, and all that is in front of its day. -/
def upToDay : Part (Int × Nat) :=
  fun cs => do
    let (y, cs) ← year cs
    let ((), cs) ← char '-' cs
    let (m, cs) ← twoDigits 1 12 cs
    let ((), cs) ← char '-' cs
    return ((y, m), Blank.trimStart cs)

theorem local_upToDay :
  Local upToDay
  :=
  local_year.bind fun y => (local_char '-').bind fun _ => (local_twoDigits 1 12).bind fun m =>
    (local_char '-').bind fun _ => local_blanks.bind fun _ => local_value (some (y, m))

/-- The day behind a year and a month. -/
theorem date_eq
    (cs : List Char) :
  date cs = upToDay cs >>= fun x => digits 2 x.2 >>= fun y =>
    Date.of? x.1.1 x.1.2 y.1 >>= fun d => some (d, y.2)
  := by
  have bounds (y : Int) (m n : Nat) (rest : List Char) :
      ((if 1 ≤ n ∧ n ≤ 31 then some (n, rest) else none).bind fun x =>
        (Date.of? y m x.1).bind fun d => some (d, x.2)) =
      (Date.of? y m n).bind fun d => some (d, rest) := by
    split
    next => rfl
    next hn =>
      have none : Date.of? y m n = none := by
        apply dif_neg
        rintro ⟨-, -, hday⟩
        have days := daysInMonth_le y m
        omega
      rw [none]
      rfl
  simp only [date, upToDay, twoDigits, Option.bind_eq_bind, Option.bind_assoc, Option.pure_def,
    Option.bind_some, bounds]

theorem local_date :
  Local date
  := by
  rw [funext date_eq]
  exact local_upToDay.bind fun x => (local_digits 2).bind fun n => local_value (Date.of? x.1 x.2 n)

end Temporal

end SqlWire
