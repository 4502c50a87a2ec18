import Mathlib.Data.List.Basic
import SqlWire.Proofs.Calendar.Parts

/-!
# Dates in the first bytes of texts

The date of a text is read from its first ten bytes, and the time on a day from all of it.
`Temporal.readDate_of_startsWithDate` says what ten bytes hold of a date that takes more or fewer:
`Date.cut?`.
-/

namespace SqlWire

open Digits

namespace Date

theorem of?_eq_some_iff
    {y : Int} {m n : Nat} {d : Date} :
  Date.of? y m n = some d ↔ d.year = y ∧ d.month = m ∧ d.day = n
  := by
  rw [Date.of?]
  split
  next h =>
    rw [Option.some.injEq]
    constructor
    · rintro rfl
      exact ⟨rfl, rfl, rfl⟩
    · rintro ⟨rfl, rfl, rfl⟩
      rfl
  next h =>
    simp only [reduceCtorEq, false_iff]
    rintro ⟨rfl, rfl, rfl⟩
    exact h d.isDay

/-- What ten bytes hold of a date that takes `n` bytes: all of it, or the first digit of its day
alone, which is a date only if there are two. -/
def cut? (d : Date) (n : Nat) : Option Date :=
  if n = 10 then some d else if n = 11 then of? d.year d.month (d.day / 10) else none

theorem cut?_eq_some_self_iff
    {d : Date} {n : Nat} :
  d.cut? n = some d ↔ n = 10
  := by
  rw [cut?]
  split
  next hten => simp [hten]
  next hten =>
    simp only [hten, iff_false]
    split
    next =>
      intro h
      obtain ⟨-, -, hday⟩ := of?_eq_some_iff.mp h
      obtain ⟨-, -, hsome, -⟩ := d.isDay
      omega
    next => nofun

end Date

namespace Temporal

/-! ### Dates that are cut short -/

/-- Digits that are read are a number of at most that many. -/
theorem exists_of_digits
    {w n : Nat} {cs rest : List Char} (h : digits w cs = some (n, rest)) :
  ∃ ds, cs = ds ++ rest ∧ isNumber ds ∧ ds.length ≤ w ∧ value ds = n
  := by
  rw [digits] at h
  split at h
  next => cases h
  next hsome =>
    cases h
    have first : (cs.take w).takeWhile isDigit <+: cs :=
      (List.takeWhile_prefix _).trans (List.take_prefix _ _)
    refine ⟨_, (List.prefix_iff_eq_append.mp first).symm, isNumber_iff.mpr ⟨?_, ?_⟩, ?_, rfl⟩
    · rintro hnil
      rw [hnil] at hsome
      apply hsome rfl
    · intro c hc
      exact List.all_eq_true.mp List.all_takeWhile c hc
    · exact (List.takeWhile_prefix _).length_le.trans (List.length_take_le _ _)

theorem digits_of_isNumber
    {w : Nat} {ds : List Char} (h : isNumber ds) (hlength : ds.length ≤ w) :
  digits w ds = some (value ds, [])
  := by
  obtain ⟨hsome, hdigits⟩ := isNumber_iff.mp h
  have all : (ds.take w).takeWhile isDigit = ds := by
    rw [List.take_of_length_le hlength, ← List.append_nil ds, List.takeWhile_append_of_pos hdigits]
    rfl
  have some : ds.isEmpty = false := List.isEmpty_eq_false_iff.mpr hsome
  simp only [digits, all, some, List.drop_length]
  rfl

/-- A date ends with the one or two digits of its day, behind its year and month. -/
theorem exists_of_date
    {cs rest : List Char} {d : Date} (h : date cs = some (d, rest)) :
  ∃ head ds, cs = head ++ (ds ++ rest) ∧ isNumber ds ∧ ds.length ≤ 2 ∧ d.day = value ds ∧
    ∀ rest', rest'.head? = (ds ++ rest).head? →
      upToDay (head ++ rest') = some ((d.year, d.month), rest')
  := by
  rw [date_eq] at h
  obtain ⟨⟨⟨y, m⟩, cs'⟩, hup, h⟩ := Option.bind_eq_some_iff.mp h
  obtain ⟨⟨n, rest'⟩, hn, h⟩ := Option.bind_eq_some_iff.mp h
  obtain ⟨d', hd, h⟩ := Option.bind_eq_some_iff.mp h
  obtain ⟨rfl, rfl⟩ : d' = d ∧ rest' = rest := by simpa using h
  obtain ⟨head, rfl, same⟩ := local_upToDay _ _ _ hup
  obtain ⟨ds, rfl, hds, hlength, rfl⟩ := exists_of_digits hn
  obtain ⟨rfl, rfl, hday⟩ := Date.of?_eq_some_iff.mp hd
  exact ⟨head, ds, rfl, hds, hlength, hday, fun rest hrest => same rest (.inr hrest)⟩

/-- A text that ends in front of the day of a date is no date. -/
theorem whole_date_upToDay
    {w more cs : List Char} {x : Int × Nat} (h : upToDay (w ++ more ++ cs) = some (x, cs)) :
  whole date w = none
  := by
  rw [whole, date_eq]
  cases hw : upToDay w with
  | none => rfl
  | some read =>
    obtain ⟨x', ds⟩ := read
    obtain ⟨head, rfl, same⟩ := local_upToDay _ _ _ hw
    -- a digit of a day in the text would be one in front of the day
    have none : ds = [] := by
      cases ds with
      | nil => rfl
      | cons c ds =>
        have longer := same (c :: (ds ++ (more ++ cs))) (.inr rfl)
        simp only [List.append_assoc, List.cons_append] at h longer
        rw [h, Option.some.injEq, Prod.mk.injEq] at longer
        have length := congrArg List.length longer.2
        simp only [List.length_cons, List.length_append] at length
        omega
    subst none
    rfl

/-- A date is read whatever part of the text behind it is left. -/
theorem date_append_more
    {cs more rest : List Char} {d : Date} (h : date (cs ++ rest) = some (d, rest))
    (hmore : more <+: rest) :
  date (cs ++ more) = some (d, more)
  := by
  obtain ⟨taken, htaken, same⟩ := local_date _ _ _ h
  obtain rfl : cs = taken := List.append_cancel_right htaken
  apply same
  cases more with
  | nil => exact .inl rfl
  | cons c more =>
    obtain ⟨rest, rfl⟩ := hmore
    exact .inr rfl

/-- A date that ends with one or two digits. -/
theorem whole_date_of_upToDay
    {cs ds : List Char} {x : Int × Nat} (h : upToDay cs = some (x, ds)) (hds : isNumber ds)
    (hlength : ds.length ≤ 2) :
  whole date cs = Date.of? x.1 x.2 (value ds)
  := by
  rw [whole, date_eq, h, Option.bind_eq_bind, Option.bind_some, digits_of_isNumber hds hlength,
    Option.bind_eq_bind, Option.bind_some]
  cases Date.of? x.1 x.2 (value ds) <;> rfl

/-- No day is left of one digit without it. -/
theorem of?_of_one_digit
    {ds : List Char} (hds : ∀ c ∈ ds, isDigit c) (hone : ds.length = 1) (y : Int) (m : Nat) :
  Date.of? y m (value ds / 10) = none
  := by
  have small := value_lt hds
  rw [hone] at small
  have zero : value ds / 10 = 0 := by omega
  rw [zero, Date.of?, dif_neg]
  rintro ⟨-, -, hday, -⟩
  omega

/-- A date without its last character is one of the first digit of its day, and no date if the day
has one digit; without more characters it is no date. -/
theorem whole_date_cut
    {w more rest : List Char} {d : Date} (h : date (w ++ more ++ rest) = some (d, rest))
    (hmore : more ≠ []) :
  whole date w = if more.length = 1 then Date.of? d.year d.month (d.day / 10) else none
  := by
  obtain ⟨head, ds, hhead, hds, hlength, hday, same⟩ := exists_of_date h
  obtain ⟨hsome, hdigits⟩ := isNumber_iff.mp hds
  have parts : w ++ more = head ++ ds := by
    rw [← List.append_assoc] at hhead
    exact List.append_cancel_right hhead
  have infront (as : List Char) (hw : head = w ++ as) (hcut : more = as ++ ds) :
      whole date w = if more.length = 1 then Date.of? d.year d.month (d.day / 10) else none := by
    have some := List.length_pos_iff.mpr hsome
    have up := same (ds ++ rest) rfl
    rw [hw] at up
    rw [whole_date_upToDay up, hday, hcut, List.length_append]
    split
    next hone => rw [of?_of_one_digit hdigits (by omega)]
    next => rfl
  rcases List.append_eq_append_iff.mp parts with ⟨as, hw, hcut⟩ | ⟨_ | ⟨c, as⟩, hw, hcut⟩
  · exact infront as hw hcut
  · exact infront [] (by simpa using hw.symm) (by simpa using hcut.symm)
  · -- the text ends behind the first of two digits
    have some := List.length_pos_iff.mpr hmore
    have length := congrArg List.length hcut
    rw [List.length_append, List.length_cons] at length
    obtain rfl : as = [] := List.eq_nil_of_length_eq_zero (by omega)
    rw [List.length_nil] at length
    have up : upToDay w = Option.some ((d.year, d.month), ds.take 1) := by
      rw [hw, hcut]
      apply same
      rw [hcut]
      rfl
    have first : isNumber (ds.take 1) := by
      rw [isNumber_iff, hcut]
      refine ⟨List.cons_ne_nil _ _, fun c' hc' => hdigits c' ?_⟩
      rw [hcut]
      exact List.mem_of_mem_take hc'
    have tens : value (ds.take 1) = d.day / 10 := by
      rw [value_take hdigits, hday, show ds.length - 1 = 1 by omega, Nat.pow_one]
    rw [if_pos (by omega), whole_date_of_upToDay up first, tens]
    exact (List.length_take_le _ _).trans (by decide)

/-- The last character of a date is a digit. -/
theorem exists_digit_of_date
    {cs rest : List Char} {d : Date} (h : date (cs ++ rest) = some (d, rest)) :
  ∃ taken c, cs = taken ++ [c] ∧ isDigit c
  := by
  obtain ⟨head, ds, hcs, hds, -⟩ := exists_of_date h
  obtain ⟨hsome, hdigits⟩ := isNumber_iff.mp hds
  rw [← List.append_assoc] at hcs
  refine ⟨head ++ ds.dropLast, ds.getLast hsome, ?_, hdigits _ (List.getLast_mem hsome)⟩
  rw [List.append_assoc, List.dropLast_concat_getLast, List.append_cancel_right hcs]

/-! ### The first bytes of texts -/

theorem utf8ByteSize_ofList_eq_zero_iff
    {cs : List Char} :
  (String.ofList cs).utf8ByteSize = 0 ↔ cs = []
  := by
  rw [String.utf8ByteSize_eq_zero_iff, String.ofList_eq_empty_iff]

theorem utf8ByteSize_ofList_append
    (cs cs' : List Char) :
  (String.ofList (cs ++ cs')).utf8ByteSize =
    (String.ofList cs).utf8ByteSize + (String.ofList cs').utf8ByteSize
  := by
  rw [String.ofList_append, String.utf8ByteSize_append]

/-- The first bytes of a text are those of its start with so many bytes. -/
theorem firstBytes?_eq_some_iff
    {n : Nat} {cs w : List Char} :
  firstBytes? n cs = some w ↔ w <+: cs ∧ (String.ofList w).utf8ByteSize = n
  := by
  induction cs generalizing n w with
  | nil =>
    rw [List.prefix_nil]
    cases n with
    | zero =>
      rw [firstBytes?, Option.some.injEq, utf8ByteSize_ofList_eq_zero_iff, and_self, eq_comm]
    | succ n =>
      rw [firstBytes?]
      simp only [reduceCtorEq, false_iff]
      rintro ⟨rfl, h⟩
      cases h
  | cons c cs ih =>
    cases n with
    | zero =>
      rw [firstBytes?, Option.some.injEq, utf8ByteSize_ofList_eq_zero_iff]
      constructor
      · rintro rfl
        exact ⟨List.nil_prefix, rfl⟩
      · rintro ⟨-, rfl⟩
        rfl
    | succ n =>
      have size (w : List Char) : (String.ofList (c :: w)).utf8ByteSize =
          c.utf8Size + (String.ofList w).utf8ByteSize := by
        rw [String.ofList_cons, String.utf8ByteSize_append, String.utf8ByteSize_singleton]
      rw [firstBytes?]
      constructor
      · intro h
        split at h
        next hc =>
          obtain ⟨w, hw, rfl⟩ := Option.map_eq_some_iff.mp h
          obtain ⟨hstart, hsize⟩ := ih.mp hw
          rw [List.cons_prefix_cons, size]
          exact ⟨⟨rfl, hstart⟩, by omega⟩
        next => cases h
      · rintro ⟨hstart, hsize⟩
        cases w with
        | nil => cases hsize
        | cons c' w =>
          obtain ⟨rfl, hcs⟩ := List.cons_prefix_cons.mp hstart
          rw [size] at hsize
          have rest := ih.mpr ⟨hcs, rfl⟩
          rw [if_pos (by omega), ← hsize, Nat.add_sub_cancel_left, rest]
          rfl

theorem readDate_eq
    (s target : String) :
  readDate s target = (whole date ((firstBytes? 10 s.toList).getD s.toList)).elim
    (.error (.malformed s target)) .ok
  := by
  rw [readDate]
  cases whole date ((firstBytes? 10 s.toList).getD s.toList) <;> rfl

/-! ### Dates in the first ten bytes -/

/-- A character that is a digit has one byte. -/
theorem utf8ByteSize_ofList_concat
    {c : Char} (hc : isDigit c) (cs : List Char) :
  (String.ofList (cs ++ [c])).utf8ByteSize = (String.ofList cs).utf8ByteSize + 1
  := by
  rw [utf8ByteSize_ofList_append, ← String.singleton_eq_ofList, String.utf8ByteSize_singleton,
    utf8Size_of_isDigit hc]

/-- What the first ten bytes of a text hold of the date that the text starts with. -/
theorem whole_date_first
    {cs rest w : List Char} {d : Date} (h : date (cs ++ rest) = some (d, rest))
    (hw : w <+: cs ++ rest) (hsize : (String.ofList w).utf8ByteSize = 10) :
  whole date w = d.cut? (String.ofList cs).utf8ByteSize
  := by
  have longer {more : List Char} (hmore : more <+: rest) (hcs : w = cs ++ more) :
      whole date w = d.cut? (String.ofList cs).utf8ByteSize := by
    subst hcs
    rw [whole, date_append_more h hmore]
    rw [utf8ByteSize_ofList_append] at hsize
    cases more with
    | nil => exact (if_pos hsize).symm
    | cons c more =>
      have some : (String.ofList (c :: more)).utf8ByteSize ≠ 0 := by
        rw [ne_eq, utf8ByteSize_ofList_eq_zero_iff]
        apply List.cons_ne_nil
      rw [Date.cut?, if_neg (by omega), if_neg (by omega)]
  rcases List.prefix_or_prefix_of_prefix hw (List.prefix_append cs rest) with
    ⟨more, rfl⟩ | ⟨more, rfl⟩
  · obtain ⟨taken, c, htaken, hc⟩ := exists_digit_of_date h
    rcases List.eq_nil_or_concat' more with rfl | ⟨ms, c', rfl⟩
    · exact longer List.nil_prefix (by rw [List.append_nil, List.append_nil])
    · -- the last of the missing characters is a digit
      rw [← List.append_assoc] at htaken
      obtain ⟨-, hlast⟩ := List.append_inj' htaken rfl
      obtain rfl := List.singleton_inj.mp hlast
      have none : (String.ofList ms).utf8ByteSize = 0 ↔ ms = [] := utf8ByteSize_ofList_eq_zero_iff
      have some : ms ++ [c'] ≠ [] :=
        List.append_ne_nil_of_right_ne_nil ms (List.cons_ne_nil c' [])
      rw [whole_date_cut h some, utf8ByteSize_ofList_append, hsize,
        utf8ByteSize_ofList_concat hc, List.length_append, List.length_singleton, Date.cut?,
        if_neg (by omega : ¬ 10 + ((String.ofList ms).utf8ByteSize + 1) = 10)]
      by_cases hms : ms = []
      · have length := List.length_eq_zero_iff.mpr hms
        have size := none.mpr hms
        rw [if_pos (by omega), if_pos (by omega)]
      · have length := List.length_pos_iff.mpr hms
        have size := mt none.mp hms
        rw [if_neg (by omega), if_neg (by omega)]
  · exact longer ((List.prefix_append_right_inj _).mp hw) rfl

/-- The text starts with the date, which takes `n` bytes of it. -/
def StartsWithDate (s : String) (d : Date) (n : Nat) : Prop :=
  ∃ before after : String,
    s = before ++ after ∧ date s.toList = some (d, after.toList) ∧ before.utf8ByteSize = n

/-- The date of a text that starts with a date is what ten bytes hold of it. -/
theorem readDate_of_startsWithDate
    {s : String} {d : Date} {n : Nat} (h : StartsWithDate s d n)
    (hmore : n < s.utf8ByteSize ∨ n = 10) (target : String) :
  readDate s target = (d.cut? n).elim (.error (.malformed s target)) .ok
  := by
  obtain ⟨before, after, rfl, hdate, rfl⟩ := h
  rw [readDate_eq]
  congr 1
  rw [String.toList_append] at hdate ⊢
  rw [String.utf8ByteSize_append] at hmore
  have size : (String.ofList before.toList).utf8ByteSize = before.utf8ByteSize := by
    rw [String.ofList_toList]
  cases hfirst : firstBytes? 10 (before.toList ++ after.toList) with
  | some w =>
    obtain ⟨hw, hten⟩ := firstBytes?_eq_some_iff.mp hfirst
    rw [Option.getD_some, whole_date_first hdate hw hten, size]
  | none =>
    have other {w : List Char} (hw : w <+: before.toList ++ after.toList) :
        (String.ofList w).utf8ByteSize ≠ 10 := by
      intro hten
      rw [firstBytes?_eq_some_iff.mpr ⟨hw, hten⟩] at hfirst
      cases hfirst
    obtain ⟨taken, c, htaken, hc⟩ := exists_digit_of_date hdate
    have ten := other (List.prefix_append _ _)
    have eleven : (String.ofList taken).utf8ByteSize ≠ 10 := by
      apply other
      rw [htaken, List.append_assoc]
      apply List.prefix_append
    rw [htaken, utf8ByteSize_ofList_concat hc] at size
    rw [htaken, utf8ByteSize_ofList_concat hc] at ten
    rw [Option.getD_none, whole, hdate, Date.cut?, if_neg (by omega), if_neg (by omega)]
    cases hafter : after.toList with
    | nil =>
      rw [String.toList_eq_nil_iff.mp hafter, String.utf8ByteSize_empty] at hmore
      omega
    | cons c after' => rfl

/-- A text that is read as a time on a day starts with the date, which is all of it only if it takes
ten bytes. -/
theorem startsWithDate_of_readDateTime
    {s target : String} {t : DateTime} (h : readDateTime s target = .ok t) :
  ∃ n, StartsWithDate s t.date n ∧ (n < s.utf8ByteSize ∨ n = 10)
  := by
  rw [readDateTime] at h
  split at h
  next hten =>
    have first : firstBytes? 10 s.toList = some s.toList :=
      firstBytes?_eq_some_iff.mpr ⟨List.prefix_rfl, by rw [String.ofList_toList, hten]⟩
    rw [readDate_eq, first, Option.getD_some, whole] at h
    split at h
    next d hd =>
      cases h
      exact ⟨10, ⟨s, "", (String.append_empty).symm, hd, hten⟩, .inr rfl⟩
    next => cases h
  next hten =>
    split at h
    next t' ht =>
      cases h
      rw [whole] at ht
      split at ht
      next t' hread =>
        cases ht
        obtain ⟨⟨d, rest⟩, hdate, hread⟩ := Option.bind_eq_some_iff.mp hread
        obtain ⟨⟨time, rest'⟩, htime, hread⟩ := Option.bind_eq_some_iff.mp hread
        cases hread
        obtain ⟨taken, htaken, -⟩ := local_date _ _ _ hdate
        have parts : s = String.ofList taken ++ String.ofList rest := by
          rw [← String.ofList_append, ← htaken, String.ofList_toList]
        refine ⟨_, ⟨_, _, parts, ?_, rfl⟩, .inl ?_⟩
        · rw [String.toList_ofList]
          exact hdate
        · have some : (String.ofList rest).utf8ByteSize ≠ 0 := by
            rw [ne_eq, utf8ByteSize_ofList_eq_zero_iff]
            rintro rfl
            cases htime
          rw [parts, String.utf8ByteSize_append]
          omega
      next => cases ht
    next => cases h

end Temporal

end SqlWire
