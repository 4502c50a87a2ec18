import SqlWire.Proofs.Calendar.Prefixes
import SqlWire.Proofs.Row.Natural

/-!
# Dates of times on a day

A field that is read as a time on a day can also be read as a date.
`Column.decode_date_of_dateTime` says when this is the day of that time: always in binary form, and
in a text if the day takes ten bytes of it.  Otherwise the text is refused, or the day loses its
last digit.
-/

namespace SqlWire

theorem DateTimeField.date?_of_dateTime?
    {f : DateTimeField} {t : DateTime} (h : f.dateTime? = some t) :
  f.date? = some t.date
  := by
  obtain ⟨d, hd, h⟩ := Option.bind_eq_some_iff.mp h
  obtain ⟨time, -, h⟩ := Option.bind_eq_some_iff.mp h
  cases h
  exact hd

namespace Column

open Reader

variable {c : Column} {p : Protocol} {field : Bytes} {t : DateTime}

theorem holdsDateTexts_of_admits
    (hadmits : c.admits .dateTime = true) (hform : ¬ (c.type.isCalendar ∧ p = .binary)) :
  c.HoldsDateTexts p
  := by
  have types : c.type.isCalendar = true ∨ c.family = .text := by
    simpa [admits] using hadmits
  rcases types with hcalendar | hfamily
  · cases p with
    | text => exact .inr ⟨family_eq_calendar hcalendar, rfl⟩
    | binary => exact absurd ⟨hcalendar, rfl⟩ hform
  · exact .inl hfamily

/-- A field in binary form has the day of its time. -/
theorem decode_date_of_parts
    (hcalendar : c.type.isCalendar) (h : c.decode .binary .dateTime field = .ok (.dateTime t)) :
  c.decode .binary .date field = .ok (.date t.date)
  := by
  obtain ⟨date, dateTime⟩ := decode_binary_dates hcalendar field
  rw [dateTime] at h
  rw [date]
  cases hread : (DateTimeField.read field.length).run field with
  | error e =>
    rw [hread] at h
    cases h
  | ok f =>
    rw [hread] at h
    change (if _ then _ else _) = _ at h
    change (if _ then _ else _) = _
    split at h
    next => cases h
    next hzero =>
      rw [if_neg hzero]
      cases hdenoted : f.dateTime? with
      | none =>
        rw [hdenoted] at h
        cases h
      | some t' =>
        rw [hdenoted] at h
        cases h
        rw [DateTimeField.date?_of_dateTime? hdenoted]
        rfl

/-- A field that is a time on a day is the day of that time, if it is in binary form; a text is what
ten bytes hold of the day that it starts with. -/
theorem decode_date_of_dateTime
    (h : c.decode p .dateTime field = .ok (.dateTime t)) :
  (c.type.isCalendar ∧ p = .binary → c.decode p .date field = .ok (.date t.date)) ∧
  (¬ (c.type.isCalendar ∧ p = .binary) →
    ∃ n, Temporal.StartsWithDate (Utf8.decode field) t.date n ∧
      (c.decode p .date field = .ok (.date t.date) ↔ n = 10) ∧
      c.decode p .date field = (t.date.cut? n).elim
        (.error (.malformed (Utf8.decode field) "NaiveDate")) fun d => .ok (.date d))
  := by
  constructor
  · rintro ⟨hcalendar, rfl⟩
    exact decode_date_of_parts hcalendar h
  · intro hform
    have hadmits : c.admits .dateTime = true := by
      by_contra hnone
      rw [decode, if_neg hnone] at h
      cases h
    have htext : c.HoldsDateTexts p := holdsDateTexts_of_admits hadmits hform
    obtain ⟨date, dateTime⟩ := htext.decode_eq field
    rw [dateTime] at h
    have hread : Temporal.readDateTime (Utf8.decode field) Target.dateTime.name = .ok t := by
      cases hread : Temporal.readDateTime (Utf8.decode field) Target.dateTime.name <;>
        rw [hread] at h <;> cases h
      rfl
    obtain ⟨n, hstarts, hmore⟩ := Temporal.startsWithDate_of_readDateTime hread
    have hdate : c.decode p .date field = (t.date.cut? n).elim
        (.error (.malformed (Utf8.decode field) "NaiveDate")) fun d => .ok (.date d) := by
      rw [date, Temporal.readDate_of_startsWithDate hstarts hmore]
      cases t.date.cut? n <;> rfl
    refine ⟨n, hstarts, ?_, hdate⟩
    rw [hdate, ← Date.cut?_eq_some_self_iff]
    cases t.date.cut? n <;> simp

/-- A time on a day in binary form, and in a text that begins with a blank. -/
theorem decode_date_of_dateTime_blank :
  let day : Date := ⟨2024, 10, 21, by decide⟩
  let t : DateTime := ⟨day, ⟨12, 36, 5, 0, by decide⟩⟩
  let c := ofNameAndType "c" .dateTime
  let field : Bytes := [0xE8, 7, 10, 21, 12, 36, 5]
  let s := { ofNameAndType "s" .varString with charset := 33 }
  let text := Utf8.encode " 2024-10-21 12:36:05"
  c.decode .binary .dateTime field = .ok (.dateTime t) ∧
    c.decode .binary .date field = .ok (.date day) ∧
    s.decode .text .dateTime text = .ok (.dateTime t) ∧
    ∃ n, Temporal.StartsWithDate (Utf8.decode text) day n ∧
      s.decode .text .date text = (day.cut? n).elim
        (.error (.malformed (Utf8.decode text) "NaiveDate")) fun d => .ok (.date d)
  := by
  intro day t c field s text
  have parts : (c.readDateTime .binary 7).run field = .ok t := by decide
  have binary : c.decode .binary .dateTime field = .ok (.dateTime t) := by
    change (c.readAs .binary .dateTime 7).run field = _
    rw [readAs, run_map, parts]
    rfl
  have read : Temporal.readDateTime (Utf8.decode text) "NaiveDateTime" = .ok t := by
    rw [Utf8.decode_encode]
    rfl
  have plain : s.decode .text .dateTime text = .ok (.dateTime t) := by
    rw [(HoldsDateTexts.decode_eq (.inl rfl) text).2, Target.name, read]
    rfl
  obtain ⟨n, starts, -, date⟩ := (decode_date_of_dateTime plain).2 (by decide)
  exact ⟨binary, (decode_date_of_dateTime binary).1 (by decide), plain, n, starts, date⟩

/-- A day behind a sign takes eleven bytes, and is read as another day of its month. -/
theorem decode_date_of_dateTime_signed :
  let c := { ofNameAndType "c" .varString with charset := 33 }
  let field := Utf8.encode "+2024-10-21 12:36:05"
  ∃ t, c.decode .text .dateTime field = .ok (.dateTime t) ∧
    c.decode .text .date field = .ok (.date ⟨2024, 10, 2, by decide⟩) ∧
    c.decode .text .date field ≠ .ok (.date t.date)
  := by
  intro c field
  have readDate : Temporal.readDate (Utf8.decode field) "NaiveDate" =
      .ok ⟨2024, 10, 2, by decide⟩ := by
    rw [Utf8.decode_encode]
    rfl
  have readDateTime : Temporal.readDateTime (Utf8.decode field) "NaiveDateTime" =
      .ok ⟨⟨2024, 10, 21, by decide⟩, ⟨12, 36, 5, 0, by decide⟩⟩ := by
    rw [Utf8.decode_encode]
    rfl
  obtain ⟨date, dateTime⟩ := HoldsDateTexts.decode_eq (c := c) (p := .text) (.inl rfl) field
  rw [Target.name, readDate] at date
  rw [Target.name, readDateTime] at dateTime
  refine ⟨_, dateTime, date, ?_⟩
  rw [date]
  simp

end Column

end SqlWire
