import SqlWire.Proofs.Calendar.Fractions
import SqlWire.Proofs.Column.Framing
import SqlWire.Proofs.Row.Natural

/-!
# Texts and values of temporal fields

A binary field of a TIME, DATETIME or TIMESTAMP column can be read as a text and as a value.
`Column.readText_temporal` says that the two agree: the text, read back, is the value without the
digits that are not shown, for every scale of the column.  A zero date alone is a text but no value.
-/

namespace SqlWire

namespace DateTimeField

variable {f : DateTimeField} {t : DateTime}

theorem isZeroDate_iff :
  f.isZeroDate = true ↔ f.year = 0 ∧ f.month = 0 ∧ f.day = 0
  := by
  simp [isZeroDate, and_assoc]

/-- A time on a day has the year of its field, and its microseconds. -/
theorem year_and_nanosecond_of_dateTime?
    (h : f.dateTime? = some t) :
  t.date.year = f.year.toNat ∧ t.time.nanosecond = f.micros.toNat * 1000
  := by
  obtain ⟨d, hd, h⟩ := Option.bind_eq_some_iff.mp h
  obtain ⟨time, htime, h⟩ := Option.bind_eq_some_iff.mp h
  cases h
  rw [date?, Date.of?] at hd
  rw [time?, TimeOfDay.of?] at htime
  split at hd
  next =>
    split at htime
    next =>
      cases hd
      cases htime
      exact ⟨rfl, rfl⟩
    next => cases htime
  next => cases hd

/-- The text of a zero date; only that of an empty field has a fraction. -/
theorem dateTimeText_of_isZeroDate
    (h : f.isZeroDate = true) (length scale : Nat) :
  f.dateTimeText length scale .literal =
    .ok ("0000-00-00 00:00:00" ++ if length = 0 ∧ 0 < scale then
      "." ++ String.ofList (List.replicate (min scale 6) '0') else "")
  := by
  rw [dateTimeText, h, if_pos rfl, zeroFraction]
  by_cases hempty : length = 0
  · rw [if_pos hempty]
    by_cases hscale : scale = 0
    · rw [if_pos hscale, if_neg (by omega)]
      rfl
    · rw [if_neg hscale, if_pos ⟨hempty, by omega⟩]
      rfl
  · rw [if_neg hempty, if_neg (by omega)]
    rfl

/-- A field with a date that is not zero has a text exactly when it denotes a time on a day, and the
text is read as that time, as far as it is shown. -/
theorem readDateTime_dateTimeText
    {length : Nat} (hsome : length ≠ 0) (hdate : f.isZeroDate = false) (hyear : f.year.toNat ≤ 9999)
    (scale : Nat) (policy : ZeroDatePolicy) (target : String) :
  (f.dateTime? = none → ∃ e, f.dateTimeText length scale policy = .error e) ∧
  ∀ t, f.dateTime? = some t → ∃ s, f.dateTimeText length scale policy = .ok s ∧
    fractionLength s = (if scale = 0 ∧ f.micros.toNat ≠ 0 then 6 else min scale 6) ∧
    Temporal.readDateTime s target = .ok (t.truncated (fractionLength s))
  := by
  rw [dateTimeText, if_neg hsome, hdate, if_neg Bool.false_ne_true]
  constructor
  · intro hnone
    rw [hnone]
    exact ⟨_, rfl⟩
  · intro t ht
    rw [ht]
    obtain ⟨year, nanosecond⟩ := year_and_nanosecond_of_dateTime? ht
    have hfour : 0 ≤ t.date.year ∧ t.date.year ≤ 9999 := by omega
    have shown := DateTime.fractionLength_microFraction hfour scale f.micros.toNat
    refine ⟨_, rfl, ?_, ?_⟩
    · rw [shown, shownDigits_eq]
    · rw [shown]
      exact DateTime.readDateTime_microFraction hfour nanosecond scale target

end DateTimeField

namespace Column

variable {c : Column} {field : Bytes}

/-! ### Durations -/

/-- A field of a TIME column has a text and a duration, both made of its parts. -/
theorem run_read_time
    (htype : c.type = .time)
    (hlength : field.length = 0 ∨ field.length = 8 ∨ field.length = 12) :
  ∃ t, (TimeField.read field.length).run field = .ok t ∧ (field.length = 0 → t = .zero) ∧
    (c.readText .binary field.length).run field = .ok (t.toText field.length c.decimals.toNat) ∧
    (c.readTime .binary field.length).run field = .ok t.toDuration
  := by
  obtain ⟨t, hreads⟩ := gives_readTimeField hlength field rfl
  have read := hreads.run
  have family : c.family = .time := by rw [Column.family, htype]
  have text : c.readText .binary field.length =
      TimeField.read field.length >>= fun t =>
        pure (t.toText field.length c.decimals.toNat) := by
    simp only [readText, family, readBinaryText, htype]
  have value : c.readTime .binary field.length =
      TimeField.read field.length >>= fun t => pure t.toDuration := by
    simp only [readTime, family]
  refine ⟨t, read, ?_, ?_, ?_⟩
  · intro hempty
    rw [hempty] at read
    exact (Except.ok.inj read).symm
  · rw [text, Reader.run_map, read]
    rfl
  · rw [value, Reader.run_map, read]
    rfl

/-! ### Times on a day -/

/-- A field of a DATETIME or TIMESTAMP column has a text and a value if its parts have them. -/
theorem run_read_dateTime
    (htype : c.type = .dateTime ∨ c.type = .timestamp)
    (hlength : field.length = 0 ∨ field.length = 4 ∨ field.length = 7 ∨ field.length = 11) :
  ∃ f, (DateTimeField.read field.length).run field = .ok f ∧ (field.length = 0 → f = .zero) ∧
    (c.readText .binary field.length).run field =
      f.dateTimeText field.length c.decimals.toNat c.zeroDates ∧
    (c.readDateTime .binary field.length).run field =
      if f.isZeroDate then .error (.malformed zeroDateTime Target.dateTime.name)
      else denoted f f.dateTime? Target.dateTime.name
  := by
  obtain ⟨f, hreads⟩ := gives_readDateTimeField hlength field rfl
  have read := hreads.run
  have family : c.family = .calendar := by
    rcases htype with htype | htype <;> rw [Column.family, htype]
  have literal : c.zeroLiteral = zeroDateTime := by
    rcases htype with htype | htype <;> rw [zeroLiteral, htype] <;> rfl
  have text : c.readText .binary field.length =
      DateTimeField.read field.length >>= fun f =>
        Reader.lift (f.dateTimeText field.length c.decimals.toNat c.zeroDates) := by
    rcases htype with htype | htype <;> simp only [readText, family, readBinaryText, htype]
  have value : c.readDateTime .binary field.length =
      c.readCalendar field.length Target.dateTime.name >>= fun f =>
        Reader.lift (denoted f f.dateTime? Target.dateTime.name) := by
    simp only [readDateTime, family]
  refine ⟨f, read, ?_, ?_, ?_⟩
  · intro hempty
    rw [hempty] at read
    exact (Except.ok.inj read).symm
  · rw [text, Reader.run_bind_lift, read]
    rfl
  · rw [value, Reader.run_bind_lift, readCalendar_eq, Reader.run_bind_lift, read]
    change (c.partsOf Target.dateTime.name f >>= fun f =>
      denoted f f.dateTime? Target.dateTime.name) = _
    rw [partsOf, literal]
    split <;> rfl

/-! ### Texts and values -/

/-- The text of a temporal field is read as the field's value without the digits of its second that
the text does not show. -/
theorem readText_temporal
    (c : Column) (field : Bytes) (target : String) :
  let text := (c.readText .binary field.length).run field
  let time := (c.readTime .binary field.length).run field
  let dateTime := (c.readDateTime .binary field.length).run field
  let scale := c.decimals.toNat
  (c.type = .time → field.length = 0 ∨ field.length = 8 ∨ field.length = 12 →
    ∃ t, (TimeField.read field.length).run field = .ok t ∧
      (t.minutes.toNat < 60 → t.seconds.toNat < 60 → t.micros.toNat < 1000000 →
        ∃ s d, text = .ok s ∧ time = .ok d ∧
          fractionLength s = (if scale = 0 ∧ t.micros.toNat ≠ 0 then 6 else min scale 6) ∧
          Temporal.readDuration s target = .ok (d.truncated (fractionLength s)))) ∧
  (c.type = .dateTime ∨ c.type = .timestamp → c.zeroDates = .literal →
    field.length = 0 ∨ field.length = 4 ∨ field.length = 7 ∨ field.length = 11 →
    ∃ f, (DateTimeField.read field.length).run field = .ok f ∧
      (f.year = 0 ∧ f.month = 0 ∧ f.day = 0 →
        text = .ok ("0000-00-00 00:00:00" ++ if field.length = 0 ∧ 0 < scale then
          "." ++ String.ofList (List.replicate (min scale 6) '0') else "") ∧
        ∃ e, dateTime = .error e ∧ e.kind = .malformedLiteral) ∧
      (¬ (f.year = 0 ∧ f.month = 0 ∧ f.day = 0) → f.year.toNat ≤ 9999 →
        (∃ e e', text = .error e ∧ dateTime = .error e') ∨
        ∃ s t, text = .ok s ∧ dateTime = .ok t ∧
          fractionLength s = (if scale = 0 ∧ f.micros.toNat ≠ 0 then 6 else min scale 6) ∧
          Temporal.readDateTime s target = .ok (t.truncated (fractionLength s))))
  := by
  intro text time dateTime scale
  constructor
  · intro htype hlength
    obtain ⟨t, hread, hempty, htext, htime⟩ := run_read_time htype hlength
    refine ⟨t, hread, fun hminutes hseconds hmicros => ⟨_, _, htext, htime, ?_, ?_⟩⟩
    · rw [TimeField.fractionLength_toText hempty, shownDigits_eq]
    · rw [TimeField.fractionLength_toText hempty]
      exact TimeField.readDuration_toText hempty hminutes hseconds hmicros scale target
  · intro htype hpolicy hlength
    obtain ⟨f, hread, hempty, htext, hdateTime⟩ := run_read_dateTime htype hlength
    rw [hpolicy] at htext
    refine ⟨f, hread, ?_, ?_⟩
    · intro hzero
      have zero := DateTimeField.isZeroDate_iff.mpr hzero
      rw [DateTimeField.dateTimeText_of_isZeroDate zero] at htext
      rw [if_pos zero] at hdateTime
      exact ⟨htext, _, hdateTime, rfl⟩
    · intro hdate hyear
      have nonzero : f.isZeroDate = false := by
        rw [Bool.eq_false_iff, ne_eq, DateTimeField.isZeroDate_iff]
        exact hdate
      have nonempty : field.length ≠ 0 := by
        intro hnone
        rw [hempty hnone] at hdate
        exact hdate ⟨rfl, rfl, rfl⟩
      obtain ⟨none, some⟩ := DateTimeField.readDateTime_dateTimeText nonempty nonzero hyear scale
        .literal target
      rw [nonzero, if_neg Bool.false_ne_true] at hdateTime
      cases hdenoted : f.dateTime? with
      | none =>
        obtain ⟨e, he⟩ := none hdenoted
        rw [hdenoted] at hdateTime
        exact .inl ⟨e, _, htext.trans he, hdateTime⟩
      | some t =>
        obtain ⟨s, hs, hshown, hread⟩ := some t hdenoted
        rw [hdenoted] at hdateTime
        exact .inr ⟨s, t, htext.trans hs, hdateTime, hshown, hread⟩

/-- A negative time of a day and some hours, and a leap second, both shown in milliseconds. -/
theorem readText_temporal_leap :
  let c := { ofNameAndType "c" .time with decimals := 3 }
  let time := [1, 1, 0, 0, 0, 2, 3, 4, 0x5B, 0xAA, 8, 0]
  let c' := { ofNameAndType "c" .dateTime with decimals := 3 }
  let dateTime := [0xE0, 7, 12, 31, 23, 59, 59, 0x60, 0xE3, 0x16, 0]
  (∃ d, (c.readTime .binary 12).run time = .ok d ∧
    Temporal.readDuration "-26:03:04.567" "Duration" = .ok (d.truncated 3)) ∧
  ∃ t, (c'.readDateTime .binary 11).run dateTime = .ok t ∧
    Temporal.readDateTime "2016-12-31 23:59:60.500" "NaiveDateTime" = .ok (t.truncated 3)
  := by
  intro c time c' dateTime
  constructor
  · have shown : (c.readText .binary 12).run time = .ok "-26:03:04.567" := by decide
    have parts : (TimeField.read 12).run time = .ok ⟨true, 1, 2, 3, 4, 567899⟩ := rfl
    obtain ⟨f, hread, agree⟩ := (readText_temporal c time "Duration").1 rfl (.inr (.inr rfl))
    obtain rfl := Except.ok.inj (hread.symm.trans parts)
    obtain ⟨s, d, htext, htime, -, hduration⟩ := agree (by decide) (by decide) (by decide)
    obtain rfl := Except.ok.inj (htext.symm.trans shown)
    exact ⟨d, htime, hduration⟩
  · have shown : (c'.readText .binary 11).run dateTime = .ok "2016-12-31 23:59:60.500" := by decide
    have parts : (DateTimeField.read 11).run dateTime =
        .ok ⟨2016, 12, 31, 23, 59, 59, 1500000⟩ := rfl
    obtain ⟨f, hread, -, agree⟩ := (readText_temporal c' dateTime "NaiveDateTime").2 (.inl rfl) rfl
      (.inr (.inr (.inr rfl)))
    obtain rfl := Except.ok.inj (hread.symm.trans parts)
    rcases agree (by decide) (by decide) with ⟨e, -, htext, -⟩ | ⟨s, t, htext, hvalue, -, hread⟩
    · cases htext.symm.trans shown
    · obtain rfl := Except.ok.inj (htext.symm.trans shown)
      exact ⟨t, hvalue, hread⟩

end Column

end SqlWire
