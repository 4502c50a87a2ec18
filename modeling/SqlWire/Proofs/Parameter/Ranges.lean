import SqlWire.Proofs.Parameter.Appending

/-!
# Ranges of temporal parameters

The form of the fields of dates, times and times on a day, `TemporalField`: the parts are in their
ranges, and the microseconds are there exactly if they are not zero.  Temporal parameters are
written in that form.  But the microseconds of a leap second are counted from the second before it,
and so they are a million and more: `Value.binaryBytes_temporalField`.
-/

namespace SqlWire

namespace TemporalField

/-- A year of two bytes, a month and a day of the month. -/
inductive Day : Bytes → Prop
  | parts {year month day : Nat} (hyear : year < 2 ^ 16) (hmonth : 1 ≤ month ∧ month ≤ 12)
      (hday : 1 ≤ day ∧ day ≤ 31) :
    Day (Bytes.ofNatLE 2 year ++ [UInt8.ofNat month, UInt8.ofNat day])

/-- An hour, a minute and a second. -/
inductive Clock : Bytes → Prop
  | parts {hour minute second : Nat} (hhour : hour < 24) (hminute : minute < 60)
      (hsecond : second < 60) :
    Clock [UInt8.ofNat hour, UInt8.ofNat minute, UInt8.ofNat second]

/-- A number of microseconds, which is not there when it is zero. -/
inductive Micros : Nat → Bytes → Prop
  | absent : Micros 0 []
  | present {micros : Nat} (hpositive : 0 < micros) (hwidth : micros < 2 ^ 32) :
    Micros micros (Bytes.ofNatLE 4 micros)

end TemporalField

/-- A field of a temporal type with the given number of microseconds, behind the number of its
bytes. -/
inductive TemporalField : Nat → WireType → Bytes → Prop
  | date {day : Bytes} (hday : TemporalField.Day day) :
    TemporalField 0 .date (4 :: day)
  | time {days n : Nat} {clock micros : Bytes} (negative : Bool) (hdays : days < 2 ^ 32)
      (hclock : TemporalField.Clock clock) (hmicros : TemporalField.Micros n micros) :
    TemporalField n .time (UInt8.ofNat (8 + micros.length) ::
      ((if negative then 1 else 0) :: Bytes.ofNatLE 4 days ++ clock ++ micros))
  | dateTime {n : Nat} {day clock micros : Bytes} (hday : TemporalField.Day day)
      (hclock : TemporalField.Clock clock) (hmicros : TemporalField.Micros n micros) :
    TemporalField n .dateTime (UInt8.ofNat (7 + micros.length) :: (day ++ clock ++ micros))

namespace TemporalField

variable {m n : Nat} {bs : Bytes}

theorem Day.length_eq
    (h : Day bs) :
  bs.length = 4
  := by
  obtain ⟨-, -, -⟩ := h
  simp

theorem Clock.length_eq
    (h : Clock bs) :
  bs.length = 3
  := by
  obtain ⟨-, -, -⟩ := h
  rfl

theorem micros_microBytes
    (h : n < 2 ^ 32) :
  Micros n (Value.microBytes n)
  := by
  rw [Value.microBytes]
  split
  next hzero =>
    rw [hzero]
    exact .absent
  next hnonzero => exact .present (Nat.pos_of_ne_zero hnonzero) h

/-- Bytes are those of one number of microseconds. -/
theorem Micros.unique
    (hm : Micros m bs) (hn : Micros n bs) :
  m = n
  := by
  cases hm with
  | absent =>
    generalize hbytes : ([] : Bytes) = bytes at hn
    cases hn with
    | absent => rfl
    | present => cases hbytes
  | present hpositive hwidth =>
    generalize hbytes : Bytes.ofNatLE 4 m = bytes at hn
    cases hn with
    | absent => cases hbytes
    | present hpositive' hwidth' =>
      rw [← Bytes.littleEndian_ofNatLE_of_lt (w := 4) hwidth, hbytes,
        Bytes.littleEndian_ofNatLE_of_lt hwidth']

/-- A time on a day is written with one number of microseconds. -/
theorem unique_dateTime
    (hm : TemporalField m .dateTime bs) (hn : TemporalField n .dateTime bs) :
  m = n
  := by
  obtain ⟨⟩ | ⟨⟩ | @⟨_, day, clock, micros, hday, hclock, hmicros⟩ := hm
  generalize hbytes : UInt8.ofNat (7 + micros.length) :: (day ++ clock ++ micros) = bytes at hn
  obtain ⟨⟩ | ⟨⟩ | @⟨_, day', clock', micros', hday', hclock', hmicros'⟩ := hn
  have front : (day ++ clock).length = (day' ++ clock').length := by
    rw [List.length_append, List.length_append, hday.length_eq, hday'.length_eq,
      hclock.length_eq, hclock'.length_eq]
  obtain rfl : micros = micros' := (List.append_inj (List.tail_eq_of_cons_eq hbytes) front).2
  exact hmicros.unique hmicros'

end TemporalField

namespace Value

variable {bs : Bytes}

/-- The values that temporal fields are written from. -/
def IsTemporal : Value → Prop
  | date _ | time _ | dateTime _ => True
  | _ => False

/-- The whole microseconds of a temporal value beyond its seconds. -/
def micros : Value → Nat
  | time d => d.micros
  | dateTime t => t.time.nanosecond / 1000
  | _ => 0

/-- The time of day is in a leap second. -/
def IsLeapSecond : Value → Prop
  | dateTime t => 1000000000 ≤ t.time.nanosecond
  | _ => False

/-! ### Fields as they are written -/

theorem day_of_dateBytes
    {d : Date} (h : dateBytes d = .ok bs) :
  TemporalField.Day bs
  := by
  rw [dateBytes] at h
  split at h
  next hyear =>
    obtain rfl := Except.ok.inj h
    obtain ⟨-, hmonth, hlow, hhigh⟩ := d.isDay
    have longest := daysInMonth_le d.year d.month
    exact .parts (by omega) hmonth ⟨hlow, Nat.le_trans hhigh longest⟩
  next => cases h

theorem temporalField_date
    {d : Date} (h : (do return counted (← dateBytes d)) = .ok bs) :
  TemporalField 0 .date bs
  := by
  obtain ⟨day, hday, ⟨⟩⟩ := exists_of_bind_eq_ok h
  have wellFormed := day_of_dateBytes hday
  rw [counted, wellFormed.length_eq]
  exact .date wellFormed

theorem temporalField_time
    {d : Duration} (h : timeBytes d = .ok bs) :
  TemporalField d.micros .time bs
  := by
  rw [timeBytes] at h
  split at h
  next hdays =>
    obtain rfl := Except.ok.inj h
    have clock : TemporalField.Clock [UInt8.ofNat (d.seconds % 86400 / 3600),
        UInt8.ofNat (d.seconds % 3600 / 60), UInt8.ofNat (d.seconds % 60)] :=
      .parts (by omega) (by omega) (by omega)
    have micros := TemporalField.micros_microBytes (Nat.lt_trans (d.micros_lt) (by decide))
    simp only [counted, List.length_append, List.length_cons, List.length_nil,
      Bytes.length_ofNatLE]
    exact .time d.isNegative hdays clock micros
  next => cases h

theorem temporalField_dateTime
    {t : DateTime} (h : dateTimeBytes t = .ok bs) :
  TemporalField (t.time.nanosecond / 1000) .dateTime bs
  := by
  obtain ⟨hhour, hminute, hsecond, hnanosecond, -⟩ := t.time.isTimeOfDay
  obtain ⟨day, hday, ⟨⟩⟩ := exists_of_bind_eq_ok h
  have wellFormed := day_of_dateBytes hday
  have clock := TemporalField.Clock.parts hhour hminute hsecond
  have micros := TemporalField.micros_microBytes (n := t.time.nanosecond / 1000) (by omega)
  simp only [counted, List.length_append, wellFormed.length_eq, clock.length_eq]
  exact .dateTime wellFormed clock micros

/-- Temporal values that are accepted are written with all parts in their ranges, and with their
microseconds exactly if these are not zero.  There is less than a million of them, but in a leap
second. -/
theorem binaryBytes_temporalField
    {v : Value} {max : Option Nat} {t : WireType} {bs : Bytes} (hv : v.IsTemporal)
    (h : v.binaryBytes max = .ok (t, bs)) :
  TemporalField v.micros t bs ∧
    ((∃ micros < 1000000, TemporalField micros t bs) ↔ ¬ v.IsLeapSecond)
  := by
  cases v with
  | date d =>
    change (do return (WireType.date, ← (do return counted (← dateBytes d)))) = _ at h
    obtain ⟨field, hfield, ⟨⟩⟩ := exists_of_bind_eq_ok h
    have written := temporalField_date hfield
    exact ⟨written, fun _ => id, fun _ => ⟨0, by decide, written⟩⟩
  | time d =>
    change (do return (WireType.time, ← timeBytes d)) = _ at h
    obtain ⟨field, hfield, ⟨⟩⟩ := exists_of_bind_eq_ok h
    have written := temporalField_time hfield
    exact ⟨written, fun _ => id, fun _ => ⟨d.micros, d.micros_lt, written⟩⟩
  | dateTime d =>
    change (do return (WireType.dateTime, ← dateTimeBytes d)) = _ at h
    obtain ⟨field, hfield, ⟨⟩⟩ := exists_of_bind_eq_ok h
    have written := temporalField_dateTime hfield
    refine ⟨written, ?_, ?_⟩
    · rintro ⟨micros, hmicros, hother⟩ hleap
      rw [hother.unique_dateTime written] at hmicros
      rw [IsLeapSecond] at hleap
      omega
    · intro hleap
      rw [IsLeapSecond] at hleap
      exact ⟨_, by omega, written⟩
  | _ => cases hv

/-- A negative time with two microseconds, of more than a day. -/
theorem binaryBytes_temporalField_negative :
  let d : Duration := ⟨-93784000002000, by decide⟩
  let bs : Bytes := [12, 1, 1, 0, 0, 0, 2, 3, 4, 2, 0, 0, 0]
  ((time d).IsTemporal ∧ (time d).binaryBytes none = .ok (.time, bs)) ∧
    TemporalField 2 .time bs ∧ ∃ micros < 1000000, TemporalField micros .time bs
  := by
  intro d bs
  have field : (time d).binaryBytes none = .ok (.time, bs) := by decide +kernel
  have micros : (time d).micros = 2 := by decide
  obtain ⟨written, range⟩ := binaryBytes_temporalField (v := time d) trivial field
  rw [micros] at written
  exact ⟨⟨trivial, field⟩, written, range.mpr id⟩

/-- In a leap second there is a million of microseconds and more. -/
theorem not_binaryBytes_temporalField :
  let leap : DateTime := ⟨⟨2016, 12, 31, by decide⟩, ⟨23, 59, 59, 1500000000, by decide⟩⟩
  let bs : Bytes := [11, 0xE0, 7, 12, 31, 23, 59, 59] ++ Bytes.ofNatLE 4 1500000
  (dateTime leap).binaryBytes none = .ok (.dateTime, bs) ∧
    ¬ ∃ micros < 1000000, TemporalField micros .dateTime bs
  := by
  intro leap bs
  have field : (dateTime leap).binaryBytes none = .ok (.dateTime, bs) := by decide +kernel
  have counted : leap.time.nanosecond / 1000 = 1500000 := by decide
  have written := temporalField_dateTime (by decide +kernel : dateTimeBytes leap = .ok bs)
  refine ⟨field, ?_⟩
  rintro ⟨micros, hmicros, hother⟩
  rw [hother.unique_dateTime written, counted] at hmicros
  omega

end Value

end SqlWire
