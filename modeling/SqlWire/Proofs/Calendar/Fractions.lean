import Mathlib.Tactic.IntervalCases
import SqlWire.Proofs.Calendar.Texts

/-!
# Fractions that are shown in part

Binary fields of durations and of times on a day are shown with as many digits of their microseconds
as the scale of their column says.  Read back, the texts give what the fields denote, but for the
digits that are not shown: `TimeField.readDuration_toText`, `DateTime.readDateTime_microFraction`.
-/

namespace SqlWire

open Digits

/-! ### Values without their last digits -/

/-- The duration without what it has beyond so many digits of a second, toward zero. -/
def Duration.truncated (d : Duration) (digits : Nat) : Duration where
  nanoseconds := d.nanoseconds.tdiv (10 ^ (9 - digits) : Nat) * (10 ^ (9 - digits) : Nat)
  natAbs_le := by
    have h := d.natAbs_le
    rw [Int.natAbs_mul, Int.natAbs_tdiv, Int.natAbs_natCast]
    apply Nat.le_trans (Nat.div_mul_le_self _ _) h

/-- The time without what it has beyond so many digits of a second. -/
def TimeOfDay.truncated (t : TimeOfDay) (digits : Nat) : TimeOfDay where
  hour := t.hour
  minute := t.minute
  second := t.second
  nanosecond := t.nanosecond / 10 ^ (9 - digits) * 10 ^ (9 - digits)
  isTimeOfDay := by
    obtain ⟨hhour, hminute, hsecond, hnanosecond, hleap⟩ := t.isTimeOfDay
    have less := Nat.div_mul_le_self t.nanosecond (10 ^ (9 - digits))
    refine ⟨hhour, hminute, hsecond, by omega, ?_⟩
    intro h
    apply hleap
    omega

/-- The time on a day without what it has beyond so many digits of a second. -/
def DateTime.truncated (t : DateTime) (digits : Nat) : DateTime :=
  ⟨t.date, t.time.truncated digits⟩

/-- The number of characters behind the point of a text. -/
def fractionLength (s : String) : Nat :=
  (s.toList.dropWhile (· != '.')).length - 1

/-- The microseconds within their second, as far as the scale has them shown. -/
def shownMicros (scale micros : Nat) : Nat :=
  micros % 1000000 / 10 ^ (6 - shownDigits scale micros) * 10 ^ (6 - shownDigits scale micros)

variable {scale micros : Nat}

theorem shownDigits_le
    (scale micros : Nat) :
  shownDigits scale micros ≤ 6
  := by
  rw [shownDigits]
  split
  · split <;> omega
  · omega

theorem shownDigits_eq
    (scale micros : Nat) :
  shownDigits scale micros = if scale = 0 ∧ micros ≠ 0 then 6 else min scale 6
  := by
  rw [shownDigits]
  split_ifs <;> omega

/-- What is left of a number of microseconds, in nanoseconds, are its whole seconds and the digits
that are left of the rest. -/
theorem micros_div_mul
    {digits : Nat} (h : digits ≤ 6) (n : Nat) :
  n * 1000 / 10 ^ (9 - digits) * 10 ^ (9 - digits) =
    (n / 1000000 * 1000000 + n % 1000000 / 10 ^ (6 - digits) * 10 ^ (6 - digits)) * 1000
  := by
  -- seven widths, for each of which the powers of ten are numbers
  interval_cases digits <;> omega

/-! ### Texts of fractions -/

/-- The fraction of an empty field is that of no microseconds. -/
theorem zeroFraction_eq
    (scale : Nat) :
  zeroFraction scale = microFraction scale 0
  := by
  have shown : shownDigits scale 0 = min scale 6 := by
    rw [shownDigits_eq, if_neg]
    exact fun h => h.2 rfl
  have zeros : (fill 6 (ofNat (0 % 1000000))).take (min scale 6) =
      List.replicate (min scale 6) '0' := by
    change (List.replicate 6 '0').take (min scale 6) = _
    rw [List.take_replicate, Nat.min_eq_left (Nat.min_le_right scale 6)]
  rw [zeroFraction, microFraction, shown, zeros]
  split_ifs <;> first | rfl | omega

theorem toList_microFraction
    (scale micros : Nat) :
  (microFraction scale micros).toList =
    if shownDigits scale micros = 0 then []
    else '.' :: (fill 6 (ofNat (micros % 1000000))).take (shownDigits scale micros)
  := by
  rw [microFraction]
  split_ifs
  · rfl
  · simp

/-- The digits that are shown, of which there is one at least. -/
theorem shown_digits
    (h : shownDigits scale micros ≠ 0) :
  let ds := (fill 6 (ofNat (micros % 1000000))).take (shownDigits scale micros)
  (∀ c ∈ ds, isDigit c) ∧ ds.length = shownDigits scale micros ∧ ds ≠ [] ∧
    value ds * 10 ^ (6 - shownDigits scale micros) = shownMicros scale micros
  := by
  intro ds
  have bound : micros % 1000000 < 10 ^ 6 := Nat.mod_lt _ (by decide)
  have length : ds.length = shownDigits scale micros := by
    rw [List.length_take, length_fill_ofNat (by decide) bound]
    exact Nat.min_eq_left (shownDigits_le scale micros)
  refine ⟨fun c hc => isDigit_of_mem_fill_ofNat (List.mem_of_mem_take hc), length, ?_, ?_⟩
  · exact List.ne_nil_of_length_pos (by omega)
  · rw [value_take_fill_ofNat (by decide) bound]
    rfl

theorem shownMicros_eq_zero
    (h : shownDigits scale micros = 0) :
  shownMicros scale micros = 0
  := by
  rw [shownMicros, h]
  omega

/-- The digits that are shown, if there are any. -/
def shownFraction (scale micros : Nat) : Option (List Char) :=
  if shownDigits scale micros = 0 then none
  else some ((fill 6 (ofNat (micros % 1000000))).take (shownDigits scale micros))

theorem toList_microFraction_eq_shownFraction
    (scale micros : Nat) :
  (microFraction scale micros).toList = ((shownFraction scale micros).map ('.' :: ·)).getD []
  := by
  rw [toList_microFraction, shownFraction]
  split <;> rfl

theorem isNumber_of_mem_shownFraction
    {ds : List Char} (h : ds ∈ shownFraction scale micros) :
  isNumber ds ∧ ds.length ≤ 9
  := by
  rw [shownFraction] at h
  split at h
  next => cases h
  next hsome =>
    cases h
    obtain ⟨hdigits, hlength, hne, -⟩ := shown_digits hsome
    have few := shownDigits_le scale micros
    exact ⟨isNumber_iff.mpr ⟨hne, hdigits⟩, by omega⟩

/-- The digits that are shown, read as a fraction of a second. -/
theorem micros_shownFraction
    (scale micros : Nat) :
  ((shownFraction scale micros).map fun ds => value ds * 10 ^ 6 / 10 ^ ds.length).getD 0 =
    shownMicros scale micros
  := by
  rw [shownFraction]
  split
  next hnone => exact (shownMicros_eq_zero hnone).symm
  next hsome =>
    obtain ⟨-, hlength, -, hvalue⟩ := shown_digits hsome
    have few := shownDigits_le scale micros
    have six : 10 ^ 6 = 10 ^ (6 - shownDigits scale micros) * 10 ^ shownDigits scale micros := by
      rw [← Nat.pow_add, Nat.sub_add_cancel few]
    have power : 0 < 10 ^ shownDigits scale micros := Nat.pow_pos (by decide)
    rw [Option.map_some, Option.getD_some, hlength, ← hvalue, six, ← Nat.mul_assoc,
      Nat.mul_div_cancel _ power]

/-- As many characters are behind the point as digits are shown. -/
theorem fractionLength_eq
    {s : String} {before : List Char}
    (hs : s.toList = before ++ (microFraction scale micros).toList)
    (hbefore : ∀ c ∈ before, (c != '.') = true) :
  fractionLength s = shownDigits scale micros
  := by
  rw [fractionLength, hs, List.dropWhile_append_of_pos hbefore, toList_microFraction]
  split_ifs
  next hnone =>
    rw [hnone]
    rfl
  next hsome =>
    obtain ⟨-, length, -⟩ := shown_digits hsome
    rw [List.dropWhile_cons_of_neg (by decide), List.length_cons, Nat.add_sub_cancel]
    exact length

namespace Temporal

/-- The fraction of a second of a time of day. -/
theorem fraction_microFraction
    (scale micros : Nat) :
  fraction (microFraction scale micros).toList = some (shownMicros scale micros * 1000, [])
  := by
  rw [toList_microFraction]
  split_ifs
  next hnone =>
    rw [shownMicros_eq_zero hnone]
    rfl
  next hsome =>
    obtain ⟨hdigits, hlength, hsome, hvalue⟩ := shown_digits hsome
    have few := shownDigits_le scale micros
    have places : 9 - shownDigits scale micros = 6 - shownDigits scale micros + 3 := by omega
    rw [fraction_digits hdigits hsome (by omega), hlength, places, Nat.pow_add, ← Nat.mul_assoc,
      hvalue]

end Temporal

/-! ### Durations -/

namespace TimeField

/-- An empty field has the text of a field of zeros. -/
theorem toList_toText
    {t : TimeField} {length : Nat} (h : length = 0 → t = zero) (scale : Nat) :
  (t.toText length scale).toList = (if t.negative then ['-'] else []) ++
    (Temporal.clockText t.totalHours t.minutes.toNat t.seconds.toNat ++
      (microFraction scale t.micros.toNat).toList)
  := by
  by_cases hlength : length = 0
  · rw [toText, if_pos hlength, h hlength, zeroFraction_eq, String.toList_append]
    rfl
  · rw [toText, if_neg hlength, Temporal.clockText]
    cases t.negative <;> simp [pad]

/-- Cutting off keeps the sign. -/
theorem nanoseconds_truncated
    (t : TimeField) (digits : Nat) :
  (t.toDuration.truncated digits).nanoseconds =
    if t.negative then
      -((t.magnitude * 1000 / 10 ^ (9 - digits) * 10 ^ (9 - digits) : Nat) : Int)
    else (t.magnitude * 1000 / 10 ^ (9 - digits) * 10 ^ (9 - digits) : Nat)
  := by
  have quotient (n m : Nat) : (n : Int).tdiv m = (n / m : Nat) := rfl
  simp only [Duration.truncated, toDuration]
  split
  · rw [Int.neg_tdiv, quotient, Int.natCast_mul, Int.neg_mul]
  · rw [quotient, Int.natCast_mul]

/-- The text of a field is read as the field's duration, as far as it is shown. -/
theorem readDuration_toText
    {t : TimeField} {length : Nat} (h : length = 0 → t = zero) (hminutes : t.minutes.toNat < 60)
    (hseconds : t.seconds.toNat < 60) (hmicros : t.micros.toNat < 1000000) (scale : Nat)
    (target : String) :
  Temporal.readDuration (t.toText length scale) target =
    .ok (t.toDuration.truncated (shownDigits scale t.micros.toNat))
  := by
  have text := toList_toText h scale
  rw [toList_microFraction_eq_shownFraction] at text
  apply Temporal.readDuration_clockText (Nat.le_of_lt_succ hminutes) (Nat.le_of_lt_succ hseconds)
    (fun ds hds => (isNumber_of_mem_shownFraction hds).1)
    (fun ds hds => (isNumber_of_mem_shownFraction hds).2) (micros_shownFraction _ _) text
  have whole : t.magnitude / 1000000 =
      3600 * t.totalHours + 60 * t.minutes.toNat + t.seconds.toNat := by
    rw [TimeField.magnitude]
    omega
  have rest : t.magnitude % 1000000 = t.micros.toNat % 1000000 := by
    rw [TimeField.magnitude]
    omega
  rw [nanoseconds_truncated, micros_div_mul (shownDigits_le _ _), whole, rest]
  rfl

theorem fractionLength_toText
    {t : TimeField} {length : Nat} (h : length = 0 → t = zero) (scale : Nat) :
  fractionLength (t.toText length scale) = shownDigits scale t.micros.toNat
  := by
  have text := toList_toText h scale
  rw [← List.append_assoc] at text
  apply fractionLength_eq text
  intro c hc
  rcases List.mem_append.mp hc with hc | hc
  · split at hc
    next =>
      rw [List.mem_singleton.mp hc]
      rfl
    next => cases hc
  · exact Temporal.ne_point_of_mem_clockText hc

end TimeField

/-! ### Times on a day -/

namespace DateTime

variable {t : DateTime}

theorem ne_point_of_mem_toSecondText
    (hyear : 0 ≤ t.date.year ∧ t.date.year ≤ 9999) {c : Char} (hc : c ∈ t.toSecondText.toList) :
  (c != '.') = true
  := by
  rw [toSecondText, String.toList_append, String.toList_append, List.mem_append, List.mem_append,
    Temporal.toList_toText_date hyear] at hc
  rcases hc with (hc | hc) | hc
  · simp only [List.mem_append, List.mem_cons] at hc
    rw [bne_iff_ne]
    rcases hc with hc | rfl | hc | rfl | hc
    · apply ne_of_isDigit (isDigit_of_mem_fill_ofNat hc) rfl
    · decide
    · apply ne_of_isDigit (isDigit_of_mem_fill_ofNat hc) rfl
    · decide
    · apply ne_of_isDigit (isDigit_of_mem_fill_ofNat hc) rfl
  · rw [List.mem_singleton.mp hc]
    rfl
  · rw [Temporal.toList_toText_timeOfDay] at hc
    exact Temporal.ne_point_of_mem_clockText hc

/-- A text of whole seconds with a fraction behind it is read as the time, as far as it is shown. -/
theorem readDateTime_microFraction
    (hyear : 0 ≤ t.date.year ∧ t.date.year ≤ 9999) (hmicros : t.time.nanosecond = micros * 1000)
    (scale : Nat) (target : String) :
  Temporal.readDateTime (t.toSecondText ++ microFraction scale micros) target =
    .ok (t.truncated (shownDigits scale micros))
  := by
  have long : (t.toSecondText ++ microFraction scale micros).utf8ByteSize ≠ 10 := by
    have seconds := Temporal.lt_utf8ByteSize_toSecondText hyear
    rw [String.utf8ByteSize_append]
    omega
  have left : t.time.nanosecond / 1000000000 * 1000000000 + shownMicros scale micros * 1000 =
      (t.time.truncated (shownDigits scale micros)).nanosecond := by
    change _ = t.time.nanosecond / 10 ^ (9 - shownDigits scale micros) *
      10 ^ (9 - shownDigits scale micros)
    rw [hmicros, micros_div_mul (shownDigits_le _ _), shownMicros]
    omega
  have time : Temporal.timeOfDay (t.time.toText.toList ++ (microFraction scale micros).toList) =
      some (t.time.truncated (shownDigits scale micros), []) := by
    have found : TimeOfDay.of? t.time.hour t.time.minute t.time.second
        (t.time.truncated (shownDigits scale micros)).nanosecond =
          some (t.time.truncated (shownDigits scale micros)) :=
      dif_pos (t.time.truncated (shownDigits scale micros)).isTimeOfDay
    rw [Temporal.timeOfDay_toText t.time (Temporal.fraction_microFraction scale micros), left,
      found]
    rfl
  rw [Temporal.readDateTime, if_neg long, Temporal.whole, String.toList_append,
    Temporal.dateTime_toSecondText hyear time]
  rfl

theorem fractionLength_microFraction
    (hyear : 0 ≤ t.date.year ∧ t.date.year ≤ 9999) (scale micros : Nat) :
  fractionLength (t.toSecondText ++ microFraction scale micros) = shownDigits scale micros
  := by
  apply fractionLength_eq (String.toList_append)
  intro c hc
  exact ne_point_of_mem_toSecondText hyear hc

end DateTime

end SqlWire
