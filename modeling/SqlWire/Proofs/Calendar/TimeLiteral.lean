import SqlWire.Calendar.Reading
import SqlWire.Proofs.Text.Digits

/-!
# Literals of times

The type `TimeLiteral` of the parts of a text of hours, minutes and seconds, with or without a minus
sign and a fraction, and the number of nanoseconds that such a text stands for.  A text is read as a
duration exactly when it is a literal whose magnitude is in range, `Temporal.readDuration_eq_ok_iff`.
A literal whose magnitude is not in range overflows, unless the number of its hours has more than 63
bits: `Temporal.readDuration_ok_or_overflow_iff`.
-/

namespace SqlWire

open Digits

/-- The parts of a text of a time: whether there is a minus sign, the digits of the hours, minutes
and seconds, and those behind the point, if there is one. -/
structure TimeLiteral where
  negative : Bool
  hours : List Char
  minutes : List Char
  seconds : List Char
  fraction : Option (List Char)
  isNumber_hours : isNumber hours
  isNumber_minutes : isNumber minutes
  isNumber_seconds : isNumber seconds
  minutes_le : value minutes ≤ 59
  seconds_le : value seconds ≤ 59
  isNumber_fraction : ∀ ds ∈ fraction, isNumber ds
  length_fraction_le : ∀ ds ∈ fraction, ds.length ≤ 9

namespace TimeLiteral

/-- The text of the hours, minutes and seconds. -/
def clock (l : TimeLiteral) : List Char :=
  l.hours ++ ':' :: (l.minutes ++ ':' :: l.seconds)

/-- The text of a literal without its sign. -/
def body (l : TimeLiteral) : List Char :=
  l.clock ++ (l.fraction.map ('.' :: ·)).getD []

/-- The text of a literal. -/
def toText (l : TimeLiteral) : String :=
  String.ofList ((if l.negative then ['-'] else []) ++ l.body)

/-- The seconds of the hours, minutes and seconds. -/
def wholeSeconds (l : TimeLiteral) : Nat :=
  3600 * value l.hours + 60 * value l.minutes + value l.seconds

/-- The whole microseconds of the fraction. -/
def micros (l : TimeLiteral) : Nat :=
  (l.fraction.map fun ds => value ds * 10 ^ 6 / 10 ^ ds.length).getD 0

/-- The nanoseconds of a literal without its sign. -/
def magnitude (l : TimeLiteral) : Nat :=
  (l.wholeSeconds * 1000000 + l.micros) * 1000

/-- The nanoseconds of a literal. -/
def nanoseconds (l : TimeLiteral) : Int :=
  if l.negative then -(l.magnitude : Int) else l.magnitude

theorem toList_toText
    (l : TimeLiteral) :
  l.toText.toList = (if l.negative then ['-'] else []) ++ l.body
  :=
  String.toList_ofList

/-- A magnitude in the range of durations has hours of fewer than 64 bits, by far. -/
theorem value_hours_lt
    {l : TimeLiteral} (h : l.magnitude ≤ Duration.limit) :
  value l.hours < 2 ^ 63
  := by
  rw [magnitude, wholeSeconds, Duration.limit] at h
  omega

theorem natAbs_nanoseconds
    (l : TimeLiteral) :
  l.nanoseconds.natAbs = l.magnitude
  := by
  rw [nanoseconds]
  split <;> omega

theorem magnitude_le
    {l : TimeLiteral} {d : Duration} (hd : d.nanoseconds = l.nanoseconds) :
  l.magnitude ≤ Duration.limit
  := by
  rw [← l.natAbs_nanoseconds, ← hd]
  exact d.natAbs_le

/-! ### The characters of the parts -/

theorem not_mem_of_isNumber
    {ds : List Char} (h : isNumber ds) {c : Char} (hc : isDigit c = false) :
  c ∉ ds
  := by
  intro hmem
  exact ne_of_isDigit ((isNumber_iff.mp h).2 c hmem) hc rfl

theorem point_not_mem_clock
    (l : TimeLiteral) :
  '.' ∉ l.clock
  := by
  have hours := not_mem_of_isNumber l.isNumber_hours (c := '.') rfl
  have minutes := not_mem_of_isNumber l.isNumber_minutes (c := '.') rfl
  have seconds := not_mem_of_isNumber l.isNumber_seconds (c := '.') rfl
  simp [clock, hours, minutes, seconds]

/-- A literal without its sign starts with a digit. -/
theorem body_ne_cons
    (l : TimeLiteral) (cs : List Char) :
  l.body ≠ '-' :: cs
  := by
  obtain ⟨hsome, hdigits⟩ := isNumber_iff.mp l.isNumber_hours
  obtain ⟨c, ds, hcons⟩ := List.exists_cons_of_ne_nil hsome
  have first : isDigit c := hdigits c (by rw [hcons]; exact List.mem_cons_self)
  rw [body, clock, hcons]
  intro h
  obtain rfl : c = '-' := (List.cons.inj h).1
  cases first

end TimeLiteral

namespace Temporal

/-! ### Parts between separators -/

/-- A part without the separator, before it, is the first one. -/
theorem splitOn_append
    {sep : Char} {part : List Char} (h : sep ∉ part) (rest : List Char) :
  splitOn sep (part ++ sep :: rest) = part :: splitOn sep rest
  := by
  induction part with
  | nil => rw [List.nil_append, splitOn, if_pos rfl]
  | cons c part ih =>
    rw [List.mem_cons, not_or] at h
    rw [List.cons_append, splitOn, if_neg (Ne.symm h.1), ih h.2]

theorem splitOn_eq_singleton
    {sep : Char} {part : List Char} (h : sep ∉ part) :
  splitOn sep part = [part]
  := by
  induction part with
  | nil => rfl
  | cons c part ih =>
    rw [List.mem_cons, not_or] at h
    rw [splitOn, if_neg (Ne.symm h.1), ih h.2]

/-- The parts, with the separator between them, are the text. -/
theorem intercalate_splitOn
    (sep : Char) (cs : List Char) :
  [sep].intercalate (splitOn sep cs) = cs
  := by
  induction cs with
  | nil => rfl
  | cons c cs ih =>
    rw [splitOn]
    cases hsplit : splitOn sep cs with
    | nil =>
      rw [hsplit] at ih
      obtain rfl : cs = [] := ih.symm
      cases hsplit
    | cons part parts =>
      rw [hsplit] at ih
      split
      next hsep =>
        rw [List.intercalate_cons_cons, ih, hsep]
        rfl
      next =>
        rw [← ih]
        cases parts <;> simp [List.intercalate]

/-! ### Numbers -/

theorem number?_of_isNumber
    {ds : List Char} (h : isNumber ds) :
  number? ds = if value ds < 2 ^ 63 then some (value ds) else none
  := by
  rw [number?, if_pos h, below?_eq (by decide)]

theorem isNumber_of_number?
    {ds : List Char} {n : Nat} (h : number? ds = some n) :
  isNumber ds ∧ value ds = n
  := by
  have number : isNumber ds := by
    rw [number?] at h
    split at h
    next hnumber => exact hnumber
    next => cases h
  rw [number?_of_isNumber number] at h
  split at h
  next => exact ⟨number, Option.some.inj h⟩
  next => cases h

/-- Six digits of a run, which is filled up with zeros behind it or cut. -/
theorem value_sixDigits
    {ds : List Char} (h : ∀ c ∈ ds, isDigit c) :
  value ((ds ++ List.replicate (6 - ds.length) '0').take 6) = value ds * 10 ^ 6 / 10 ^ ds.length
  := by
  have filled : ∀ c ∈ ds ++ List.replicate (6 - ds.length) '0', isDigit c := by
    intro c hc
    rcases List.mem_append.mp hc with hc | hc
    · exact h c hc
    · rw [List.eq_of_mem_replicate hc]
      rfl
  rw [value_take filled, value_append, value_replicate_zero, Nat.add_zero, List.length_append,
    List.length_replicate]
  -- one of the two powers is 1, as there are too few digits or too many
  generalize hzeros : 6 - ds.length = zeros
  have six : zeros + (6 - zeros) = 6 := by omega
  have length : ds.length + zeros - 6 + (6 - zeros) = ds.length := by omega
  have power : 0 < 10 ^ (6 - zeros) := Nat.pow_pos (by decide)
  calc value ds * 10 ^ zeros / 10 ^ (ds.length + zeros - 6)
    _ = value ds * 10 ^ zeros * 10 ^ (6 - zeros) /
          (10 ^ (ds.length + zeros - 6) * 10 ^ (6 - zeros)) := by
      rw [Nat.mul_div_mul_right _ _ power]
    _ = value ds * 10 ^ 6 / 10 ^ ds.length := by
      rw [Nat.mul_assoc, ← Nat.pow_add, ← Nat.pow_add, six, length]

theorem micros?_eq_some_iff
    {ds : List Char} {n : Nat} :
  micros? ds = some n ↔
    isNumber ds ∧ ds.length ≤ 9 ∧ value ds * 10 ^ 6 / 10 ^ ds.length = n
  := by
  rw [micros?]
  split
  next h =>
    rw [value_sixDigits (isNumber_iff.mp h.1).2, Option.some.injEq]
    exact ⟨fun hn => ⟨h.1, h.2, hn⟩, fun hn => hn.2.2⟩
  next h =>
    constructor
    · nofun
    · rintro ⟨hnumber, hlength, -⟩
      exact absurd ⟨hnumber, hlength⟩ h

/-! ### Magnitudes -/

theorem clock?_clock
    (l : TimeLiteral) :
  clock? l.clock = if value l.hours < 2 ^ 63 then some l.wholeSeconds else none
  := by
  have within : value l.minutes ≤ 59 ∧ value l.seconds ≤ 59 := ⟨l.minutes_le, l.seconds_le⟩
  have parts : splitOn ':' l.clock = [l.hours, l.minutes, l.seconds] := by
    rw [TimeLiteral.clock,
      splitOn_append (TimeLiteral.not_mem_of_isNumber l.isNumber_hours rfl),
      splitOn_append (TimeLiteral.not_mem_of_isNumber l.isNumber_minutes rfl),
      splitOn_eq_singleton (TimeLiteral.not_mem_of_isNumber l.isNumber_seconds rfl)]
  have minutes : number? l.minutes = some (value l.minutes) := by
    rw [number?_of_isNumber l.isNumber_minutes, if_pos (by omega)]
  have seconds : number? l.seconds = some (value l.seconds) := by
    rw [number?_of_isNumber l.isNumber_seconds, if_pos (by omega)]
  rw [clock?, parts]
  simp only [number?_of_isNumber l.isNumber_hours, minutes, seconds, Option.bind_eq_bind,
    Option.bind_some, if_pos within]
  split <;> rfl

/-- A magnitude is the seconds of its clock and the microseconds of its fraction; hours that have
more than 63 bits are not read. -/
theorem magnitude?_body
    (l : TimeLiteral) :
  magnitude? l.body = if value l.hours < 2 ^ 63 then some (l.wholeSeconds, l.micros) else none
  := by
  have pointless : ∀ c ∈ l.clock, (c != '.') = true := by
    intro c hc
    rw [bne_iff_ne]
    rintro rfl
    exact l.point_not_mem_clock hc
  have clock := clock?_clock l
  rw [TimeLiteral.body, TimeLiteral.micros]
  cases hfraction : l.fraction with
  | none =>
    have behind : l.clock.dropWhile (· != '.') = [] := by
      rw [← List.append_nil l.clock, List.dropWhile_append_of_pos pointless]
      rfl
    simp only [Option.map_none, Option.getD_none, List.append_nil, magnitude?, behind, clock]
    split <;> rfl
  | some ds =>
    have behind : (l.clock ++ '.' :: ds).dropWhile (· != '.') = '.' :: ds := by
      rw [List.dropWhile_append_of_pos pointless]
      rfl
    have before : (l.clock ++ '.' :: ds).takeWhile (· != '.') = l.clock := by
      rw [List.takeWhile_append_of_pos pointless]
      simp
    have micros : micros? ds = some (value ds * 10 ^ 6 / 10 ^ ds.length) :=
      micros?_eq_some_iff.mpr
        ⟨l.isNumber_fraction ds hfraction, l.length_fraction_le ds hfraction, rfl⟩
    simp only [Option.map_some, Option.getD_some, magnitude?, behind, before, clock, micros]
    split <;> rfl

theorem exists_of_clock?
    {cs : List Char} {n : Nat} (h : clock? cs = some n) :
  ∃ hours minutes seconds, cs = hours ++ ':' :: (minutes ++ ':' :: seconds) ∧
    (isNumber hours ∧ isNumber minutes ∧ isNumber seconds) ∧
    (value minutes ≤ 59 ∧ value seconds ≤ 59) ∧
    3600 * value hours + 60 * value minutes + value seconds = n
  := by
  rw [clock?] at h
  split at h
  next hours minutes seconds hparts =>
    have text := intercalate_splitOn ':' cs
    rw [hparts, List.intercalate_cons_cons, List.intercalate_cons_cons,
      List.intercalate_singleton] at text
    obtain ⟨nh, hh, h⟩ := Option.bind_eq_some_iff.mp h
    obtain ⟨nm, hm, h⟩ := Option.bind_eq_some_iff.mp h
    obtain ⟨ns, hs, h⟩ := Option.bind_eq_some_iff.mp h
    obtain ⟨isHours, rfl⟩ := isNumber_of_number? hh
    obtain ⟨isMinutes, rfl⟩ := isNumber_of_number? hm
    obtain ⟨isSeconds, rfl⟩ := isNumber_of_number? hs
    split at h
    next hbounds =>
      refine ⟨hours, minutes, seconds, ?_, ⟨isHours, isMinutes, isSeconds⟩, hbounds,
        Option.some.inj h⟩
      rw [← text]
      simp
    next => cases h
  next => cases h

/-- What is read as a magnitude is a literal. -/
theorem exists_of_magnitude?
    {cs : List Char} {seconds micros : Nat} (h : magnitude? cs = some (seconds, micros))
    (negative : Bool) :
  ∃ l : TimeLiteral, l.negative = negative ∧ l.body = cs ∧ l.wholeSeconds = seconds ∧
    l.micros = micros
  := by
  have text : cs.takeWhile (· != '.') ++ cs.dropWhile (· != '.') = cs :=
    List.takeWhile_append_dropWhile
  rw [magnitude?] at h
  split at h
  next hpoint =>
    obtain ⟨n, hclock, h⟩ := Option.bind_eq_some_iff.mp h
    cases h
    obtain ⟨hours, minutes, secs, rfl, ⟨hh, hm, hs⟩, ⟨hm', hs'⟩, hn⟩ := exists_of_clock? hclock
    exact ⟨⟨negative, hours, minutes, secs, none, hh, hm, hs, hm', hs', nofun, nofun⟩, rfl,
      List.append_nil _, hn, rfl⟩
  next c ds hpoint =>
    obtain ⟨n, hclock, h⟩ := Option.bind_eq_some_iff.mp h
    obtain ⟨u, hmicros, h⟩ := Option.bind_eq_some_iff.mp h
    cases h
    obtain ⟨hours, minutes, secs, hcs, ⟨hh, hm, hs⟩, ⟨hm', hs'⟩, hn⟩ := exists_of_clock? hclock
    obtain ⟨hf, hf', hu⟩ := micros?_eq_some_iff.mp hmicros
    have point : c = '.' := by
      have head := List.head?_dropWhile_not (· != '.') cs
      rw [hpoint] at head
      simpa using head
    refine ⟨⟨negative, hours, minutes, secs, some ds, hh, hm, hs, hm', hs', ?_, ?_⟩, rfl, ?_, hn,
      hu⟩
    · rintro _ ⟨⟩
      exact hf
    · rintro _ ⟨⟩
      exact hf'
    · rw [← text, hpoint, hcs, point]
      rfl

/-! ### Durations -/

/-- A literal is read as the duration of its nanoseconds, if that is in range and the number of its
hours has at most 63 bits. -/
theorem readDuration_literal
    (l : TimeLiteral) (target : String) :
  readDuration l.toText target =
    if value l.hours < 2 ^ 63 then
      (Duration.ofNanoseconds? l.nanoseconds).elim (.error (.overflow l.toText target)) .ok
    else .error (.malformed l.toText target)
  := by
  have magnitude := magnitude?_body l
  have text := l.toList_toText
  -- the reader looks for a minus sign first, so that its absence has to be known
  have unsigned := l.body_ne_cons
  rw [readDuration, TimeLiteral.nanoseconds, TimeLiteral.magnitude]
  by_cases hhours : value l.hours < 2 ^ 63
  · rw [if_pos hhours] at magnitude ⊢
    cases hnegative : l.negative with
    | true =>
      replace text : l.toText.toList = '-' :: l.body := by rw [text, hnegative]; rfl
      simp only [text, magnitude, if_true]
      generalize Duration.ofNanoseconds? _ = found
      cases found <;> rfl
    | false =>
      replace text : l.toText.toList = l.body := by rw [text, hnegative]; rfl
      simp only [text, magnitude, Bool.false_eq_true, if_false]
      generalize Duration.ofNanoseconds? _ = found
      cases found <;> rfl
  · rw [if_neg hhours] at magnitude ⊢
    cases hnegative : l.negative with
    | true =>
      replace text : l.toText.toList = '-' :: l.body := by rw [text, hnegative]; rfl
      simp only [text, magnitude]
    | false =>
      replace text : l.toText.toList = l.body := by rw [text, hnegative]; rfl
      simp only [text, magnitude]

theorem exists_of_readDuration
    {s target : String} {d : Duration} (h : readDuration s target = .ok d) :
  ∃ l : TimeLiteral, s = l.toText
  := by
  rw [readDuration] at h
  split at h
  next negative body hsign =>
    have text : s.toList = (if negative then ['-'] else []) ++ body := by
      split at hsign
      next hs =>
        cases hsign
        exact hs
      next =>
        cases hsign
        rfl
    split at h
    next => cases h
    next hmagnitude =>
      obtain ⟨l, rfl, rfl, -, -⟩ := exists_of_magnitude? hmagnitude negative
      use l
      rw [TimeLiteral.toText, ← text, String.ofList_toList]

theorem ofNanoseconds?_eq_some_iff
    {n : Int} {d : Duration} :
  Duration.ofNanoseconds? n = some d ↔ d.nanoseconds = n
  := by
  constructor
  · intro h
    rw [Duration.ofNanoseconds?] at h
    split at h
    next =>
      cases h
      rfl
    next => cases h
  · rintro rfl
    exact dif_pos d.natAbs_le

theorem readDuration_literal_of_nanoseconds
    {l : TimeLiteral} {d : Duration} (hd : d.nanoseconds = l.nanoseconds) (target : String) :
  readDuration l.toText target = .ok d
  := by
  rw [readDuration_literal, if_pos (TimeLiteral.value_hours_lt (TimeLiteral.magnitude_le hd)),
    ofNanoseconds?_eq_some_iff.mpr hd]
  rfl

/-- A text is read as a duration exactly when it is a literal whose magnitude is in range, and then
as the duration of that magnitude, which is negative behind a minus sign. -/
theorem readDuration_eq_ok_iff
    (s target : String) (d : Duration) :
  readDuration s target = .ok d ↔
    ∃ l : TimeLiteral, s = l.toText ∧ l.magnitude ≤ Duration.limit ∧
      d.nanoseconds = l.nanoseconds
  := by
  constructor
  · intro h
    obtain ⟨l, rfl⟩ := exists_of_readDuration h
    rw [readDuration_literal] at h
    split at h
    next =>
      cases hfound : Duration.ofNanoseconds? l.nanoseconds with
      | none =>
        rw [hfound] at h
        cases h
      | some d' =>
        rw [hfound] at h
        cases h
        have hd := ofNanoseconds?_eq_some_iff.mp hfound
        exact ⟨l, rfl, TimeLiteral.magnitude_le hd, hd⟩
    next => cases h
  · rintro ⟨l, rfl, -, hd⟩
    exact readDuration_literal_of_nanoseconds hd target

/-- A literal is a duration or overflows exactly when the number of its hours has at most 63 bits;
one with more hours than that is malformed, although it is a literal. -/
theorem readDuration_ok_or_overflow_iff
    (l : TimeLiteral) (target : String) :
  (((∃ d, readDuration l.toText target = .ok d) ∨
      readDuration l.toText target = .error (.overflow l.toText target)) ↔
    value l.hours < 2 ^ 63) ∧
  (readDuration l.toText target = .error (.malformed l.toText target) ↔ 2 ^ 63 ≤ value l.hours)
  := by
  rw [readDuration_literal]
  split
  next hhours => cases Duration.ofNanoseconds? l.nanoseconds <;> simp [hhours]
  next hhours => simp [hhours, Nat.not_lt.mp hhours]

/-- The least number of hours that has 64 bits. -/
theorem readDuration_literal_hours :
  ∃ l : TimeLiteral, l.toText = "9223372036854775808:00:00" ∧
    readDuration l.toText "Duration" = .error (.malformed l.toText "Duration") ∧
    ¬ ((∃ d, readDuration l.toText "Duration" = .ok d) ∨
      ∃ e, readDuration l.toText "Duration" = .error e ∧ e.kind = .overflow)
  := by
  let l : TimeLiteral :=
    { negative := false, hours := "9223372036854775808".toList, minutes := ['0', '0'],
      seconds := ['0', '0'], fraction := none, isNumber_hours := by decide,
      isNumber_minutes := by decide, isNumber_seconds := by decide, minutes_le := by decide,
      seconds_le := by decide, isNumber_fraction := nofun, length_fraction_le := nofun }
  have malformed : readDuration l.toText "Duration" = .error (.malformed l.toText "Duration") := by
    rw [readDuration_literal, if_neg (by decide)]
  refine ⟨l, rfl, malformed, ?_⟩
  rw [malformed]
  rintro (⟨d, hd⟩ | ⟨e, he, hkind⟩)
  · cases hd
  · cases he
    cases hkind

end Temporal

end SqlWire
