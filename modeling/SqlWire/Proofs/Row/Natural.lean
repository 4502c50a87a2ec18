import SqlWire.Proofs.Calendar.Texts
import SqlWire.Proofs.Column.Admission
import SqlWire.Row

/-!
# Natural values are values of their kind

A field that is read as a value of the kind that its column suggests is the same value when it is
read as that value's kind, and a field that has no such value fails in the same way when it is read
as the natural kind: `Row.getValue_refines`.  Only dates and times on a day are read in two ways:
their natural value may be the text of a zero date, which is no date.
-/

namespace SqlWire

/-! ### Zero dates -/

namespace Temporal

/-- A text that starts with the zero date is no date. -/
theorem date_zeroDate
    (rest : List Char) :
  date (zeroDate.toList ++ rest) = none
  := by
  rfl

theorem readDate_of_startsWithZeroDate
    {s : String} (h : Column.startsWithZeroDate s) (target : String) :
  readDate s target = .error (.malformed s target)
  := by
  obtain ⟨rest, hrest⟩ := List.isPrefixOf_iff_prefix.mp h
  have ascii : ∀ c ∈ zeroDate.toList, c.utf8Size = 1 := by
    intro c hc
    have all : zeroDate.toList.all (fun c => c.utf8Size == 1) = true := by rfl
    exact beq_iff_eq.mp (List.all_eq_true.mp all c hc)
  have first : firstBytes? 10 s.toList = some zeroDate.toList := by
    rw [← hrest]
    exact firstBytes?_append ascii rest
  have none : whole date zeroDate.toList = none := by
    have parts := date_zeroDate []
    rw [List.append_nil] at parts
    rw [whole, parts]
  rw [readDate, first, Option.getD_some, none]

theorem readDateTime_of_startsWithZeroDate
    {s : String} (h : Column.startsWithZeroDate s) (target : String) :
  readDateTime s target = .error (.malformed s target)
  := by
  obtain ⟨rest, hrest⟩ := List.isPrefixOf_iff_prefix.mp h
  have none : whole dateTime s.toList = none := by
    rw [whole, dateTime, ← hrest, date_zeroDate]
    rfl
  rw [readDateTime]
  split
  · rw [readDate_of_startsWithZeroDate h]
    rfl
  · rw [none]

end Temporal

/-! ### Fields -/

namespace Column

open Reader

variable {c : Column} {p : Protocol} {target : Target} {field : Bytes} {v : Value}

/-- The natural value of the field is what the field is read as of that value's kind, and if it has
none, it fails in the same way when it is read as the target. -/
structure Refines (c : Column) (p : Protocol) (target : Target) (field : Bytes) : Prop where
  ok : ∀ v, c.decodeNatural p field = .ok v →
    ∃ kind, v.target? = some kind ∧ c.decode p kind field = .ok v
  error : ∀ e, c.decodeNatural p field = .error e →
    ∃ e', c.decode p target field = .error e' ∧ e'.kind = e.kind

/-- A column admits its natural kind. -/
theorem admits_of_naturalTarget
    (h : c.naturalTarget = some target) :
  c.admits target = true
  := by
  rw [admits_eq]
  cases htype : c.type with
  | tiny | short | long | longLong | bit =>
    simp only [naturalTarget, htype] at h
    simp only [family, htype]
    split at h <;> cases h <;> rfl
  | varchar | varString | string | enumeration | set | json
  | tinyBlob | mediumBlob | longBlob | blob =>
    simp only [naturalTarget, htype] at h
    simp only [family, htype]
    split at h
    next hbinary => cases h; rw [if_pos hbinary]; rfl
    next hbinary => cases h; rw [if_neg hbinary]; rfl
  | _ =>
    simp only [naturalTarget, htype] at h
    simp only [family, htype]
    cases h <;> rfl

/-- What is read as a kind is of that kind. -/
theorem target?_of_decode
    (h : c.decode p target field = .ok v) :
  v.target? = some target
  := by
  rw [decode] at h
  split at h
  · cases target <;> obtain ⟨_, rfl⟩ := exists_of_run_map h <;> rfl
  · cases h

theorem refines_of_eq
    (h : c.decodeNatural p field = c.decode p target field) :
  c.Refines p target field
  where
  ok := by
    intro v hv
    rw [h] at hv
    exact ⟨target, target?_of_decode hv, hv⟩
  error := by
    intro e he
    rw [h] at he
    exact ⟨e, he, rfl⟩

/-- There is no value, of the natural kind or of any. -/
theorem refines_of_error
    {e e' : Error} (hnatural : c.decodeNatural p field = .error e)
    (htyped : c.decode p target field = .error e') (hkind : e'.kind = e.kind) :
  c.Refines p target field
  where
  ok := by
    intro v hv
    rw [hnatural] at hv
    cases hv
  error := by
    intro e₁ he₁
    rw [hnatural] at he₁
    obtain rfl := Except.error.inj he₁
    exact ⟨e', htyped, hkind⟩

theorem refines_of_not_isCalendar
    (hcalendar : c.type.isCalendar = false) (h : c.naturalTarget = some target) :
  c.Refines p target field
  := by
  apply refines_of_eq
  simp only [decodeNatural, readNatural, hcalendar, h, decode, admits_of_naturalTarget h,
    Bool.false_eq_true, if_false, if_true]

/-! ### Calendar fields -/

/-- What a calendar field in text form is as a text. -/
def plainText (c : Column) (s : String) : Except Error String :=
  if c.zeroDates == .reject && startsWithZeroDate s then .error (.malformed s Target.text.name)
  else .ok s

/-- What a calendar field of the given length in binary form is as a text, by its parts. -/
def partsText (c : Column) (length : Nat) (f : DateTimeField) : Except Error String :=
  if c.type.isDateOnly then f.dateText length c.zeroDates
  else f.dateTimeText length c.decimals.toNat c.zeroDates

/-- What a calendar field in text form is, by its text. -/
def calendarOfText (c : Column) (s : String) : Except Error Value :=
  if startsWithZeroDate s then
    match c.zeroDates with
    | .literal => .ok (.text s)
    | .reject => .error (.malformed s naturalName)
  else if c.type.isDateOnly then do return .date (← Temporal.readDate s Target.date.name)
  else do return .dateTime (← Temporal.readDateTime s Target.dateTime.name)

/-- What a calendar field of the given length in binary form is, by its parts. -/
def calendarOfParts (c : Column) (length : Nat) (f : DateTimeField) : Except Error Value :=
  if f.isZeroDate then
    if c.type.isDateOnly then do return .text (← f.dateText length c.zeroDates)
    else do return .text (← f.dateTimeText length c.decimals.toNat c.zeroDates)
  else if c.type.isDateOnly then do return .date (← denoted f f.date? naturalName)
  else do return .dateTime (← denoted f f.dateTime? naturalName)

/-- The parts are not those of a zero date, which is neither a date nor a time on one. -/
def partsOf (c : Column) (target : String) (f : DateTimeField) : Except Error DateTimeField :=
  if f.isZeroDate then .error (.malformed c.zeroLiteral target) else .ok f

theorem readPlainText_eq
    (hcalendar : c.type.isCalendar) (n : Nat) :
  c.readPlainText n = text n >>= fun s => lift (c.plainText s)
  := by
  rw [readPlainText]
  congr 1
  funext s
  rw [hcalendar, Bool.true_and, plainText]
  split <;> rfl

theorem readBinaryText_eq
    (hcalendar : c.type.isCalendar) (n : Nat) :
  c.readBinaryText n = DateTimeField.read n >>= fun f => lift (c.partsText n f)
  := by
  rw [readBinaryText]
  cases htype : c.type <;> rw [htype] at hcalendar <;> cases hcalendar <;>
    simp only [partsText, htype] <;> rfl

theorem readNaturalCalendarText_eq
    (c : Column) (n : Nat) :
  c.readNaturalCalendarText n = text n >>= fun s => lift (c.calendarOfText s)
  := by
  rw [readNaturalCalendarText]
  congr 1
  funext s
  rw [calendarOfText]
  split
  · cases c.zeroDates <;> rfl
  split
  · apply lift_map
  · apply lift_map

theorem readNaturalCalendarBinary_eq
    (c : Column) (n : Nat) :
  c.readNaturalCalendarBinary n = DateTimeField.read n >>= fun f => lift (c.calendarOfParts n f)
  := by
  rw [readNaturalCalendarBinary]
  congr 1
  funext f
  rw [calendarOfParts]
  split
  · split <;> apply lift_map
  · split <;> apply lift_map

theorem readCalendar_eq
    (c : Column) (n : Nat) (target : String) :
  c.readCalendar n target = DateTimeField.read n >>= fun f => lift (c.partsOf target f)
  := by
  rw [readCalendar]
  congr 1
  funext f
  rw [partsOf]
  split <;> rfl

/-- The kind that the values of a calendar column are of, if they are not zero dates. -/
def calendarTarget (c : Column) : Target :=
  if c.type.isDateOnly then .date else .dateTime

theorem naturalTarget_of_isCalendar
    (h : c.type.isCalendar) :
  c.naturalTarget = some c.calendarTarget
  := by
  cases htype : c.type <;> simp [htype, WireType.isCalendar] at h <;>
    simp [naturalTarget, calendarTarget, htype, WireType.isDateOnly]

theorem decodeNatural_text
    (hcalendar : c.type.isCalendar) (field : Bytes) :
  c.decodeNatural .text field = c.calendarOfText (Utf8.decode field)
  := by
  rw [decodeNatural, readNatural.eq_def, if_pos hcalendar, readNaturalCalendarText_eq,
    run_bind_lift, run_text]
  rfl

theorem decodeNatural_binary
    (hcalendar : c.type.isCalendar) (field : Bytes) :
  c.decodeNatural .binary field =
    (DateTimeField.read field.length).run field >>= c.calendarOfParts field.length
  := by
  rw [decodeNatural, readNatural.eq_def, if_pos hcalendar, readNaturalCalendarBinary_eq,
    run_bind_lift]

theorem decode_text_text
    (hcalendar : c.type.isCalendar) (field : Bytes) :
  c.decode .text .text field =
    if c.zeroDates == .reject && startsWithZeroDate (Utf8.decode field) then
      .error (.malformed (Utf8.decode field) Target.text.name)
    else .ok (.text (Utf8.decode field))
  := by
  have hadmits : c.admits .text = true := by
    rw [admits_eq, family_eq_calendar hcalendar]
    rfl
  rw [decode, if_pos hadmits, readAs, run_map]
  simp only [readText, family_eq_calendar hcalendar]
  rw [readPlainText_eq hcalendar, run_bind_lift, run_text]
  change c.plainText _ >>= _ = _
  rw [plainText]
  split <;> rfl

/-- The column's fields are texts when they are read as dates. -/
def HoldsDateTexts (c : Column) (p : Protocol) : Prop :=
  c.family = .text ∨ c.family = .calendar ∧ p = .text

theorem HoldsDateTexts.decode_eq
    (h : c.HoldsDateTexts p) (field : Bytes) :
  (c.decode p .date field =
    do return .date (← Temporal.readDate (Utf8.decode field) Target.date.name)) ∧
  c.decode p .dateTime field =
    do return .dateTime (← Temporal.readDateTime (Utf8.decode field) Target.dateTime.name)
  := by
  have hadmits : c.admits .date = true ∧ c.admits .dateTime = true := by
    rw [admits_eq, admits_eq]
    rcases h with hfamily | ⟨hfamily, -⟩ <;> rw [hfamily] <;> exact ⟨rfl, rfl⟩
  have date : c.readDate p field.length =
      text field.length >>= fun s => lift (Temporal.readDate s Target.date.name) := by
    rcases h with hfamily | ⟨hfamily, rfl⟩
    · cases p <;> simp only [readDate, hfamily]
    · simp only [readDate, hfamily]
  have dateTime : c.readDateTime p field.length =
      text field.length >>= fun s => lift (Temporal.readDateTime s Target.dateTime.name) := by
    rcases h with hfamily | ⟨hfamily, rfl⟩
    · cases p <;> simp only [readDateTime, hfamily]
    · simp only [readDateTime, hfamily]
  constructor
  · rw [decode, if_pos hadmits.1, readAs, run_map, date, run_bind_lift, run_text]
    rfl
  · rw [decode, if_pos hadmits.2, readAs, run_map, dateTime, run_bind_lift, run_text]
    rfl

theorem decode_text_calendar
    (hcalendar : c.type.isCalendar) (field : Bytes) :
  c.decode .text c.calendarTarget field =
    if c.type.isDateOnly then
      do return .date (← Temporal.readDate (Utf8.decode field) Target.date.name)
    else do return .dateTime (← Temporal.readDateTime (Utf8.decode field) Target.dateTime.name)
  := by
  obtain ⟨date, dateTime⟩ := HoldsDateTexts.decode_eq
    (.inr ⟨family_eq_calendar hcalendar, rfl⟩) field
  rw [calendarTarget]
  split
  · exact date
  · exact dateTime

theorem decode_binary_text
    (hcalendar : c.type.isCalendar) (field : Bytes) :
  c.decode .binary .text field =
    (DateTimeField.read field.length).run field >>= fun f =>
      if c.type.isDateOnly then do return .text (← f.dateText field.length c.zeroDates)
      else do return .text (← f.dateTimeText field.length c.decimals.toNat c.zeroDates)
  := by
  have hadmits : c.admits .text = true := by
    rw [admits_eq, family_eq_calendar hcalendar]
    rfl
  rw [decode, if_pos hadmits, readAs, run_map]
  simp only [readText, family_eq_calendar hcalendar]
  rw [readBinaryText_eq hcalendar, run_bind_lift]
  cases (DateTimeField.read field.length).run field with
  | error e => rfl
  | ok f =>
    change c.partsText _ f >>= _ = ite _ _ _
    rw [partsText]
    split <;> rfl

theorem decode_binary_dates
    (hcalendar : c.type.isCalendar) (field : Bytes) :
  (c.decode .binary .date field =
    (DateTimeField.read field.length).run field >>= fun f =>
      if f.isZeroDate then .error (.malformed c.zeroLiteral Target.date.name)
      else do return .date (← denoted f f.date? Target.date.name)) ∧
  c.decode .binary .dateTime field =
    (DateTimeField.read field.length).run field >>= fun f =>
      if f.isZeroDate then .error (.malformed c.zeroLiteral Target.dateTime.name)
      else do return .dateTime (← denoted f f.dateTime? Target.dateTime.name)
  := by
  have hfamily := family_eq_calendar hcalendar
  have hadmits : c.admits .date = true ∧ c.admits .dateTime = true := by
    rw [admits_eq, admits_eq, hfamily]
    exact ⟨rfl, rfl⟩
  constructor
  · rw [decode, if_pos hadmits.1, readAs, run_map]
    simp only [readDate, hfamily, run_bind_lift, readCalendar_eq]
    cases (DateTimeField.read field.length).run field with
    | error e => rfl
    | ok f =>
      change partsOf _ _ f >>= _ >>= _ = if _ then _ else _
      rw [partsOf]
      split <;> rfl
  · rw [decode, if_pos hadmits.2, readAs, run_map]
    simp only [readDateTime, hfamily, run_bind_lift, readCalendar_eq]
    cases (DateTimeField.read field.length).run field with
    | error e => rfl
    | ok f =>
      change partsOf _ _ f >>= _ >>= _ = if _ then _ else _
      rw [partsOf]
      split <;> rfl

theorem decode_binary_calendar
    (hcalendar : c.type.isCalendar) (field : Bytes) :
  c.decode .binary c.calendarTarget field =
    (DateTimeField.read field.length).run field >>= fun f =>
      if f.isZeroDate then .error (.malformed c.zeroLiteral c.calendarTarget.name)
      else if c.type.isDateOnly then
        do return .date (← denoted f f.date? Target.date.name)
      else do return .dateTime (← denoted f f.dateTime? Target.dateTime.name)
  := by
  obtain ⟨date, dateTime⟩ := decode_binary_dates hcalendar field
  rw [calendarTarget]
  split
  · exact date
  · exact dateTime

/-! ### Zero dates in calendar fields -/

/-- A zero date has a text or none, and is nothing else. -/
theorem refines_of_zeroDate
    {e' : Error} (htext : ∀ v, c.decodeNatural p field = .ok v → c.decode p .text field = .ok v)
    (hmalformed : SqlWire.FailsWith (·.kind = .malformedLiteral) (c.decodeNatural p field))
    (htyped : c.decode p target field = .error e') (he' : e'.kind = .malformedLiteral) :
  c.Refines p target field
  where
  ok := by
    intro v hv
    exact ⟨.text, target?_of_decode (htext v hv), htext v hv⟩
  error := by
    intro e he
    exact ⟨e', htyped, he'.trans (hmalformed e he).symm⟩

theorem failsWith_dateText
    {f : DateTimeField} (hzero : f.isZeroDate) (n : Nat) (policy : ZeroDatePolicy) :
  SqlWire.FailsWith (·.kind = .malformedLiteral) (f.dateText n policy)
  := by
  rw [DateTimeField.dateText]
  split
  · apply failsWith_ok
  · apply f.failsWith_zeroText

theorem failsWith_dateTimeText
    {f : DateTimeField} (hzero : f.isZeroDate) (n scale : Nat) (policy : ZeroDatePolicy) :
  SqlWire.FailsWith (·.kind = .malformedLiteral) (f.dateTimeText n scale policy)
  := by
  rw [DateTimeField.dateTimeText]
  split
  · apply failsWith_ok
  · apply f.failsWith_zeroText

theorem refines_text
    (hcalendar : c.type.isCalendar) (field : Bytes) :
  c.Refines .text c.calendarTarget field
  := by
  have natural := decodeNatural_text hcalendar field
  have typed := decode_text_calendar hcalendar field
  have plain := decode_text_text hcalendar field
  rw [calendarOfText] at natural
  split at natural
  next hzero =>
    -- under either policy a zero date is refused as a date, and only its text can be its value
    rw [Temporal.readDate_of_startsWithZeroDate hzero,
      Temporal.readDateTime_of_startsWithZeroDate hzero] at typed
    have refused : ∃ e', c.decode .text c.calendarTarget field = .error e' ∧
        e'.kind = .malformedLiteral := by
      rw [typed]
      split <;> exact ⟨_, rfl, rfl⟩
    obtain ⟨e', htyped, he'⟩ := refused
    apply refines_of_zeroDate _ _ htyped he'
    · intro v hv
      rw [plain]
      cases hpolicy : c.zeroDates with
      | literal =>
        rw [natural, hpolicy] at hv
        exact hv
      | reject =>
        rw [natural, hpolicy] at hv
        cases hv
    · rw [natural]
      cases c.zeroDates with
      | literal => apply failsWith_ok
      | reject => exact failsWith_error rfl
  next => exact refines_of_eq (natural.trans typed.symm)

theorem refines_binary
    (hcalendar : c.type.isCalendar) (field : Bytes) :
  c.Refines .binary c.calendarTarget field
  := by
  have natural := decodeNatural_binary hcalendar field
  have typed := decode_binary_calendar hcalendar field
  have plain := decode_binary_text hcalendar field
  cases hread : (DateTimeField.read field.length).run field with
  | error e =>
    rw [hread] at natural typed
    exact refines_of_eq (natural.trans typed.symm)
  | ok f =>
    rw [hread] at natural typed plain
    change _ = c.calendarOfParts field.length f at natural
    change _ = ite _ _ _ at typed
    change _ = ite _ _ _ at plain
    rw [calendarOfParts] at natural
    cases hzero : f.isZeroDate with
    | true =>
      rw [hzero, if_pos rfl] at natural typed
      apply refines_of_zeroDate _ _ typed rfl
      · rw [natural, plain]
        exact fun v hv => hv
      · rw [natural]
        split
        · exact (failsWith_dateText hzero _ _).bind fun s => failsWith_ok _
        · exact (failsWith_dateTimeText hzero _ _ _).bind fun s => failsWith_ok _
    | false =>
      -- the failures name different targets, so the outcomes are equal for values alone
      rw [hzero, if_neg Bool.false_ne_true] at natural typed
      by_cases hdate : c.type.isDateOnly
      · rw [if_pos hdate] at natural typed
        cases hday : f.date? with
        | some d =>
          rw [hday] at natural typed
          exact refines_of_eq (natural.trans typed.symm)
        | none =>
          rw [hday] at natural typed
          exact refines_of_error natural typed rfl
      · rw [if_neg hdate] at natural typed
        cases htime : f.dateTime? with
        | some t =>
          rw [htime] at natural typed
          exact refines_of_eq (natural.trans typed.symm)
        | none =>
          rw [htime] at natural typed
          exact refines_of_error natural typed rfl

/-- The natural value of a field is a value of its kind, and a field without one fails in the same
way when it is read as the natural kind. -/
theorem refines_naturalTarget
    (htarget : c.naturalTarget = some target) (p : Protocol) (field : Bytes) :
  c.Refines p target field
  := by
  cases hcalendar : c.type.isCalendar with
  | false => exact refines_of_not_isCalendar hcalendar htarget
  | true =>
    rw [naturalTarget_of_isCalendar hcalendar] at htarget
    obtain rfl := Option.some.inj htarget
    cases p with
    | text => apply refines_text hcalendar
    | binary => apply refines_binary hcalendar

theorem exists_naturalTarget
    (h : c.type ≠ .null) :
  ∃ target, c.naturalTarget = some target
  := by
  cases htype : c.type with
  | null => contradiction
  | _ => exact ⟨_, by simp only [naturalTarget, htype]; rfl⟩

end Column

namespace Row

variable {r : Row} {i : Nat} {c : Column} {field : Bytes}

theorem getValue_eq
    (hcolumn : r.columns[i]? = some c) (hfield : r.field? i = some field) :
  r.getValue i = c.decodeNatural r.protocol field
  := by
  simp only [getValue, column, hcolumn, hfield]
  rfl

theorem get_eq
    (hcolumn : r.columns[i]? = some c) (hfield : r.field? i = some field) (target : Target) :
  r.get target i = c.decode r.protocol target field >>= fun v => .ok (some v)
  := by
  simp only [get, column, hcolumn, hfield]
  rfl

/-- The natural value of a field that is not null is its value of some kind, which is the kind of
that value; and if the field has no natural value, then its value of the natural kind fails in the
same way. -/
theorem getValue_refines
    (hcolumn : r.columns[i]? = some c) (hfield : r.field? i = some field)
    (htype : c.type ≠ .null) :
  (∀ v, r.getValue i = .ok v →
    ∃ target, v.target? = some target ∧ r.get target i = .ok (some v)) ∧
  ∃ target, c.naturalTarget = some target ∧
    ∀ e, r.getValue i = .error e → ∃ e', r.get target i = .error e' ∧ e'.kind = e.kind
  := by
  obtain ⟨target, htarget⟩ := Column.exists_naturalTarget htype
  have refines := Column.refines_naturalTarget htarget r.protocol field
  constructor
  · intro v hv
    rw [getValue_eq hcolumn hfield] at hv
    obtain ⟨kind, hkind, hdecoded⟩ := refines.ok v hv
    use kind, hkind
    rw [get_eq hcolumn hfield, hdecoded]
    rfl
  · use target, htarget
    intro e he
    rw [getValue_eq hcolumn hfield] at he
    obtain ⟨e', hdecoded, hkind⟩ := refines.error e he
    use e'
    rw [get_eq hcolumn hfield, hdecoded]
    exact ⟨rfl, hkind⟩

/-- Zero dates: an empty field in binary form, whose natural value is a text, and a text that the
column's policy refuses. -/
theorem getValue_refines_zero :
  let c := Column.ofNameAndType "t" .timestamp
  let r : Row := ⟨[c], [some []], .binary⟩
  let c' := { Column.ofNameAndType "d" .newDate with zeroDates := .reject }
  let field : Bytes := [0x30, 0x30, 0x30, 0x30, 0x2D, 0x30, 0x30, 0x2D, 0x30, 0x30]
  let r' : Row := ⟨[c'], [some field], .text⟩
  (r.columns[0]? = some c ∧ r.field? 0 = some [] ∧ c.type ≠ .null ∧
    r.getValue 0 = .ok (.text "0000-00-00 00:00:00") ∧
    r.get .text 0 = .ok (some (.text "0000-00-00 00:00:00"))) ∧
  (r'.columns[0]? = some c' ∧ r'.field? 0 = some field ∧ c'.type ≠ .null ∧
    r'.getValue 0 = .error (.malformed "0000-00-00" "Value") ∧
    ∃ e, r'.get .date 0 = .error e ∧ e.kind = .malformedLiteral)
  := by
  intro c r c' field r'
  have hfield : r.field? 0 = some [] := rfl
  have hfield' : r'.field? 0 = some field := rfl
  have natural : r.getValue 0 = .ok (.text "0000-00-00 00:00:00") := by rfl
  have refused : r'.getValue 0 = .error (.malformed "0000-00-00" "Value") := by
    have text : Utf8.decode field = "0000-00-00" := by decide +kernel
    rw [getValue_eq (c := c') rfl hfield', Column.decodeNatural_text rfl, text]
    rfl
  obtain ⟨asText, -⟩ := getValue_refines (c := c) rfl hfield nofun
  obtain ⟨-, _, htarget, asDate⟩ := getValue_refines (c := c') rfl hfield' nofun
  obtain ⟨_, hkind, read⟩ := asText _ natural
  cases htarget
  cases hkind
  exact ⟨⟨rfl, hfield, nofun, natural, read⟩, rfl, hfield', nofun, refused, asDate _ refused⟩

end Row

end SqlWire
