import SqlWire.Proofs.Column.Agreement
import SqlWire.Proofs.Column.Temporal
import SqlWire.Proofs.Row.Natural

/-!
# The policy for zero dates

A column's policy for zero dates decides between the text of a zero date and a refusal, when a field
of a calendar column is read as a text or as its natural value: `Column.ReadsZeroDate` says which
fields are zero dates, and what their texts are.  Everything else is read alike under both policies,
`Column.readKind_withZeroDates`.
-/

namespace SqlWire

namespace Column

open Reader

variable {c : Column} {kind : Option Target} {target : Target} {n : Nat} {f : DateTimeField}

/-- The column with a policy for zero dates. -/
def withZeroDates (policy : ZeroDatePolicy) (c : Column) : Column :=
  { c with zeroDates := policy }

/-- The policy matters to fields of the column that are read as the kind: to those of calendar
columns, read as texts or as their natural values. -/
def HeedsPolicy (c : Column) (kind : Option Target) : Prop :=
  c.type.isCalendar ∧ (kind = none ∨ kind = some .text)

/-- A field of `n` bytes at the cursor is a zero date to which the policy matters: it is a text that
starts with the zero date, or it has a byte at least and its year, month and day are zero.  Its text
is then the one that was sent, or the literal of the column's zero date. -/
inductive ReadsZeroDate (c : Column) (kind : Option Target) (n : Nat) (before : Cursor) :
    Protocol → String → Prop where
  | text {s : String} (hpolicy : c.HeedsPolicy kind) (hread : (Reader.text n before).1 = .ok s)
      (hzero : zeroDate.toList <+: s.toList) :
      ReadsZeroDate c kind n before .text s
  | binary {f : DateTimeField} (hpolicy : c.HeedsPolicy kind)
      (hread : (DateTimeField.read n before).1 = .ok f) (hlength : n ≠ 0)
      (hzero : f.year = 0 ∧ f.month = 0 ∧ f.day = 0) :
      ReadsZeroDate c kind n before .binary c.zeroLiteral

theorem ReadsZeroDate.heedsPolicy
    {before : Cursor} {p : Protocol} {s : String} (h : c.ReadsZeroDate kind n before p s) :
  c.HeedsPolicy kind
  := by
  cases h with
  | text hpolicy => exact hpolicy
  | binary hpolicy => exact hpolicy

/-- Calendar columns have texts. -/
theorem HeedsPolicy.admits
    (h : c.HeedsPolicy (some target)) :
  c.admits target = true
  := by
  obtain ⟨hcalendar, hnone | htext⟩ := h
  · cases hnone
  · obtain rfl := Option.some.inj htext
    rw [admits_eq, family_eq_calendar hcalendar]
    rfl

/-- The outcomes under the two policies: for a zero date, whose text it is, that text under the one
and a malformed literal under the other, and the same under both for everything else. -/
structure PartAtZeroDate (isText : String → Prop) (literal reject : Except Error Value) :
    Prop where
  zero : ∀ s, isText s →
    literal = .ok (.text s) ∧ ∃ e, reject = .error e ∧ e.kind = .malformedLiteral
  other : (∀ s, ¬ isText s) → literal = reject

/-! ### What the policy does not concern -/

theorem readAs_withZeroDates
    (policy : ZeroDatePolicy) (p : Protocol) (n : Nat) (htarget : target ≠ .text) :
  (c.withZeroDates policy).readAs p target n = c.readAs p target n
  := by
  cases target with
  | text => contradiction
  | _ => rfl

theorem readText_withZeroDates
    (policy : ZeroDatePolicy) (p : Protocol) (n : Nat) (hcalendar : c.type.isCalendar = false) :
  (c.withZeroDates policy).readText p n = c.readText p n
  := by
  have plain : (c.withZeroDates policy).readPlainText n = c.readPlainText n := by
    rw [readPlainText_of_not_isCalendar hcalendar, readPlainText_of_not_isCalendar]
    exact hcalendar
  have parts : (c.withZeroDates policy).readBinaryText n = c.readBinaryText n := by
    have type : (c.withZeroDates policy).type = c.type := rfl
    rw [readBinaryText, readBinaryText, type]
    cases htype : c.type with
    | date | newDate | dateTime | timestamp =>
      rw [htype] at hcalendar
      cases hcalendar
    | _ => rfl
  have family : (c.withZeroDates policy).family = c.family := rfl
  unfold readText
  rw [plain, parts, family]
  rfl

/-- No kind is read by the policy, but for those to which it matters. -/
theorem readKind_withZeroDates_of_not
    (policy : ZeroDatePolicy) (p : Protocol) (n : Nat) (h : ¬ c.HeedsPolicy kind) :
  (c.withZeroDates policy).readKind p kind n = c.readKind p kind n
  := by
  have asTarget (target : Target) (htarget : c.type.isCalendar = false ∨ target ≠ .text) :
      (c.withZeroDates policy).readAs p target n = c.readAs p target n := by
    by_cases htext : target = .text
    · subst htext
      have hcalendar := htarget.resolve_right (fun hne => hne rfl)
      simp only [readAs, readText_withZeroDates policy p n hcalendar]
    · exact readAs_withZeroDates policy p n htext
  cases hcalendar : c.type.isCalendar with
  | true =>
    cases kind with
    | none => exact absurd ⟨hcalendar, .inl rfl⟩ h
    | some target =>
      apply asTarget target (.inr _)
      rintro rfl
      exact h ⟨hcalendar, .inr rfl⟩
  | false =>
    cases kind with
    | some target => exact asTarget target (.inl hcalendar)
    | none =>
      have natural : (c.withZeroDates policy).naturalTarget = c.naturalTarget := rfl
      have type : (c.withZeroDates policy).type.isCalendar = false := hcalendar
      simp only [readKind, readNatural, hcalendar, type, natural, Bool.false_eq_true, if_false]
      cases c.naturalTarget with
      | some target => exact asTarget target (.inl hcalendar)
      | none => rfl

/-! ### Outcomes that part at zero dates -/

theorem PartAtZeroDate.congr
    {isText isText' : String → Prop} {literal reject : Except Error Value}
    (h : PartAtZeroDate isText literal reject) (hiff : ∀ s, isText' s ↔ isText s) :
  PartAtZeroDate isText' literal reject
  where
  zero := fun s hs => h.zero s ((hiff s).mp hs)
  other := fun hnot => h.other fun s hs => hnot s ((hiff s).mpr hs)

theorem PartAtZeroDate.of_eq
    {outcome outcome' : Except Error Value} (h : outcome = outcome') {isText : String → Prop}
    (hnot : ∀ s, ¬ isText s) :
  PartAtZeroDate isText outcome outcome'
  where
  zero := fun s hs => absurd hs (hnot s)
  other := fun _ => h

/-- What is read is the same under both policies, and its outcomes may part. -/
theorem PartAtZeroDate.bind
    {α : Type} {isText : α → String → Prop} {literal reject : α → Except Error Value}
    (h : ∀ a, PartAtZeroDate (isText a) (literal a) (reject a)) (outcome : Except Error α) :
  PartAtZeroDate (fun s => ∃ a, outcome = .ok a ∧ isText a s) (outcome >>= literal)
    (outcome >>= reject)
  := by
  cases outcome with
  | error e =>
    apply PartAtZeroDate.of_eq rfl
    rintro s ⟨a, hread, -⟩
    cases hread
  | ok a =>
    apply (h a).congr
    intro s
    constructor
    · rintro ⟨a', hread, hs⟩
      cases hread
      exact hs
    · exact fun hs => ⟨a, rfl, hs⟩

/-! ### Calendar fields in text form -/

/-- What a calendar field in text form is, as its natural value or as a text. -/
def outcomeOfText (c : Column) (kind : Option Target) (s : String) : Except Error Value :=
  match kind with
  | none => c.calendarOfText s
  | some _ => c.plainText s >>= fun s => .ok (.text s)

theorem readKind_text_eq
    (h : c.HeedsPolicy kind) (n : Nat) :
  c.readKind .text kind n = text n >>= fun s => lift (c.outcomeOfText kind s)
  := by
  obtain ⟨hcalendar, rfl | rfl⟩ := h
  · rw [readKind, readNatural.eq_def, if_pos hcalendar]
    apply readNaturalCalendarText_eq
  · simp only [readKind, readAs, readText, family_eq_calendar hcalendar]
    rw [readPlainText_eq hcalendar]
    apply bind_lift_map

theorem outcomeOfText_partAtZeroDate
    (c : Column) (kind : Option Target) (s : String) :
  PartAtZeroDate (fun text => startsWithZeroDate s = true ∧ text = s)
    ((c.withZeroDates .literal).outcomeOfText kind s)
    ((c.withZeroDates .reject).outcomeOfText kind s)
  where
  zero := by
    rintro _ ⟨hzero, rfl⟩
    cases kind with
    | none =>
      simp only [outcomeOfText, calendarOfText, if_pos hzero]
      exact ⟨rfl, _, rfl, rfl⟩
    | some _ =>
      simp only [outcomeOfText, plainText, hzero]
      exact ⟨rfl, _, rfl, rfl⟩
  other := by
    intro hnot
    have hzero : startsWithZeroDate s = false := Bool.eq_false_iff.mpr fun h => hnot s ⟨h, rfl⟩
    cases kind with
    | none =>
      simp only [outcomeOfText, calendarOfText, hzero, Bool.false_eq_true, if_false]
      rfl
    | some _ =>
      simp only [outcomeOfText, plainText, hzero, Bool.and_false, Bool.false_eq_true, if_false]

/-! ### Calendar fields in binary form -/

/-- What a calendar field of the given length in binary form is, as its natural value or as a text,
by its parts. -/
def outcomeOfParts (c : Column) (kind : Option Target) (length : Nat) (f : DateTimeField) :
    Except Error Value :=
  match kind with
  | none => c.calendarOfParts length f
  | some _ => c.partsText length f >>= fun s => .ok (.text s)

theorem readKind_binary_eq
    (h : c.HeedsPolicy kind) (n : Nat) :
  c.readKind .binary kind n =
    DateTimeField.read n >>= fun f => lift (c.outcomeOfParts kind n f)
  := by
  obtain ⟨hcalendar, rfl | rfl⟩ := h
  · rw [readKind, readNatural.eq_def, if_pos hcalendar]
    apply readNaturalCalendarBinary_eq
  · simp only [readKind, readAs, readText, family_eq_calendar hcalendar]
    rw [readBinaryText_eq hcalendar]
    apply bind_lift_map

/-- The natural value of a zero date is its text. -/
theorem calendarOfParts_of_isZeroDate
    (c : Column) (n : Nat) (hzero : f.isZeroDate = true) :
  c.calendarOfParts n f = c.partsText n f >>= fun s => .ok (.text s)
  := by
  rw [calendarOfParts, if_pos hzero, partsText]
  split <;> rfl

/-- The text of a field is a matter of the policy only if its bytes are those of a zero date. -/
theorem partsText_withZeroDates
    (c : Column) (policy : ZeroDatePolicy) (n : Nat) (f : DateTimeField) :
  (c.withZeroDates policy).partsText n f =
    if n ≠ 0 ∧ f.isZeroDate = true then f.zeroText c.zeroLiteral policy else c.partsText n f
  := by
  have type : (c.withZeroDates policy).type = c.type := rfl
  have held : (c.withZeroDates policy).zeroDates = policy := rfl
  simp only [partsText, type, held, DateTimeField.dateText, DateTimeField.dateTimeText, zeroLiteral]
  by_cases hlength : n = 0
  · simp only [hlength, ne_eq, not_true_eq_false, false_and, if_true, if_false]
    rfl
  · by_cases hzero : f.isZeroDate = true
    · simp only [hlength, hzero, ne_eq, not_false_eq_true, true_and, if_true, if_false]
      split <;> rfl
    · simp only [hlength, hzero, and_false, Bool.false_eq_true, if_false]
      rfl

theorem outcomeOfParts_partAtZeroDate
    (c : Column) (kind : Option Target) (n : Nat) (f : DateTimeField) :
  PartAtZeroDate (fun text => (n ≠ 0 ∧ f.isZeroDate = true) ∧ text = c.zeroLiteral)
    ((c.withZeroDates .literal).outcomeOfParts kind n f)
    ((c.withZeroDates .reject).outcomeOfParts kind n f)
  := by
  have ofZero (policy : ZeroDatePolicy) (hzero : f.isZeroDate = true) :
      (c.withZeroDates policy).outcomeOfParts kind n f =
        (c.withZeroDates policy).partsText n f >>= fun s => .ok (.text s) := by
    cases kind with
    | none => rw [outcomeOfParts, calendarOfParts_of_isZeroDate _ _ hzero]
    | some _ => rfl
  constructor
  case zero =>
    rintro _ ⟨hzero, rfl⟩
    rw [ofZero _ hzero.2, ofZero _ hzero.2, partsText_withZeroDates, partsText_withZeroDates,
      if_pos hzero, if_pos hzero]
    exact ⟨rfl, _, rfl, rfl⟩
  case other =>
    intro hnot
    have hnot : ¬ (n ≠ 0 ∧ f.isZeroDate = true) := fun hzero => hnot _ ⟨hzero, rfl⟩
    have text : (c.withZeroDates .literal).partsText n f =
        (c.withZeroDates .reject).partsText n f := by
      rw [partsText_withZeroDates, partsText_withZeroDates, if_neg hnot, if_neg hnot]
    by_cases hzero : f.isZeroDate = true
    · rw [ofZero _ hzero, ofZero _ hzero, text]
    · cases kind with
      | some _ => simp only [outcomeOfParts, text]
      | none =>
        simp only [outcomeOfParts, calendarOfParts, if_neg hzero]
        rfl

/-! ### Both policies -/

theorem readKind_partAtZeroDate
    (c : Column) (p : Protocol) (kind : Option Target) (n : Nat) (before : Cursor) :
  PartAtZeroDate (c.ReadsZeroDate kind n before p)
    ((c.withZeroDates .literal).readKind p kind n before).1
    ((c.withZeroDates .reject).readKind p kind n before).1 ∧
  ((c.withZeroDates .literal).readKind p kind n before).2 =
    ((c.withZeroDates .reject).readKind p kind n before).2
  := by
  by_cases hpolicy : c.HeedsPolicy kind
  · have heeds (policy : ZeroDatePolicy) : (c.withZeroDates policy).HeedsPolicy kind := hpolicy
    cases p with
    | text =>
      rw [readKind_text_eq (heeds .literal), readKind_text_eq (heeds .reject), bind_lift_apply,
        bind_lift_apply]
      refine ⟨?_, rfl⟩
      apply (PartAtZeroDate.bind (outcomeOfText_partAtZeroDate c kind) _).congr
      intro s
      constructor
      · rintro ⟨-, hread, hzero⟩
        exact ⟨s, hread, List.isPrefixOf_iff_prefix.mpr hzero, rfl⟩
      · rintro ⟨_, hread, hzero, rfl⟩
        exact .text hpolicy hread (List.isPrefixOf_iff_prefix.mp hzero)
    | binary =>
      rw [readKind_binary_eq (heeds .literal), readKind_binary_eq (heeds .reject), bind_lift_apply,
        bind_lift_apply]
      refine ⟨?_, rfl⟩
      apply (PartAtZeroDate.bind (outcomeOfParts_partAtZeroDate c kind n) _).congr
      intro s
      constructor
      · intro h
        cases h with
        | binary _ hread hlength hzero =>
          exact ⟨_, hread, ⟨hlength, DateTimeField.isZeroDate_iff.mpr hzero⟩, rfl⟩
      · rintro ⟨f, hread, hzero, rfl⟩
        exact .binary hpolicy hread hzero.1 (DateTimeField.isZeroDate_iff.mp hzero.2)
  · rw [readKind_withZeroDates_of_not _ _ _ hpolicy, readKind_withZeroDates_of_not _ _ _ hpolicy]
    refine ⟨.of_eq rfl ?_, rfl⟩
    exact fun s h => hpolicy h.heedsPolicy

/-- The policy for zero dates makes a difference for zero dates that are read as texts or as natural
values, and for nothing else: wherever a field of whatever kind is read, both policies leave the
same cursor, and a zero date alone has its text under the one and is malformed under the other; so
it is with whole fields. -/
theorem readKind_withZeroDates
    (c : Column) (p : Protocol) (kind : Option Target) :
  (∀ n before,
    let literal := (c.withZeroDates .literal).readKind p kind n before
    let reject := (c.withZeroDates .reject).readKind p kind n before
    PartAtZeroDate (c.ReadsZeroDate kind n before p) literal.1 reject.1 ∧
      literal.2 = reject.2) ∧
  ∀ field,
    PartAtZeroDate (c.ReadsZeroDate kind field.length (.ofBytes field) p)
      ((c.withZeroDates .literal).decodeKind p kind field)
      ((c.withZeroDates .reject).decodeKind p kind field)
  := by
  use readKind_partAtZeroDate c p kind
  intro field
  obtain ⟨part, -⟩ := readKind_partAtZeroDate c p kind field.length (.ofBytes field)
  cases kind with
  | none => exact part
  | some target =>
    have admits (policy : ZeroDatePolicy) :
        (c.withZeroDates policy).admits target = c.admits target := rfl
    simp only [decodeKind, decode, admits]
    by_cases hadmits : c.admits target = true
    · rw [if_pos hadmits, if_pos hadmits]
      exact part
    · rw [if_neg hadmits, if_neg hadmits]
      apply PartAtZeroDate.of_eq rfl
      exact fun s h => hadmits h.heedsPolicy.admits

/-- A zero date with a time of day, in a column that shows milliseconds: as a text it is a matter of
the policy, and as a date and time it is malformed anyway. -/
theorem readKind_withZeroDates_dateTime :
  let c := { ofNameAndType "t" .dateTime with decimals := 3 }
  let field : Bytes := [0, 0, 0, 0, 12, 34, 56]
  (c.ReadsZeroDate (some .text) field.length (.ofBytes field) .binary "0000-00-00 00:00:00" ∧
    (c.withZeroDates .literal).decodeKind .binary (some .text) field =
      .ok (.text "0000-00-00 00:00:00") ∧
    ∃ e, (c.withZeroDates .reject).decodeKind .binary (some .text) field = .error e ∧
      e.kind = .malformedLiteral) ∧
  (∀ s, ¬ c.ReadsZeroDate (some .dateTime) field.length (.ofBytes field) .binary s) ∧
  (c.withZeroDates .literal).decodeKind .binary (some .dateTime) field =
    (c.withZeroDates .reject).decodeKind .binary (some .dateTime) field
  := by
  intro c field
  have zero : c.ReadsZeroDate (some .text) field.length (.ofBytes field) .binary
      "0000-00-00 00:00:00" :=
    .binary ⟨rfl, .inr rfl⟩ rfl (by decide) ⟨rfl, rfl, rfl⟩
  have other (s : String) :
      ¬ c.ReadsZeroDate (some .dateTime) field.length (.ofBytes field) .binary s := by
    intro h
    cases h with
    | binary hpolicy => exact absurd hpolicy.2 (by decide)
  obtain ⟨-, whole⟩ := readKind_withZeroDates c .binary (some .text)
  obtain ⟨-, whole'⟩ := readKind_withZeroDates c .binary (some .dateTime)
  exact ⟨⟨zero, (whole field).zero _ zero⟩, other, (whole' field).other other⟩

end Column

end SqlWire
