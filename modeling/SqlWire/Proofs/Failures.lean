import SqlWire.Column.Field

/-!
# Which failures there can be

`FailsWith P` says of an outcome, and `Reader.FailsWith P` of a reader, that `P` holds of every
failure that it can have.  Both compose along the steps that are taken one after another.  What a
text or the parts of a field denote can only be missing or not fit: `Error.IsOfValue`.
-/

namespace SqlWire

variable {α β : Type} {P Q : Error → Prop}

/-! ### Outcomes -/

/-- The failure of an outcome, if it is one, is such as `P` says. -/
def FailsWith (P : Error → Prop) (outcome : Except Error α) : Prop :=
  ∀ e, outcome = .error e → P e

theorem failsWith_ok
    (a : α) :
  FailsWith P (.ok a)
  := by
  intro e h
  cases h

theorem failsWith_error
    {e : Error} (h : P e) :
  FailsWith P (.error e : Except Error α)
  := by
  rintro _ ⟨⟩
  apply h

theorem FailsWith.mono
    {outcome : Except Error α} (h : FailsWith P outcome) (hPQ : ∀ e, P e → Q e) :
  FailsWith Q outcome
  := by
  intro e he
  apply hPQ e (h e he)

theorem FailsWith.bind
    {outcome : Except Error α} {next : α → Except Error β} (h : FailsWith P outcome)
    (hnext : ∀ a, FailsWith P (next a)) :
  FailsWith P (outcome >>= next)
  := by
  cases outcome with
  | ok a => apply hnext a
  | error e => apply failsWith_error (h e rfl)

/-! ### Readers -/

namespace Reader

/-- The failures of a reader, at whatever cursor, are such as `P` says. -/
def FailsWith (P : Error → Prop) (r : Reader α) : Prop :=
  ∀ c, SqlWire.FailsWith P (r c).1

theorem failsWith_lift
    {outcome : Except Error α} (h : SqlWire.FailsWith P outcome) :
  (Reader.lift outcome).FailsWith P
  := by
  intro c
  apply h

theorem failsWith_pure
    (a : α) :
  (pure a : Reader α).FailsWith P
  :=
  failsWith_lift (failsWith_ok a)

theorem failsWith_fail
    {e : Error} (h : P e) :
  (fail e : Reader α).FailsWith P
  :=
  failsWith_lift (failsWith_error h)

theorem FailsWith.bind
    {r : Reader α} {next : α → Reader β} (hr : r.FailsWith P)
    (hnext : ∀ a, (next a).FailsWith P) :
  (r >>= next).FailsWith P
  := by
  intro c
  have first := hr c
  change SqlWire.FailsWith P (Reader.bind r next c).1
  rw [Reader.bind]
  split
  next a c' h => apply hnext a c'
  next e c' h =>
    rw [h] at first
    exact failsWith_error (first e rfl)

/-- A value that is made of the one read. -/
theorem FailsWith.map
    {r : Reader α} (f : α → β) (hr : r.FailsWith P) :
  (r >>= fun a => pure (f a)).FailsWith P
  :=
  hr.bind fun a => failsWith_pure (f a)

/-- An outcome that is made of the value read. -/
theorem FailsWith.lift
    {r : Reader α} {next : α → Except Error β} (hr : r.FailsWith P)
    (hnext : ∀ a, SqlWire.FailsWith P (next a)) :
  (r >>= fun a => Reader.lift (next a)).FailsWith P
  :=
  hr.bind fun a => failsWith_lift (hnext a)

section Bytes

variable (h : ∀ needed available, P (.shortBuffer needed available))

include h

theorem failsWith_bytes
    (n : Nat) :
  (bytes n).FailsWith P
  := by
  intro c
  rw [bytes]
  split
  · apply failsWith_ok
  · exact failsWith_error (h _ _)

theorem failsWith_skip
    (n : Nat) :
  (skip n).FailsWith P
  := by
  intro c
  rw [skip]
  split
  · apply failsWith_ok
  · exact failsWith_error (h _ _)

theorem failsWith_byte :
  byte.FailsWith P
  := by
  intro c
  rw [byte]
  split
  · apply failsWith_ok
  · exact failsWith_error (h _ _)

theorem failsWith_uint
    (w : Nat) :
  (uint w).FailsWith P
  :=
  (failsWith_bytes h w).map Bytes.littleEndian

theorem failsWith_sint
    (w : Nat) :
  (sint w).FailsWith P
  :=
  (failsWith_uint h w).map (Bytes.signed w)

theorem failsWith_double :
  double.FailsWith P
  :=
  (failsWith_uint h 8).map Double.ofBits

theorem failsWith_single :
  single.FailsWith P
  :=
  (failsWith_uint h 4).map Single.ofBits

theorem failsWith_text
    (n : Nat) :
  (text n).FailsWith P
  :=
  (failsWith_bytes h n).map Utf8.decode

end Bytes

end Reader

/-! ### Values -/

/-- The failure is that of a value: there is none, or it does not fit. -/
def Error.IsOfValue (e : Error) : Prop :=
  e.kind = .malformedLiteral ∨ e.kind = .overflow

theorem failsWith_malformed
    (value target : String) :
  FailsWith Error.IsOfValue (.error (.malformed value target) : Except Error α)
  :=
  failsWith_error (.inl rfl)

theorem failsWith_overflow
    (value target : String) :
  FailsWith Error.IsOfValue (.error (.overflow value target) : Except Error α)
  :=
  failsWith_error (.inr rfl)

namespace Number

theorem failsWith_readDecimal
    (s target : String) :
  FailsWith Error.IsOfValue (readDecimal s target)
  := by
  rw [readDecimal]
  split
  · apply failsWith_malformed
  split
  · apply failsWith_overflow
  · apply failsWith_ok

theorem failsWith_readInteger
    (s target : String) :
  FailsWith Error.IsOfValue (readInteger s target)
  :=
  (failsWith_readDecimal s target).bind fun d => failsWith_ok d.truncate

theorem failsWith_readDouble
    (s target : String) :
  FailsWith Error.IsOfValue (readDouble s target)
  := by
  rw [readDouble]
  split
  · apply failsWith_malformed
  · apply failsWith_ok

theorem failsWith_narrow
    (least greatest i : Int) (target : String) :
  FailsWith Error.IsOfValue (narrow least greatest i target)
  := by
  rw [narrow]
  split
  · apply failsWith_ok
  · apply failsWith_overflow

theorem failsWith_truncate
    (x : Double) (target : String) :
  FailsWith Error.IsOfValue (truncate x target)
  := by
  rw [truncate]
  split
  · split
    · apply failsWith_overflow
    · apply failsWith_ok
  · apply failsWith_overflow

end Number

namespace Column

theorem failsWith_decimalOr
    (d : Option Decimal) (text : String) :
  FailsWith Error.IsOfValue (decimalOr d text)
  := by
  cases d with
  | none => apply failsWith_overflow
  | some d => apply failsWith_ok

theorem failsWith_denoted
    (f : DateTimeField) (a : Option α) (target : String) :
  FailsWith Error.IsOfValue (denoted f a target)
  := by
  cases a with
  | none => apply failsWith_malformed
  | some a => apply failsWith_ok

end Column

namespace DateTimeField

theorem failsWith_zeroText
    (f : DateTimeField) (literal : String) (policy : ZeroDatePolicy) :
  FailsWith (·.kind = .malformedLiteral) (f.zeroText literal policy)
  := by
  cases policy with
  | literal => apply failsWith_ok
  | reject => exact failsWith_error rfl

theorem failsWith_dateText
    (f : DateTimeField) (n : Nat) (policy : ZeroDatePolicy) :
  FailsWith Error.IsOfValue (f.dateText n policy)
  := by
  rw [dateText]
  split
  · apply failsWith_ok
  split
  · exact (failsWith_zeroText _ _ _).mono fun _ => .inl
  split
  · apply failsWith_ok
  · apply failsWith_malformed

theorem failsWith_dateTimeText
    (f : DateTimeField) (n scale : Nat) (policy : ZeroDatePolicy) :
  FailsWith Error.IsOfValue (f.dateTimeText n scale policy)
  := by
  rw [dateTimeText]
  split
  · apply failsWith_ok
  split
  · exact (failsWith_zeroText _ _ _).mono fun _ => .inl
  split
  · apply failsWith_ok
  · apply failsWith_malformed

end DateTimeField

section Fields

variable (h : ∀ needed available, P (.shortBuffer needed available))

include h

theorem DateTimeField.failsWith_read
    (n : Nat) :
  (DateTimeField.read n).FailsWith P
  := by
  have byte : Reader.byte.FailsWith P := Reader.failsWith_byte h
  rw [read]
  split
  · apply Reader.failsWith_pure
  refine (Reader.failsWith_uint h 2).bind fun _ => byte.bind fun _ => byte.bind fun _ => ?_
  split
  · apply Reader.failsWith_pure
  refine byte.bind fun _ => byte.bind fun _ => byte.bind fun _ => ?_
  split
  · apply Reader.failsWith_pure
  · exact (Reader.failsWith_uint h 4).bind fun _ => Reader.failsWith_pure _

theorem TimeField.failsWith_read
    (n : Nat) :
  (TimeField.read n).FailsWith P
  := by
  have byte : Reader.byte.FailsWith P := Reader.failsWith_byte h
  rw [read]
  split
  · apply Reader.failsWith_pure
  refine byte.bind fun _ => ?_
  split
  · apply Reader.failsWith_pure
  refine (Reader.failsWith_uint h 4).bind fun _ => ?_
  split
  · apply Reader.failsWith_pure
  refine byte.bind fun _ => byte.bind fun _ => byte.bind fun _ => ?_
  split
  · apply Reader.failsWith_pure
  · exact (Reader.failsWith_uint h 4).bind fun _ => Reader.failsWith_pure _

end Fields

namespace Temporal

theorem failsWith_readDate
    (s target : String) :
  FailsWith Error.IsOfValue (readDate s target)
  := by
  rw [readDate]
  split
  · apply failsWith_ok
  · apply failsWith_malformed

theorem failsWith_readDateTime
    (s target : String) :
  FailsWith Error.IsOfValue (readDateTime s target)
  := by
  rw [readDateTime]
  split
  · exact (failsWith_readDate s target).bind fun d => failsWith_ok _
  split
  · apply failsWith_ok
  · apply failsWith_malformed

theorem failsWith_readDuration
    (s target : String) :
  FailsWith Error.IsOfValue (readDuration s target)
  := by
  rw [readDuration]
  split
  split
  · apply failsWith_malformed
  dsimp only
  split
  · apply failsWith_overflow
  · apply failsWith_ok

end Temporal

end SqlWire
