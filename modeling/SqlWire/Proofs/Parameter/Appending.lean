import SqlWire.Parameter.Writing
import SqlWire.Proofs.Column.RoundTrip
import SqlWire.Proofs.Row.Splitting

/-!
# Parameters are appended whole

A writer may fail after it has written.  `Writer.Appends` says that it does not: it appends bytes
that do not depend on the buffer, or fails and leaves the buffer as it was.  What may fail in the
writers of parameters comes before anything is written, and so they append what `Value.textBytes`
and `Value.binaryBytes` give, which in binary form is one field of the type announced, and is read as
one: `Value.write_appends`.
-/

namespace SqlWire

/-- The bytes are one field of the type: as many as its width says, or, if it has none, any number
of bytes behind that number. -/
def WireType.IsField (t : WireType) (bs : Bytes) : Prop :=
  match t.binaryWidth with
  | some w => bs.length = w
  | none => ∃ content, bs = Layout.lengthEncoded content.length ++ content

/-- A field of a column's type is the form that some bytes have in a row. -/
theorem WireType.IsField.exists_binaryField
    {c : Column} {bs : Bytes} (h : c.type.IsField bs) :
  ∃ field, bs = Row.binaryField c field ∧ ∀ w ∈ c.type.binaryWidth, field.length = w
  := by
  rw [WireType.IsField] at h
  simp only [Row.binaryField]
  cases hwidth : c.type.binaryWidth with
  | some w =>
    rw [hwidth] at h
    use bs, rfl
    rintro _ ⟨⟩
    exact h
  | none =>
    rw [hwidth] at h
    obtain ⟨content, rfl⟩ := h
    use content, rfl
    rintro _ ⟨⟩

/-- The reading of a row's field takes a field of its column's type, and no more. -/
theorem WireType.IsField.reads
    {c : Column} {bs : Bytes} (h : c.type.IsField bs) (hlength : bs.length < 2 ^ 64) :
  ∃ field, bs = Row.binaryField c field ∧ (Row.readBinaryField c).Reads bs field
  := by
  obtain ⟨field, rfl, hwidth⟩ := h.exists_binaryField
  use field, rfl
  apply Row.reads_readBinaryField
  rintro _ ⟨⟩
  exact ⟨Nat.lt_of_le_of_lt (Row.length_le_binaryField c field) hlength, hwidth⟩

theorem exists_of_bind_eq_ok
    {α β : Type} {r : Except Error α} {next : α → Except Error β} {b : β}
    (h : r >>= next = .ok b) :
  ∃ a, r = .ok a ∧ next a = .ok b
  := by
  cases r with
  | ok a => exact ⟨a, rfl, h⟩
  | error e => cases h

namespace Writer

variable {α : Type} {w next : Writer Unit} {bs cs : Bytes}

/-- Whatever is in the buffer, the writer appends the bytes of the outcome, or fails with its
failure and leaves the buffer as it was. -/
def Appends (w : Writer Unit) (outcome : Except Error Bytes) : Prop :=
  ∀ out, w out = append out outcome

theorem appends_pure :
  (pure () : Writer Unit).Appends (.ok [])
  := by
  intro out
  rw [append, List.append_nil]
  rfl

theorem appends_put
    (bs : Bytes) :
  (put bs).Appends (.ok bs)
  := by
  intro out
  rfl

theorem appends_error
    (e : Error) :
  (lift (.error e)).Appends (.error e)
  := by
  intro out
  rfl

/-- One writer after another, both of which do not fail. -/
theorem Appends.bind
    (hw : w.Appends (.ok bs)) (hnext : next.Appends (.ok cs)) :
  (do w; next : Writer Unit).Appends (.ok (bs ++ cs))
  := by
  intro out
  change Writer.bind w (fun _ => next) out = _
  rw [Writer.bind, hw]
  change next (out ++ bs) = _
  rw [hnext, append, append, List.append_assoc]

/-- A writer after what may fail, before which nothing is written. -/
theorem appends_lift_bind
    {next : α → Writer Unit} {outcome : α → Except Error Bytes} (r : Except Error α)
    (hnext : ∀ a, (next a).Appends (outcome a)) :
  (do next (← lift r) : Writer Unit).Appends (r >>= outcome)
  := by
  cases r with
  | ok a => exact hnext a
  | error e => exact fun out => rfl

/-- Bytes that may not be there. -/
theorem appends_lift_put
    (outcome : Except Error Bytes) :
  (do put (← lift outcome) : Writer Unit).Appends outcome
  := by
  cases outcome with
  | ok bs => exact appends_put bs
  | error e => exact fun out => rfl

end Writer

namespace Value

open Writer

/-! ### Literals -/

theorem appends_writeQuoted
    (mode : Quoted.Escaping) (content : Bytes) :
  (writeQuoted mode content).Appends (.ok (Quoted.literal mode content))
  :=
  (appends_put _).bind ((appends_put _).bind (appends_put _))

theorem appends_writeByteString
    (mode : Quoted.Escaping) (content : Bytes) :
  (writeByteString mode content).Appends (.ok (plain "_binary " ++ Quoted.literal mode content))
  := by
  have introducer : plain "_binary '" = plain "_binary " ++ [Quoted.quote] := by decide +kernel
  have written : (writeByteString mode content).Appends
      (.ok (plain "_binary '" ++ (Quoted.escape mode content ++ [Quoted.quote]))) :=
    (appends_put _).bind ((appends_put _).bind (appends_put _))
  rw [introducer, List.append_assoc] at written
  exact written

theorem appends_writeTextAs
    (target : Target) (mode : Quoted.Escaping) (max : Option Nat) (v : Value) :
  (v.writeTextAs target mode max).Appends (v.textBytesAs target mode max)
  := by
  fun_cases textBytesAs target mode max v <;> simp only [writeTextAs]
  -- floating-point numbers, texts and times, byte strings, and what is not accepted
  case case7 | case8 => apply appends_lift_put
  case case10 | case12 | case13 | case14 => apply appends_writeQuoted
  case case11 => apply appends_writeByteString
  case case18 => apply appends_error
  all_goals apply appends_put

theorem appends_writeText
    (mode : Quoted.Escaping) (max : Option Nat) (v : Value) :
  (v.writeText mode max).Appends (v.textBytes mode max)
  :=
  appends_lift_bind v.writer fun target => appends_writeTextAs target mode max v

/-! ### Dates and times -/

theorem appends_writeDay
    (year : Nat) (d : Date) :
  (writeDay year d).Appends
    (.ok (Bytes.ofNatLE 2 year ++ [UInt8.ofNat d.month, UInt8.ofNat d.day]))
  :=
  (appends_put _).bind ((appends_put _).bind (appends_put _))

theorem appends_writeMicros
    (micros : Nat) :
  (writeMicros micros).Appends (.ok (microBytes micros))
  := by
  rw [writeMicros, microBytes]
  split
  · exact appends_pure
  · apply appends_put

/-- The number in front of a field whose microseconds are left out when they are zero. -/
theorem counted_append_microBytes
    (bs : Bytes) (micros : Nat) :
  counted (bs ++ microBytes micros) =
    (if micros = 0 then UInt8.ofNat bs.length else UInt8.ofNat (bs.length + 4)) ::
      (bs ++ microBytes micros)
  := by
  rw [counted, microBytes]
  split
  · rw [List.append_nil]
  · rw [List.length_append, Bytes.length_ofNatLE]

theorem dateBytes_eq
    (d : Date) :
  dateBytes d = binaryYear d >>= fun year =>
    .ok (Bytes.ofNatLE 2 year ++ [UInt8.ofNat d.month, UInt8.ofNat d.day])
  := by
  rw [dateBytes, binaryYear]
  split <;> rfl

theorem timeBytes_eq
    (d : Duration) :
  timeBytes d = binaryDays d >>= fun days =>
    .ok (counted ((if d.isNegative then 1 else 0) :: Bytes.ofNatLE 4 days
      ++ [UInt8.ofNat (d.seconds % 86400 / 3600), UInt8.ofNat (d.seconds % 3600 / 60),
        UInt8.ofNat (d.seconds % 60)]
      ++ microBytes d.micros))
  := by
  rw [timeBytes, binaryDays]
  split <;> rfl

theorem dateTimeBytes_eq
    (t : DateTime) :
  dateTimeBytes t = binaryYear t.date >>= fun year =>
    .ok (counted (Bytes.ofNatLE 2 year ++ [UInt8.ofNat t.date.month, UInt8.ofNat t.date.day]
      ++ [UInt8.ofNat t.time.hour, UInt8.ofNat t.time.minute, UInt8.ofNat t.time.second]
      ++ microBytes (t.time.nanosecond / 1000)))
  := by
  rw [dateTimeBytes, dateBytes_eq]
  cases binaryYear t.date <;> rfl

theorem appends_writeDate
    (d : Date) :
  (writeDate d).Appends (do return counted (← dateBytes d))
  := by
  have outcome : (do return counted (← dateBytes d)) = binaryYear d >>= fun year =>
      .ok (counted (Bytes.ofNatLE 2 year ++ [UInt8.ofNat d.month, UInt8.ofNat d.day])) := by
    rw [dateBytes_eq]
    cases binaryYear d <;> rfl
  rw [outcome]
  apply appends_lift_bind
  intro year
  exact (appends_put [4]).bind (appends_writeDay year d)

theorem appends_writeTime
    (d : Duration) :
  (writeTime d).Appends (timeBytes d)
  := by
  rw [timeBytes_eq]
  apply appends_lift_bind
  intro days
  rw [counted_append_microBytes]
  exact (appends_put _).bind ((appends_put _).bind ((appends_put _).bind ((appends_put _).bind
    ((appends_put _).bind ((appends_put _).bind (appends_writeMicros _))))))

theorem appends_writeDateTime
    (t : DateTime) :
  (writeDateTime t).Appends (dateTimeBytes t)
  := by
  rw [dateTimeBytes_eq]
  apply appends_lift_bind
  intro year
  rw [counted_append_microBytes]
  exact (appends_put _).bind ((appends_writeDay year t.date).bind ((appends_put _).bind
    ((appends_put _).bind ((appends_put _).bind (appends_writeMicros _)))))

/-! ### Binary fields -/

theorem appends_writeCounted
    (bs : Bytes) :
  (writeCounted bs).Appends (.ok (Layout.lengthEncodedBytes bs))
  :=
  (appends_put _).bind (appends_put _)

theorem appends_writePoint
    (p : Point) :
  (writePoint p).Appends (.ok (geometryBytes (.point p)))
  := by
  exact (appends_put _).bind ((appends_put _).bind ((appends_put _).bind ((appends_put _).bind
    (appends_put _))))

theorem geometryBytes_eq
    (g : Geometry) :
  geometryBytes g =
    Layout.lengthEncoded (4 + g.toBinary.length) ++ (Bytes.ofNatLE 4 0 ++ g.toBinary)
  := by
  rw [geometryBytes, Layout.lengthEncodedBytes, List.length_append]
  rfl

theorem appends_writeGeometry
    (g : Geometry) :
  (writeGeometry g).Appends (.ok (geometryBytes g))
  := by
  rw [geometryBytes_eq]
  exact (appends_put _).bind ((appends_put _).bind (appends_put _))

theorem appends_writeBinaryAs
    (target : Target) (max : Option Nat) (v : Value) :
  (v.writeBinaryAs target max).Appends (v.binaryBytesAs target max)
  := by
  fun_cases binaryBytesAs target max v <;> simp only [writeBinaryAs]
  -- decimals, texts and byte strings, then dates and times, geometries, and what is not accepted
  case case9 | case10 | case11 => apply appends_writeCounted
  case case12 => apply appends_writeDate
  case case13 => apply appends_writeTime
  case case14 => apply appends_writeDateTime
  case case15 | case16 => apply appends_writePoint
  case case17 => apply appends_writeGeometry
  case case18 => apply appends_error
  all_goals apply appends_put

/-- With the field the type of its kind is announced. -/
theorem writeBinary_apply
    (max : Option Nat) (v : Value) (out : Bytes) :
  v.writeBinary max out =
    match v.binaryBytes max with
    | .ok (t, bs) => (.ok t, out ++ bs)
    | .error e => (.error e, out)
  := by
  cases hwriter : v.writer with
  | error e =>
    rw [writeBinary, binaryBytes, hwriter]
    rfl
  | ok target =>
    rw [writeBinary, binaryBytes, hwriter]
    change Writer.bind (v.writeBinaryAs target max) (fun _ => pure target.wireType) out =
      match (do return (target.wireType, ← v.binaryBytesAs target max)) with
      | .ok (t, bs) => (.ok t, out ++ bs)
      | .error e => (.error e, out)
    rw [Writer.bind, appends_writeBinaryAs]
    cases v.binaryBytesAs target max <;> rfl

/-! ### Fields of the types announced -/

section IsField

variable {t : WireType} {bs : Bytes}

theorem isField_lengthEncodedBytes
    (ht : t.binaryWidth = none) (content : Bytes) :
  t.IsField (Layout.lengthEncodedBytes content)
  := by
  rw [WireType.IsField, ht]
  exact ⟨content, rfl⟩

theorem isField_counted
    (ht : t.binaryWidth = none) (hlength : bs.length < 0xFB) :
  t.IsField (counted bs)
  := by
  rw [Column.counted_eq_lengthEncodedBytes hlength]
  apply isField_lengthEncodedBytes ht

theorem isField_dateBytes
    {d : Date} (h : (do return counted (← dateBytes d)) = .ok bs) :
  WireType.date.IsField bs
  := by
  rw [dateBytes_eq] at h
  obtain ⟨_, hdate, ⟨⟩⟩ := exists_of_bind_eq_ok h
  obtain ⟨year, -, ⟨⟩⟩ := exists_of_bind_eq_ok hdate
  apply isField_counted rfl
  simp only [List.length_append, List.length_cons, List.length_nil, Bytes.length_ofNatLE]
  omega

theorem isField_timeBytes
    {d : Duration} (h : timeBytes d = .ok bs) :
  WireType.time.IsField bs
  := by
  rw [timeBytes_eq] at h
  obtain ⟨days, -, ⟨⟩⟩ := exists_of_bind_eq_ok h
  have hmicros := length_microBytes_le d.micros
  apply isField_counted rfl
  simp only [List.length_append, List.length_cons, List.length_nil, Bytes.length_ofNatLE]
  omega

theorem isField_dateTimeBytes
    {t : DateTime} (h : dateTimeBytes t = .ok bs) :
  WireType.dateTime.IsField bs
  := by
  rw [dateTimeBytes_eq] at h
  obtain ⟨year, -, ⟨⟩⟩ := exists_of_bind_eq_ok h
  have hmicros := length_microBytes_le (t.time.nanosecond / 1000)
  apply isField_counted rfl
  simp only [List.length_append, List.length_cons, List.length_nil, Bytes.length_ofNatLE]
  omega

theorem isField_binaryBytesAs
    {target : Target} {max : Option Nat} {v : Value} (h : v.binaryBytesAs target max = .ok bs) :
  target.wireType.IsField bs
  := by
  revert h
  fun_cases binaryBytesAs target max v <;> intro h
  case case12 => exact isField_dateBytes h
  case case13 => exact isField_timeBytes h
  case case14 => exact isField_dateTimeBytes h
  case case18 => cases h
  all_goals obtain rfl := Except.ok.inj h
  case case2 | case3 | case4 | case5 => apply Bytes.length_ofIntLE
  case case6 | case7 | case8 => apply Bytes.length_ofNatLE
  case case1 => rfl
  all_goals apply isField_lengthEncodedBytes rfl

theorem isField_binaryBytes
    {max : Option Nat} {v : Value} (h : v.binaryBytes max = .ok (t, bs)) :
  t.IsField bs
  := by
  obtain ⟨target, -, hfield⟩ := exists_of_bind_eq_ok h
  obtain ⟨field, hfield, ⟨⟩⟩ := exists_of_bind_eq_ok hfield
  exact isField_binaryBytesAs hfield

end IsField

/-- Every value, given to the writer that accepts it or to that of any kind, and of any number of
characters or bytes kept, is appended whole to whatever is in the buffer, or fails and leaves the
buffer as it was.  What is appended in binary form is one field of the type that is announced: the
reading of a row's field of that type takes all of it, and no more, if its length has eight bytes. -/
theorem write_appends
    (v : Value) (max : Option Nat) :
  (∀ mode, (v.writeText mode max).Appends (v.textBytes mode max) ∧
    ∀ target, (v.writeTextAs target mode max).Appends (v.textBytesAs target mode max)) ∧
  (∀ out, v.writeBinary max out =
    match v.binaryBytes max with
    | .ok (t, bs) => (.ok t, out ++ bs)
    | .error e => (.error e, out)) ∧
  (∀ t bs, v.binaryBytes max = .ok (t, bs) → t.IsField bs) ∧
  (∀ target, (v.writeBinaryAs target max).Appends (v.binaryBytesAs target max) ∧
    ∀ bs, v.binaryBytesAs target max = .ok bs → target.wireType.IsField bs) ∧
  ∀ (c : Column) (bs : Bytes), bs.length < 2 ^ 64 →
    (v.binaryBytes max = .ok (c.type, bs) ∨
      ∃ target, target.wireType = c.type ∧ v.binaryBytesAs target max = .ok bs) →
    ∃ field, bs = Row.binaryField c field ∧ (Row.readBinaryField c).Reads bs field
  := by
  refine ⟨?_, ?_, ?_, ?_, ?_⟩
  · intro mode
    exact ⟨appends_writeText mode max v, fun target => appends_writeTextAs target mode max v⟩
  · exact writeBinary_apply max v
  · exact fun t bs => isField_binaryBytes
  · intro target
    exact ⟨appends_writeBinaryAs target max v, fun bs => isField_binaryBytesAs⟩
  · intro c bs hlength hbytes
    apply WireType.IsField.reads _ hlength
    rcases hbytes with hbytes | ⟨target, htype, hbytes⟩
    · apply isField_binaryBytes hbytes
    · rw [← htype]
      apply isField_binaryBytesAs hbytes

/-- A date behind another byte, and one whose year does not fit into its field. -/
theorem write_appends_date :
  let d : Date := ⟨2024, 10, 21, by decide⟩
  let far : Date := ⟨70000, 1, 1, by decide⟩
  ((date d).binaryBytes none = .ok (.date, [4, 0xE8, 7, 10, 21]) ∧
    WireType.date.IsField [4, 0xE8, 7, 10, 21] ∧
    (date d).writeBinary none [0x2A] = (.ok .date, [0x2A, 4, 0xE8, 7, 10, 21]) ∧
    ∃ field, (Row.readBinaryField (Column.ofNameAndType "d" .date)).Reads [4, 0xE8, 7, 10, 21] field) ∧
  (date far).writeBinary none [0x2A] = (.error (.overflow far.toText Target.date.name), [0x2A])
  := by
  intro d far
  have field : (date d).binaryBytes none = .ok (.date, [4, 0xE8, 7, 10, 21]) := by
    decide +kernel
  obtain ⟨-, written, isField, -, reads⟩ := write_appends (date d) none
  obtain ⟨-, written', -⟩ := write_appends (date far) none
  obtain ⟨content, -, read⟩ := reads (Column.ofNameAndType "d" .date) _ (by decide) (.inl field)
  refine ⟨⟨field, isField _ _ field, ?_, content, read⟩, ?_⟩
  · rw [written, field]
    rfl
  · rw [written']
    rfl

end Value

end SqlWire
