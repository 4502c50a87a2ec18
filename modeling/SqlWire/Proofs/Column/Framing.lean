import SqlWire.Proofs.Calendar.Reach
import SqlWire.Proofs.Failures
import SqlWire.Proofs.Framing
import SqlWire.Proofs.Geometry.Recognition

/-!
# Fields are read alike in any surroundings

A field whose length suits its column, `Column.HasLength`, is read as any kind of value in any
surroundings as it is read alone, with the cursor behind it in the end, whether it has a value or
not: `Column.readKind_framed`.  Every reader of a column covers its field, and no reader fails
before it has moved over all of it.  Geometries are the exception: where a geometry ends is said by
its own bytes, so a field that is too short for it fails, but not in the same way everywhere.
-/

namespace SqlWire

/-- A failure of a value is not for want of bytes. -/
theorem FailsWith.neverShort
    {α : Type} {outcome : Except Error α} (h : FailsWith Error.IsOfValue outcome) :
  NeverShort outcome
  := by
  intro e he
  have ofValue := h e he
  cases e with
  | shortBuffer needed available => rcases ofValue with hkind | hkind <;> cases hkind
  | _ => rfl

namespace Reader

theorem covers_value
    {α : Type} {outcome : Except Error α} (h : SqlWire.FailsWith Error.IsOfValue outcome) :
  (Reader.lift outcome).Covers 0
  :=
  covers_lift h.neverShort

/-- A value that is made of the one read, if there is one that fits. -/
theorem Covers.value
    {α β : Type} {r : Reader α} {next : α → Except Error β} {n : Nat} (hr : r.Covers n)
    (hnext : ∀ a, SqlWire.FailsWith Error.IsOfValue (next a)) :
  (r >>= fun a => Reader.lift (next a)).Covers n
  :=
  hr.lift fun a => (hnext a).neverShort

end Reader

namespace Column

open Reader

/-! ### Lengths of fields -/

/-- A field of the column can have the length: any in text form, and in binary form the width of its
type, if it has one, or one of those of its layout. -/
def HasLength (c : Column) (p : Protocol) (n : Nat) : Prop :=
  p = .binary →
    match c.type with
    | .time => n = 0 ∨ n = 8 ∨ n = 12
    | .date | .newDate | .dateTime | .timestamp => n = 0 ∨ n = 4 ∨ n = 7 ∨ n = 11
    | type => ∀ w ∈ type.binaryWidth, n = w

theorem HasLength.eq_width
    {c : Column} {n w : Nat} (h : c.HasLength .binary n) (hw : c.type.binaryWidth = some w) :
  n = w
  := by
  have hlength := h rfl
  split at hlength
  all_goals simp_all [WireType.binaryWidth]

theorem HasLength.of_type_eq_time
    {c : Column} {n : Nat} (h : c.HasLength .binary n) (htype : c.type = .time) :
  n = 0 ∨ n = 8 ∨ n = 12
  := by
  have hlength := h rfl
  rw [htype] at hlength
  apply hlength

theorem HasLength.of_isCalendar
    {c : Column} {n : Nat} (h : c.HasLength .binary n) (hcalendar : c.type.isCalendar) :
  n = 0 ∨ n = 4 ∨ n = 7 ∨ n = 11
  := by
  have hlength := h rfl
  split at hlength
  all_goals simp_all [WireType.isCalendar]

/-! ### Families -/

/-- The types of the families whose fields have layouts of their own. -/
theorem type_of_family
    (c : Column) :
  match c.family with
  | .float => c.type = .float ∨ c.type = .double
  | .calendar => c.type.isCalendar
  | .time => c.type = .time
  | _ => True
  := by
  cases htype : c.type <;> cases hbinary : c.isBinary <;>
    simp [family, htype, hbinary, WireType.isCalendar]

theorem covers_mismatch
    {α : Type} (c : Column) (n : Nat) (target : String) :
  (c.mismatch n target : Reader α).Covers n
  :=
  (gives_skipAtMost n).covers.bind fun _ => covers_fail rfl

/-! ### Integers -/

theorem covers_readIntegerText
    (c : Column) (n : Nat) (target : String) :
  (c.readIntegerText n target).Covers n
  := by
  rw [readIntegerText]
  cases c.family with
  | integer | float | decimal | text =>
    exact (gives_text n).covers.value fun s => Number.failsWith_readInteger s target
  | bit => exact ((gives_bytes n).map fun bs => ((BitField.value bs).toNat : Int)).covers
  | bytes | calendar | time | geometry | null => apply covers_mismatch

theorem gives_readFixed
    (c : Column) (w : Nat) :
  (c.readFixed w).Gives w
  := by
  rw [readFixed]
  split
  · apply gives_sint
  · exact (gives_uint w).map Int.ofNat

theorem covers_readIntegerBinary
    {c : Column} {n : Nat} (target : String) (h : c.HasLength .binary n) :
  (c.readIntegerBinary n target).Covers n
  := by
  have width {w : Nat} (hw : c.type.binaryWidth = some w) : n = w := h.eq_width hw
  rw [readIntegerBinary]
  cases htype : c.type with
  | tiny =>
    obtain rfl := width (by rw [htype]; rfl)
    exact (c.gives_readFixed 1).covers
  | short =>
    obtain rfl := width (by rw [htype]; rfl)
    exact (c.gives_readFixed 2).covers
  | year =>
    obtain rfl := width (by rw [htype]; rfl)
    exact ((gives_uint 2).map Int.ofNat).covers
  | int24 =>
    obtain rfl := width (by rw [htype]; rfl)
    exact ((c.gives_readFixed 3).bind fun i => (gives_skip 1).map fun _ => i).covers
  | long =>
    obtain rfl := width (by rw [htype]; rfl)
    exact (c.gives_readFixed 4).covers
  | longLong =>
    obtain rfl := width (by rw [htype]; rfl)
    exact (c.gives_readFixed 8).covers
  | float =>
    obtain rfl := width (by rw [htype]; rfl)
    exact gives_single.covers.value fun x => Number.failsWith_truncate x.toDouble target
  | double =>
    obtain rfl := width (by rw [htype]; rfl)
    exact gives_double.covers.value fun x => Number.failsWith_truncate x target
  | _ => apply covers_readIntegerText

theorem covers_readInteger
    {c : Column} {p : Protocol} {n : Nat} (target : String) (h : c.HasLength p n) :
  (c.readInteger p n target).Covers n
  := by
  cases p with
  | text => apply covers_readIntegerText
  | binary => apply covers_readIntegerBinary target h

theorem covers_readNarrow
    {c : Column} {p : Protocol} {n : Nat} (least greatest : Int) (target : Target)
    (h : c.HasLength p n) :
  (c.readNarrow p n least greatest target).Covers n
  :=
  (covers_readInteger target.name h).value fun i =>
    Number.failsWith_narrow least greatest i target.name

theorem covers_readBitByte
    (n : Nat) :
  (readBitByte n).Covers n
  := by
  cases n with
  | zero => exact covers_fail rfl
  | succ n =>
    rw [readBitByte, if_neg n.succ_ne_zero, Nat.add_sub_cancel, Nat.add_comm]
    exact ((gives_sint 1).bind fun i => (gives_skip n).map fun _ => i).covers

theorem covers_readInt8
    {c : Column} {p : Protocol} {n : Nat} (h : c.HasLength p n) :
  (c.readInt8 p n).Covers n
  := by
  rw [readInt8]
  split
  · apply covers_readBitByte
  · apply covers_readNarrow _ _ _ h

/-! ### Other numbers, and truth values -/

/-- A floating-point number in the form of its type. -/
theorem covers_readDouble_float
    {c : Column} {n : Nat} (h : c.HasLength .binary n) (hfamily : c.family = .float) :
  (c.readDouble .binary n).Covers n
  := by
  have htype := c.type_of_family
  simp only [hfamily] at htype
  simp only [readDouble, hfamily]
  rcases htype with htype | htype
  · obtain rfl := h.eq_width (by rw [htype]; rfl)
    simp only [htype]
    exact (gives_single.map Single.toDouble).covers
  · obtain rfl := h.eq_width (by rw [htype]; rfl)
    simp only [htype]
    exact gives_double.covers

theorem covers_readDouble
    {c : Column} {p : Protocol} {n : Nat} (h : c.HasLength p n) :
  (c.readDouble p n).Covers n
  := by
  have text : (do
      let s ← Reader.text n
      Reader.lift (Number.readDouble s Target.float64.name)).Covers n :=
    (gives_text n).covers.value fun s => Number.failsWith_readDouble s _
  cases hfamily : c.family with
  | integer =>
    simp only [readDouble, hfamily]
    cases p with
    | text => exact text
    | binary => exact (covers_readIntegerBinary _ h).map Double.ofInt
  | float =>
    cases p with
    | text =>
      simp only [readDouble, hfamily]
      exact text
    | binary => apply covers_readDouble_float h hfamily
  | decimal | text =>
    simp only [readDouble, hfamily]
    exact text
  | bit =>
    simp only [readDouble, hfamily]
    exact ((gives_bytes n).map fun bs => Double.ofInt (BitField.value bs).toNat).covers
  | bytes | calendar | time | geometry | null =>
    simp only [readDouble, hfamily]
    apply covers_mismatch

theorem covers_readSingle
    {c : Column} {p : Protocol} {n : Nat} (h : c.HasLength p n) :
  (c.readSingle p n).Covers n
  := by
  rw [readSingle]
  split
  next hfloat =>
    obtain ⟨htype, rfl⟩ := hfloat
    obtain rfl := h.eq_width (by rw [htype]; rfl)
    exact gives_single.covers
  next =>
    cases c.family with
    | bytes | calendar | time | geometry | null => apply covers_mismatch
    | _ => exact (covers_readDouble h).map Double.toSingle

theorem covers_readDecimal
    {c : Column} {p : Protocol} {n : Nat} (h : c.HasLength p n) :
  (c.readDecimal p n).Covers n
  := by
  have text : (do
      let s ← Reader.text n
      Reader.lift (Number.readDecimal s Target.decimal.name)).Covers n :=
    (gives_text n).covers.value fun s => Number.failsWith_readDecimal s _
  unfold readDecimal
  cases c.family with
  | integer =>
    cases p with
    | text => exact text
    | binary => exact (covers_readIntegerBinary _ h).value fun i => failsWith_decimalOr _ _
  | float =>
    cases p with
    | text => exact text
    | binary => exact (covers_readDouble h).value fun x => failsWith_decimalOr _ _
  | decimal | text => exact text
  | bit => exact ((gives_bytes n).map fun bs => Decimal.ofUInt64 (BitField.value bs)).covers
  | bytes | calendar | time | geometry | null => apply covers_mismatch

theorem covers_readBool
    {c : Column} {p : Protocol} {n : Nat} (h : c.HasLength p n) :
  (c.readBool p n).Covers n
  := by
  have number : (do
      let s ← Reader.text n
      let d ← Reader.lift (Number.readDecimal s Target.bool.name)
      return !d.isZero).Covers n :=
    (gives_text n).covers.bind fun s =>
      (covers_value (Number.failsWith_readDecimal s _)).map fun d => !d.isZero
  unfold readBool
  cases c.family with
  | text => exact ((gives_text n).map (· != "0")).covers
  | bit => exact ((gives_bytes n).map fun bs => BitField.value bs != 0).covers
  | integer => exact (covers_readInteger _ h).map (· != 0)
  | float =>
    cases p with
    | text => exact number
    | binary => exact (covers_readDouble h).map fun x => !x.datum.isZero
  | decimal => exact number
  | bytes | calendar | time | geometry | null => apply covers_mismatch

/-! ### Texts and bytes -/

theorem covers_readPlainText
    (c : Column) (n : Nat) :
  (c.readPlainText n).Covers n
  := by
  apply (gives_text n).covers.bind
  intro s
  split
  · exact covers_fail rfl
  · exact (gives_pure s).covers

theorem gives_readTimeField
    {n : Nat} (h : n = 0 ∨ n = 8 ∨ n = 12) :
  (TimeField.read n).Gives n
  := by
  have parts := (TimeField.spans_read n).gives
  rcases h with rfl | rfl | rfl <;> exact parts

theorem gives_readDateTimeField
    {n : Nat} (h : n = 0 ∨ n = 4 ∨ n = 7 ∨ n = 11) :
  (DateTimeField.read n).Gives n
  := by
  have parts := (DateTimeField.spans_read n).gives
  rcases h with rfl | rfl | rfl | rfl <;> exact parts

theorem covers_readBinaryText
    {c : Column} {n : Nat} (h : c.HasLength .binary n) :
  (c.readBinaryText n).Covers n
  := by
  have layout (htype : c.type.isCalendar) : (DateTimeField.read n).Covers n :=
    (gives_readDateTimeField (h.of_isCalendar htype)).covers
  rw [readBinaryText]
  cases htype : c.type with
  | year =>
    obtain rfl := h.eq_width (by rw [htype]; rfl)
    exact ((gives_uint 2).map (Digits.pad c.length.toNat)).covers
  | tiny | short | int24 | long | longLong => exact (covers_readIntegerBinary _ h).map toString
  | float =>
    obtain rfl := h.eq_width (by rw [htype]; rfl)
    exact (gives_single.map Single.toText).covers
  | double =>
    obtain rfl := h.eq_width (by rw [htype]; rfl)
    exact (gives_double.map Double.toText).covers
  | time =>
    have layout := gives_readTimeField (h.of_type_eq_time htype)
    exact (layout.map fun f => f.toText n c.decimals.toNat).covers
  | date | newDate =>
    exact (layout (by rw [htype]; rfl)).value fun f =>
      DateTimeField.failsWith_dateText f n c.zeroDates
  | dateTime | timestamp =>
    exact (layout (by rw [htype]; rfl)).value fun f =>
      DateTimeField.failsWith_dateTimeText f n c.decimals.toNat c.zeroDates
  | _ => exact (gives_text n).covers

theorem covers_readText
    {c : Column} {p : Protocol} {n : Nat} (h : c.HasLength p n) :
  (c.readText p n).Covers n
  := by
  unfold readText
  cases c.family with
  | bit => exact ((gives_bytes n).map BitField.literal).covers
  | geometry | null => apply covers_mismatch
  | _ =>
    cases p with
    | text => apply covers_readPlainText
    | binary => apply covers_readBinaryText h

theorem covers_readBytes
    (c : Column) (n : Nat) :
  (c.readBytes n).Covers n
  := by
  rw [readBytes]
  cases c.family with
  | bit | text | bytes | geometry => exact (gives_bytes n).covers
  | _ => apply covers_mismatch

/-! ### Dates and times -/

theorem covers_readCalendar
    {c : Column} {n : Nat} (target : String) (h : c.HasLength .binary n)
    (hcalendar : c.type.isCalendar) :
  (c.readCalendar n target).Covers n
  := by
  apply (gives_readDateTimeField (h.of_isCalendar hcalendar)).covers.bind
  intro f
  split
  · exact covers_fail rfl
  · exact (gives_pure f).covers

theorem covers_readDate
    {c : Column} {p : Protocol} {n : Nat} (h : c.HasLength p n) :
  (c.readDate p n).Covers n
  := by
  have hcalendar := c.type_of_family
  have text : (do
      let s ← Reader.text n
      Reader.lift (Temporal.readDate s Target.date.name)).Covers n :=
    (gives_text n).covers.value fun s => Temporal.failsWith_readDate s _
  unfold readDate
  cases hfamily : c.family with
  | calendar =>
    simp only [hfamily] at hcalendar
    cases p with
    | text => exact text
    | binary =>
      exact (covers_readCalendar _ h hcalendar).value fun f => failsWith_denoted f f.date? _
  | text => exact text
  | _ => apply covers_mismatch

theorem covers_readDateTime
    {c : Column} {p : Protocol} {n : Nat} (h : c.HasLength p n) :
  (c.readDateTime p n).Covers n
  := by
  have hcalendar := c.type_of_family
  have text : (do
      let s ← Reader.text n
      Reader.lift (Temporal.readDateTime s Target.dateTime.name)).Covers n :=
    (gives_text n).covers.value fun s => Temporal.failsWith_readDateTime s _
  unfold readDateTime
  cases hfamily : c.family with
  | calendar =>
    simp only [hfamily] at hcalendar
    cases p with
    | text => exact text
    | binary =>
      exact (covers_readCalendar _ h hcalendar).value fun f => failsWith_denoted f f.dateTime? _
  | text => exact text
  | _ => apply covers_mismatch

theorem covers_readTime
    {c : Column} {p : Protocol} {n : Nat} (h : c.HasLength p n) :
  (c.readTime p n).Covers n
  := by
  have htime := c.type_of_family
  have text : (do
      let s ← Reader.text n
      Reader.lift (Temporal.readDuration s Target.time.name)).Covers n :=
    (gives_text n).covers.value fun s => Temporal.failsWith_readDuration s _
  unfold readTime
  cases hfamily : c.family with
  | time =>
    simp only [hfamily] at htime
    cases p with
    | text => exact text
    | binary =>
      exact ((gives_readTimeField (h.of_type_eq_time htime)).map TimeField.toDuration).covers
  | text => exact text
  | _ => apply covers_mismatch

/-! ### Geometries -/

theorem covers_readGeometry
    {c : Column} (n : Nat) (htype : c.type ≠ .geometry) :
  (c.readGeometry n).Covers n
  := by
  rw [readGeometry]
  split
  · contradiction
  · apply covers_mismatch

theorem covers_readPoint
    {c : Column} (n : Nat) (htype : c.type ≠ .geometry) :
  (c.readPoint n).Covers n
  := by
  apply (covers_readGeometry n htype).bind
  intro g
  split
  · exact (gives_pure _).covers
  · exact covers_fail rfl

/-- A point is a geometry of its shape. -/
theorem recognises_readPoint
    {c : Column} {n : Nat} {G : Geometry → Bytes → Prop} (h : (c.readGeometry n).Recognises G) :
  (c.readPoint n).Recognises fun p bs => G (.point p) bs
  := by
  have steps : (c.readPoint n).Recognises fun p bs =>
      ∃ g cs ds, G g cs ∧ (g = .point p ∧ ds = []) ∧ bs = cs ++ ds := by
    apply h.bind
    intro g
    cases g with
    | point q =>
      apply (recognises_pure q).congr
      simp [eq_comm]
    | _ =>
      apply (recognises_fail _).congr
      simp
  apply steps.congr
  intro p bs
  constructor
  · rintro ⟨g, body, _, hg, ⟨rfl, rfl⟩, rfl⟩
    rw [List.append_nil]
    apply hg
  · intro hp
    exact ⟨.point p, bs, [], hp, ⟨rfl, rfl⟩, (List.append_nil bs).symm⟩

/-! ### Kinds -/

theorem covers_readAs
    {c : Column} {p : Protocol} {n : Nat} (target : Target) (h : c.HasLength p n)
    (hgeometry : c.type = .geometry → target ≠ .point ∧ target ≠ .geometry) :
  (c.readAs p target n).Covers n
  := by
  cases target with
  | bool => exact (covers_readBool h).map Value.bool
  | int8 => exact (covers_readInt8 h).map fun i => Value.int8 (.ofInt i)
  | int16 => exact (covers_readNarrow _ _ _ h).map fun i => Value.int16 (.ofInt i)
  | int32 => exact (covers_readNarrow _ _ _ h).map fun i => Value.int32 (.ofInt i)
  | int64 => exact (covers_readNarrow _ _ _ h).map fun i => Value.int64 (.ofInt i)
  | uint64 => exact (covers_readNarrow _ _ _ h).map fun i => Value.uint64 (.ofNat i.toNat)
  | float32 => exact (covers_readSingle h).map Value.float32
  | float64 => exact (covers_readDouble h).map Value.float64
  | decimal => exact (covers_readDecimal h).map Value.decimal
  | text => exact (covers_readText h).map Value.text
  | bytes => exact (c.covers_readBytes n).map Value.bytes
  | date => exact (covers_readDate h).map Value.date
  | time => exact (covers_readTime h).map Value.time
  | dateTime => exact (covers_readDateTime h).map Value.dateTime
  | point => exact (covers_readPoint n fun htype => (hgeometry htype).1 rfl).map Value.point
  | geometry =>
    exact (covers_readGeometry n fun htype => (hgeometry htype).2 rfl).map Value.geometry

theorem covers_readNaturalCalendarText
    (c : Column) (n : Nat) :
  (c.readNaturalCalendarText n).Covers n
  := by
  apply (gives_text n).covers.bind
  intro s
  split
  · cases c.zeroDates with
    | literal => exact (gives_pure _).covers
    | reject => exact covers_fail rfl
  split
  · exact (covers_value (Temporal.failsWith_readDate s _)).map Value.date
  · exact (covers_value (Temporal.failsWith_readDateTime s _)).map Value.dateTime

theorem covers_readNaturalCalendarBinary
    {c : Column} {n : Nat} (h : c.HasLength .binary n) (hcalendar : c.type.isCalendar) :
  (c.readNaturalCalendarBinary n).Covers n
  := by
  apply (gives_readDateTimeField (h.of_isCalendar hcalendar)).covers.bind
  intro f
  split
  · split
    · exact (covers_value (DateTimeField.failsWith_dateText f n _)).map Value.text
    · exact (covers_value (DateTimeField.failsWith_dateTimeText f n _ _)).map Value.text
  split
  · exact (covers_value (failsWith_denoted f f.date? _)).map Value.date
  · exact (covers_value (failsWith_denoted f f.dateTime? _)).map Value.dateTime

theorem covers_readNatural
    {c : Column} {p : Protocol} {n : Nat} (h : c.HasLength p n) (htype : c.type ≠ .geometry) :
  (c.readNatural p n).Covers n
  := by
  unfold readNatural
  split
  next hcalendar =>
    cases p with
    | text => apply covers_readNaturalCalendarText
    | binary => apply covers_readNaturalCalendarBinary h hcalendar
  next =>
    cases c.naturalTarget with
    | some target => exact covers_readAs target h fun hgeometry => absurd hgeometry htype
    | none => exact ((gives_skip n).map fun _ => Value.null).covers

/-- The value of a field as one of the given kind, or of the natural one when none is given. -/
def readKind (c : Column) (p : Protocol) (kind : Option Target) (length : Nat) : Reader Value :=
  match kind with
  | some target => c.readAs p target length
  | none => c.readNatural p length

/-- The field is read as well-known binary, which says itself where it ends. -/
def IsGeometryFor (c : Column) (kind : Option Target) : Prop :=
  c.type = .geometry ∧ (kind = none ∨ kind = some .point ∨ kind = some .geometry)

instance (c : Column) (kind : Option Target) : Decidable (c.IsGeometryFor kind) := by
  unfold IsGeometryFor
  infer_instance

theorem readNatural_of_type_eq_geometry
    {c : Column} (htype : c.type = .geometry) (p : Protocol) (n : Nat) :
  c.readNatural p n = c.readAs p .geometry n
  := by
  simp [readNatural, naturalTarget, htype, WireType.isCalendar]

/-- A geometry, or a point, alone in its field. -/
theorem looselyFramed_readKind
    {c : Column} {kind : Option Target} (p : Protocol) (field : Bytes) (h : c.IsGeometryFor kind) :
  (c.readKind p kind field.length).LooselyFramed field
  := by
  obtain ⟨htype, hkind⟩ := h
  have geometry : (c.readGeometry field.length).Recognises
      (Geometry.IsField field.length) := by
    simp only [readGeometry, htype]
    apply Geometry.recognises_readField
  have asGeometry : (c.readAs p .geometry field.length).LooselyFramed field := by
    apply (geometry.map Value.geometry).looselyFramed
    rintro _ bs ⟨g, hg, -⟩
    apply hg.length_eq
  have asPoint : (c.readAs p .point field.length).LooselyFramed field := by
    apply ((recognises_readPoint geometry).map Value.point).looselyFramed
    rintro _ bs ⟨q, hq, -⟩
    apply hq.length_eq
  rcases hkind with rfl | rfl | rfl
  · rw [readKind, readNatural_of_type_eq_geometry htype]
    apply asGeometry
  · apply asPoint
  · apply asGeometry

/-- A field of a length that its column can have is read, in any surroundings, as it is read alone,
without a failure for want of bytes, and the cursor is then behind it; a field that is read as a
geometry has the same value in any surroundings, if it has one. -/
theorem readKind_framed
    (c : Column) (p : Protocol) (kind : Option Target) (field : Bytes)
    (h : c.HasLength p field.length) :
  if c.IsGeometryFor kind then (c.readKind p kind field.length).LooselyFramed field
  else (c.readKind p kind field.length).Framed field
  := by
  split
  next hgeometry => apply looselyFramed_readKind p field hgeometry
  next hgeometry =>
    apply Covers.framed
    rw [IsGeometryFor, not_and, not_or, not_or] at hgeometry
    cases kind with
    | none => exact covers_readNatural h fun htype => (hgeometry htype).1 rfl
    | some target =>
      apply covers_readAs target h
      intro htype
      obtain ⟨-, hpoint, hshape⟩ := hgeometry htype
      exact ⟨fun heq => hpoint (congrArg some heq), fun heq => hshape (congrArg some heq)⟩

/-- The number 300 in a field of a medium integer, refused as an integer of one byte: its byte of
filling is behind the cursor as well. -/
theorem readKind_framed_overflow :
  let c := ofNameAndType "m" .int24
  let field : Bytes := [0x2C, 0x01, 0x00, 0x00]
  c.HasLength .binary field.length ∧
    c.readKind .binary (some .int8) field.length
        ((Cursor.ofBytes ([9] ++ field ++ [7, 7])).advance ([9] : Bytes).length) =
      (.error (.overflow "300" "i8"), ⟨5, [7, 7]⟩)
  := by
  intro c field
  have hlength : c.HasLength .binary field.length := by
    intro _ w hw
    exact Option.some.inj hw
  have alone : ((ofNameAndType "m" .int24).readKind .binary (some .int8) 4).run
      [0x2C, 0x01, 0x00, 0x00] = .error (.overflow "300" "i8") := by
    rfl
  have framed := readKind_framed c .binary (some .int8) field hlength
  rw [if_neg (by decide), Framed] at framed
  exact ⟨hlength, (framed.2 [9] [7, 7]).trans (congrArg (·, _) alone)⟩

end Column

end SqlWire
