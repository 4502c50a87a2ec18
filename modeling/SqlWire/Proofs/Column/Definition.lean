import SqlWire.Column.Basic
import SqlWire.Proofs.Layout

/-!
# Column definitions are read back

The packet that describes a column is read as its description, and its end is found whatever
follows it: `Column.reads_definition`.  The names of the type and of its format are the texts of the
last entries with their tags.  The entries are read in rounds, `Column.Collects`, of which there are
at most as many as bytes, whatever these are; `Column.readDefinition_definition` says both.
-/

namespace SqlWire.Column

open Reader

/-! ### Rounds over the entries -/

/-- From the cursor, so many rounds over the entries end with the outcome at the cursor behind: a
round is over the next entry, and there is none where no byte is left or an entry has failed. -/
inductive Collects : Cursor → Nat → Except Error (List Extension) → Cursor → Prop
  | done {c : Cursor} (h : c.has 1 = false) : Collects c 0 (.ok []) c
  | failed {c c' : Cursor} {e : Error} (h : c.has 1 = true)
      (hentry : readExtension c = (.error e, c')) : Collects c 1 (.error e) c'
  | next {c c' c'' : Cursor} {entry : Extension} {rounds : Nat}
      {outcome : Except Error (List Extension)} (h : c.has 1 = true)
      (hentry : readExtension c = (.ok entry, c')) (hrest : Collects c' rounds outcome c'') :
      Collects c (rounds + 1) (outcome.map (entry :: ·)) c''

/-- An entry takes its tag and whatever its text takes. -/
theorem remaining_lt_of_readExtension
    {c c' : Cursor} {entry : Extension} (h : readExtension c = (.ok entry, c')) :
  c'.remaining < c.remaining
  := by
  have settled : lengthEncodedText.Settled := settled_lengthEncodedBytes.map _
  obtain ⟨G, hG⟩ := settled
  have recognised := recognises_byte.bind fun tag => hG.map fun text => (⟨tag, text⟩ : Extension)
  obtain ⟨bs, ⟨tag, cs, ds, rfl, -, rfl⟩, hrest, -⟩ := (recognised c entry c').mp h
  rw [Cursor.remaining, Cursor.remaining, hrest]
  simp only [List.length_append, List.length_singleton]
  omega

/-- With a round for each byte that is left, the entries are read to their end. -/
theorem collects_readExtensions
    {fuel : Nat} {c : Cursor} (h : c.remaining < fuel) :
  ∃ rounds ≤ c.remaining, Collects c rounds (readExtensions fuel c).1 (readExtensions fuel c).2
  := by
  induction fuel generalizing c with
  | zero => exact absurd h (Nat.not_lt_zero _)
  | succ fuel ih =>
    have step : readExtensions (fuel + 1) c =
        if c.has 1 then Reader.bind readExtension
          (fun entry => Reader.bind (readExtensions fuel) fun entries =>
            Reader.pure (entry :: entries)) c
        else (.ok [], c) := by
      rw [readExtensions]
      change (if c.has 1 then _ else _ : Reader (List Extension)) c = _
      split <;> rfl
    rw [step]
    cases hhas : c.has 1 with
    | false =>
      use 0, Nat.zero_le _
      exact .done hhas
    | true =>
      have some : 1 ≤ c.remaining := (c.has_iff 1).mp hhas
      rw [if_pos rfl, Reader.bind]
      split
      next entry c' hentry =>
        have shorter := remaining_lt_of_readExtension hentry
        obtain ⟨rounds, hrounds, hcollects⟩ := ih (c := c') (by omega)
        use rounds + 1, by omega
        have round := Collects.next hhas hentry hcollects
        rw [Reader.bind]
        cases hread : readExtensions fuel c' with
        | mk outcome c'' =>
          rw [hread] at round
          cases outcome <;> exact round
      next e c' hentry =>
        use 1, some
        exact .failed hhas hentry

/-! ### Entries -/

/-- The text of the last entry with a tag is that of the entry behind which the tag does not come
again; there is none without such an entry. -/
theorem lastText_eq_iff
    {tag : UInt8} {entries : List Extension} {text : Option String} :
  lastText tag entries = text ↔
    (∃ before after, entries = before ++ ⟨tag, text⟩ :: after ∧ ∀ e ∈ after, e.tag ≠ tag) ∨
    text = none ∧ ∀ e ∈ entries, e.tag ≠ tag
  := by
  rw [lastText]
  constructor
  · rintro rfl
    cases hfind : entries.reverse.find? (·.tag == tag) with
    | none =>
      right
      use rfl
      simpa using hfind
    | some e =>
      left
      obtain ⟨htag, after, before, hreverse, hafter⟩ := List.find?_eq_some_iff_append.mp hfind
      obtain rfl : e.tag = tag := by simpa using htag
      use before.reverse, after.reverse
      constructor
      · rw [← List.reverse_reverse entries, hreverse]
        simp
      · simpa using hafter
  · rintro (⟨before, after, rfl, hafter⟩ | ⟨rfl, habsent⟩)
    · have behind : after.reverse.find? (·.tag == tag) = none := by simpa using hafter
      simp [List.find?_append, behind]
    · have absent : entries.reverse.find? (·.tag == tag) = none := by simpa using habsent
      rw [absent]
      rfl

/-- The NULL marker is read as no text. -/
theorem reads_lengthEncodedText
    {text : Option String} (h : ∀ s ∈ text, (Utf8.encode s).length < 2 ^ 64) :
  lengthEncodedText.Reads ((text.map Layout.lengthEncodedText).getD [0xFB]) text
  := by
  cases text with
  | none => exact reads_lengthEncodedBytes_none.map (Option.map Utf8.decode)
  | some s =>
    have read := (reads_lengthEncodedBytes (h s rfl)).map (Option.map Utf8.decode)
    rw [Option.map_some, Utf8.decode_encode] at read
    exact read

theorem reads_readExtension
    {e : Extension} (h : e.bytes.length < 2 ^ 64) :
  readExtension.Reads e.bytes e
  := by
  have text : ∀ s ∈ e.text, (Utf8.encode s).length < 2 ^ 64 := by
    intro s hs
    rw [Extension.bytes, hs] at h
    simp only [Option.map_some, Option.getD_some, Layout.lengthEncodedText,
      Layout.lengthEncodedBytes, List.length_cons, List.length_append] at h
    omega
  exact (reads_byte e.tag).bind ((reads_lengthEncodedText text).map (Extension.mk e.tag))

/-- The bytes of entries are read as the entries, with a round for each byte. -/
theorem readExtensions_eq_ok
    {fuel : Nat} {entries : List Extension}
    (hfuel : (entries.flatMap Extension.bytes).length < fuel)
    (h : (entries.flatMap Extension.bytes).length < 2 ^ 64) (position : Nat) :
  ∃ c, readExtensions fuel ⟨position, entries.flatMap Extension.bytes⟩ = (.ok entries, c)
  := by
  induction entries generalizing fuel position with
  | nil =>
    cases fuel with
    | zero => cases hfuel
    | succ fuel => exact ⟨_, rfl⟩
  | cons e entries ih =>
    have some : 0 < e.bytes.length := Nat.succ_pos _
    rw [List.flatMap_cons, List.length_append] at hfuel h
    cases fuel with
    | zero => cases hfuel
    | succ fuel =>
      have first := reads_readExtension (e := e) (by omega) position
        (entries.flatMap Extension.bytes)
      have fewer : (entries.flatMap Extension.bytes).length < fuel := by omega
      obtain ⟨c, hrest⟩ := ih fewer (by omega) (position + e.bytes.length)
      use c
      rw [readExtensions]
      apply bind_apply_eq_ok_iff.mpr
      refine ⟨true, _, rfl, ?_⟩
      rw [if_pos rfl, List.flatMap_cons]
      apply bind_apply_eq_ok_iff.mpr
      refine ⟨e, _, first, ?_⟩
      apply bind_apply_eq_ok_iff.mpr
      exact ⟨entries, c, hrest, rfl⟩

theorem extensionsOf_flatMap_bytes
    {entries : List Extension} (h : (entries.flatMap Extension.bytes).length < 2 ^ 64) :
  extensionsOf (entries.flatMap Extension.bytes) = .ok entries
  := by
  obtain ⟨c, hread⟩ := readExtensions_eq_ok (Nat.lt_succ_self _) h 0
  rw [extensionsOf, run, Cursor.ofBytes, hread]

/-! ### Definitions -/

/-- The entries are there when they were agreed on. -/
theorem reads_readExtended
    {extended : Option (List Extension)}
    (h : ∀ entries ∈ extended, (entries.flatMap Extension.bytes).length < 2 ^ 64) :
  (readExtended extended.isSome).Reads
    ((extended.map fun entries =>
      Layout.lengthEncodedBytes (entries.flatMap Extension.bytes)).getD []) (extended.getD [])
  := by
  cases extended with
  | none => exact reads_pure []
  | some entries =>
    have hlength := h entries rfl
    have read : (lift (extensionsOf (entries.flatMap Extension.bytes))).Reads [] entries := by
      rw [extensionsOf_flatMap_bytes hlength]
      apply reads_pure
    exact (reads_lengthEncodedBytes hlength).bind_nil read

theorem reads_readName
    {s : String} (h : (Utf8.encode s).length < 2 ^ 64) :
  readName.Reads (Layout.lengthEncodedText s) s
  := by
  have text : ∀ s' ∈ some s, (Utf8.encode s').length < 2 ^ 64 := by
    rintro _ ⟨⟩
    exact h
  apply (reads_lengthEncodedText text).map (·.getD "")

theorem reads_readType
    (type : WireType) :
  readType.Reads [type.code] type
  := by
  apply (reads_byte type.code).bind_nil
  rw [WireType.ofCode?_code]
  apply reads_pure

/-- The parts of a definition as they come one after another. -/
theorem definition_eq
    (catalog : String) (c : Column) (extended : Option (List Extension)) :
  definition catalog c extended = Layout.lengthEncodedText catalog ++
    (Layout.lengthEncodedText c.schema ++ (Layout.lengthEncodedText c.table ++
    (Layout.lengthEncodedText c.orgTable ++ (Layout.lengthEncodedText c.name ++
    (Layout.lengthEncodedText c.orgName ++ ((extended.map fun entries =>
      Layout.lengthEncodedBytes (entries.flatMap Extension.bytes)).getD [] ++
    (Layout.lengthEncoded 12 ++ (Bytes.ofNatLE 2 c.charset.toNat ++
    (Bytes.ofNatLE 4 c.length.toNat ++ ([c.type.code] ++ (Bytes.ofNatLE 2 c.flags.toNat ++
    [c.decimals])))))))))))
  := by
  have fixed : Layout.lengthEncoded 12 = [0x0C] := by rfl
  rw [definition, fixed]
  simp only [List.flatMap_cons, List.flatMap_nil, List.append_nil, List.append_assoc,
    List.cons_append, List.nil_append]

/-- The definition of a column is read as the column, with the names that the last entries give. -/
theorem reads_definition
    {catalog : String} {c : Column} {extended : Option (List Extension)}
    (hnames : ∀ s ∈ [catalog, c.schema, c.table, c.orgTable, c.name, c.orgName],
      (Utf8.encode s).length < 2 ^ 64)
    (hentries : ∀ entries ∈ extended, (entries.flatMap Extension.bytes).length < 2 ^ 64) :
  (readDefinition extended.isSome).Reads (definition catalog c extended)
    { c with
      extName := lastText 0 (extended.getD [])
      extFormat := lastText 1 (extended.getD [])
      zeroDates := .literal }
  := by
  simp only [List.forall_mem_cons] at hnames
  obtain ⟨hcatalog, hschema, htable, horgTable, hname, horgName, -⟩ := hnames
  rw [definition_eq]
  apply (reads_readName hcatalog).bind
  apply (reads_readName hschema).bind
  apply (reads_readName htable).bind
  apply (reads_readName horgTable).bind
  apply (reads_readName hname).bind
  apply (reads_readName horgName).bind
  apply (reads_readExtended hentries).bind
  apply (reads_lengthEncoded (by decide)).bind
  apply (reads_uint_of_lt (w := 2) c.charset.toNat_lt).bind
  apply (reads_uint_of_lt (w := 4) c.length.toNat_lt).bind
  apply (reads_readType c.type).bind
  apply (reads_uint_of_lt (w := 2) c.flags.toNat_lt).bind
  apply (reads_byte c.decimals).bind_nil
  rw [UInt16.ofNat_toNat, UInt32.ofNat_toNat, UInt16.ofNat_toNat]
  apply reads_pure

/-- A definition is read as its column, whatever follows, with the texts of the last entries with
the tags 0 and 1 as the names of its type and format; and whatever the bytes of the entries are,
there is an end to the rounds over them. -/
theorem readDefinition_definition :
  (∀ (catalog : String) (c : Column) (extended : Option (List Extension)),
    (∀ s ∈ [catalog, c.schema, c.table, c.orgTable, c.name, c.orgName],
      (Utf8.encode s).length < 2 ^ 64) →
    (∀ entries ∈ extended, (entries.flatMap Extension.bytes).length < 2 ^ 64) →
    (readDefinition extended.isSome).Reads (definition catalog c extended)
      { c with
        extName := lastText 0 (extended.getD [])
        extFormat := lastText 1 (extended.getD [])
        zeroDates := .literal }) ∧
  (∀ tag entries text, lastText tag entries = text ↔
    (∃ before after, entries = before ++ ⟨tag, text⟩ :: after ∧ ∀ e ∈ after, e.tag ≠ tag) ∨
    text = none ∧ ∀ e ∈ entries, e.tag ≠ tag) ∧
  ∀ block, ∃ rounds ≤ block.length, ∃ c,
    Collects (.ofBytes block) rounds (extensionsOf block) c
  := by
  refine ⟨?_, ?_, ?_⟩
  · intro catalog c extended hnames hentries
    apply reads_definition hnames hentries
  · intro tag entries text
    apply lastText_eq_iff
  · intro block
    obtain ⟨rounds, hrounds, hcollects⟩ :=
      collects_readExtensions (c := .ofBytes block) (Nat.lt_succ_self _)
    exact ⟨rounds, hrounds, _, hcollects⟩

/-- A name is given twice, and one entry has a tag that names nothing. -/
theorem readDefinition_definition_twice :
  let c := { ofNameAndType "größe" .geometry with
    schema := "db", charset := 0x1234, length := 7, decimals := 3, flags := 0x8001 }
  let entries : List Extension :=
    [⟨0, some "point"⟩, ⟨9, some "x"⟩, ⟨1, some "json"⟩, ⟨0, some "polygon"⟩]
  (∀ s ∈ ["def", c.schema, c.table, c.orgTable, c.name, c.orgName],
      (Utf8.encode s).length < 2 ^ 64) ∧
  (∀ entries' ∈ some entries, (entries'.flatMap Extension.bytes).length < 2 ^ 64) ∧
  readDefinition true ⟨0, definition "def" c (some entries) ++ [1, 2]⟩ =
    (.ok { c with extName := some "polygon", extFormat := some "json" }, ⟨55, [1, 2]⟩)
  := by
  intro c entries
  have hnames : ∀ s ∈ ["def", c.schema, c.table, c.orgTable, c.name, c.orgName],
      (Utf8.encode s).length < 2 ^ 64 := by
    decide
  have hentries : ∀ entries' ∈ some entries,
      (entries'.flatMap Extension.bytes).length < 2 ^ 64 := by
    rintro _ ⟨⟩
    decide
  have hlength : (definition "def" c (some entries)).length = 55 := by decide
  have hname : lastText 0 entries = some "polygon" := by rfl
  have hformat : lastText 1 entries = some "json" := by rfl
  have read := readDefinition_definition.1 "def" c (some entries) hnames hentries 0 [1, 2]
  rw [hlength, Option.getD_some, hname, hformat] at read
  exact ⟨hnames, hentries, read⟩

end SqlWire.Column
