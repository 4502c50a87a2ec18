import SqlWire.Proofs.Reading

/-!
# Readers of a given number of bytes

Relations between a reader and the number of bytes that it stands before, whatever is behind them.
`Reader.Gives r n` says that `r` moves over exactly `n` bytes and gives a value, `Reader.Covers r n`
that it moves over exactly `n` bytes, when it fails as well, and never fails for want of bytes.
Both compose along the steps of a reader, the second as long as nothing fails before its last bytes.
A reader that covers a field reads it in any surroundings as it reads it alone: `Covers.framed`.
`Reader.Within r n` says that `r` moves over at most `n` bytes, wherever it stands and however many
are left, and `Reader.Spans r n` that it moves over all `n` if it can.
-/

namespace SqlWire

variable {α β : Type}

/-- The failure is for want of bytes. -/
def Error.isShort : Error → Bool
  | .shortBuffer .. => true
  | _ => false

/-- The outcome is no failure for want of bytes. -/
def NeverShort (outcome : Except Error α) : Prop :=
  ∀ e, outcome = .error e → e.isShort = false

theorem neverShort_ok
    (a : α) :
  NeverShort (.ok a)
  := by
  intro e h
  cases h

theorem neverShort_error
    {e : Error} (h : e.isShort = false) :
  NeverShort (.error e : Except Error α)
  := by
  intro e' h'
  rw [← Except.error.inj h']
  apply h

namespace Reader

/-- Before any `n` bytes the reader moves over them and gives a value. -/
def Gives (r : Reader α) (n : Nat) : Prop :=
  ∀ bs : Bytes, bs.length = n → ∃ a, r.Reads bs a

/-- Before any `n` bytes the reader moves over them, with an outcome that depends on nothing else
and is no failure for want of bytes. -/
def Covers (r : Reader α) (n : Nat) : Prop :=
  ∀ bs : Bytes, bs.length = n → ∃ outcome, NeverShort outcome ∧
    ∀ (position : Nat) (rest : Bytes), r ⟨position, bs ++ rest⟩ = (outcome, ⟨position + n, rest⟩)

/-! ### Readers that give a value -/

theorem gives_pure
    (a : α) :
  (pure a : Reader α).Gives 0
  := by
  intro bs hbs
  obtain rfl := List.eq_nil_of_length_eq_zero hbs
  exact ⟨a, reads_pure a⟩

theorem Gives.bind
    {r : Reader α} {next : α → Reader β} {m n : Nat} (hr : r.Gives m)
    (hnext : ∀ a, (next a).Gives n) :
  (r >>= next).Gives (m + n)
  := by
  intro bs hbs
  obtain ⟨a, ha⟩ := hr (bs.take m) (List.length_take_of_le (by omega))
  obtain ⟨b, hb⟩ := hnext a (bs.drop m) (by rw [List.length_drop]; omega)
  use b
  rw [← List.take_append_drop m bs]
  apply ha.bind hb

/-- A value that is made of the one given. -/
theorem Gives.map
    {r : Reader α} {n : Nat} (f : α → β) (hr : r.Gives n) :
  (r >>= fun a => pure (f a)).Gives n
  :=
  hr.bind fun a => gives_pure (f a)

theorem gives_bytes
    (n : Nat) :
  (bytes n).Gives n
  := by
  intro bs hbs
  exact ⟨bs, reads_bytes hbs⟩

theorem gives_skip
    (n : Nat) :
  (skip n).Gives n
  := by
  intro bs hbs
  exact ⟨(), reads_skip hbs⟩

theorem gives_skipAtMost
    (n : Nat) :
  (skipAtMost n).Gives n
  := by
  intro bs hbs
  use ()
  intro position rest
  have whole : min n (bs ++ rest).length = bs.length := by
    rw [List.length_append]
    omega
  rw [skipAtMost, Cursor.remaining, whole, Cursor.advance, List.drop_left]

theorem gives_byte :
  byte.Gives 1
  := by
  intro bs hbs
  obtain ⟨b, rfl⟩ := List.length_eq_one_iff.mp hbs
  exact ⟨b, reads_byte b⟩

theorem gives_uint
    (w : Nat) :
  (uint w).Gives w
  :=
  (gives_bytes w).map Bytes.littleEndian

theorem gives_sint
    (w : Nat) :
  (sint w).Gives w
  :=
  (gives_uint w).map (Bytes.signed w)

theorem gives_double :
  double.Gives 8
  :=
  (gives_uint 8).map Double.ofBits

theorem gives_single :
  single.Gives 4
  :=
  (gives_uint 4).map Single.ofBits

theorem gives_text
    (n : Nat) :
  (text n).Gives n
  :=
  (gives_bytes n).map Utf8.decode

/-! ### Readers that may fail -/

theorem Gives.covers
    {r : Reader α} {n : Nat} (h : r.Gives n) :
  r.Covers n
  := by
  intro bs hbs
  obtain ⟨a, ha⟩ := h bs hbs
  use .ok a, neverShort_ok a
  rw [← hbs]
  apply ha

theorem covers_lift
    {outcome : Except Error α} (h : NeverShort outcome) :
  (Reader.lift outcome).Covers 0
  := by
  intro bs hbs
  obtain rfl := List.eq_nil_of_length_eq_zero hbs
  use outcome, h
  intro position rest
  rfl

theorem covers_fail
    {e : Error} (h : e.isShort = false) :
  (fail e : Reader α).Covers 0
  :=
  covers_lift (neverShort_error h)

/-- All bytes are behind the reader before the second step, which moves over none. -/
theorem Covers.bind
    {r : Reader α} {next : α → Reader β} {n : Nat} (hr : r.Covers n)
    (hnext : ∀ a, (next a).Covers 0) :
  (r >>= next).Covers n
  := by
  intro bs hbs
  obtain ⟨outcome, hshort, houtcome⟩ := hr bs hbs
  have unfolded (c : Cursor) : (r >>= next) c = Reader.bind r next c := rfl
  simp only [unfolded, Reader.bind, houtcome]
  cases outcome with
  | ok a =>
    obtain ⟨outcome, hshort, houtcome⟩ := hnext a [] rfl
    use outcome, hshort
    intro position rest
    apply houtcome (position + n) rest
  | error e =>
    use .error e, neverShort_error (hshort e rfl)
    intro position rest
    rfl

/-- A value that is made of the one read. -/
theorem Covers.map
    {r : Reader α} {n : Nat} (f : α → β) (hr : r.Covers n) :
  (r >>= fun a => pure (f a)).Covers n
  :=
  hr.bind fun a => (gives_pure (f a)).covers

/-- An outcome that is made of the value read. -/
theorem Covers.lift
    {r : Reader α} {next : α → Except Error β} {n : Nat} (hr : r.Covers n)
    (hnext : ∀ a, NeverShort (next a)) :
  (r >>= fun a => Reader.lift (next a)).Covers n
  :=
  hr.bind fun a => covers_lift (hnext a)

/-! ### Readers that go no further -/

/-- Wherever it stands, the reader goes on by at most `n` bytes and by no more than are left, when
it fails as well. -/
def Within (r : Reader α) (n : Nat) : Prop :=
  ∀ c : Cursor, ∃ k, k ≤ n ∧ k ≤ c.remaining ∧ (r c).2 = c.advance k

theorem Within.mono
    {r : Reader α} {m n : Nat} (h : r.Within m) (hle : m ≤ n) :
  r.Within n
  := by
  intro c
  obtain ⟨k, hk, hleft, hmove⟩ := h c
  exact ⟨k, Nat.le_trans hk hle, hleft, hmove⟩

theorem within_pure
    (a : α) :
  (pure a : Reader α).Within 0
  := by
  intro c
  exact ⟨0, Nat.le_refl 0, Nat.zero_le _, rfl⟩

theorem within_byte :
  byte.Within 1
  := by
  rintro ⟨position, rest⟩
  cases rest with
  | nil => exact ⟨0, Nat.zero_le 1, Nat.le_refl 0, rfl⟩
  | cons b rest => exact ⟨1, Nat.le_refl 1, Nat.succ_le_succ (Nat.zero_le _), rfl⟩

theorem within_bytes
    (n : Nat) :
  (bytes n).Within n
  := by
  intro c
  rw [bytes]
  split
  next enough => exact ⟨n, Nat.le_refl n, (Cursor.has_iff c n).mp enough, rfl⟩
  next => exact ⟨0, Nat.zero_le n, Nat.zero_le _, rfl⟩

theorem Within.bind
    {r : Reader α} {next : α → Reader β} {m n : Nat} (hr : r.Within m)
    (hnext : ∀ a, (next a).Within n) :
  (r >>= next).Within (m + n)
  := by
  intro c
  obtain ⟨j, hj, hleft, hmove⟩ := hr c
  change ∃ k, k ≤ m + n ∧ k ≤ c.remaining ∧ (Reader.bind r next c).2 = c.advance k
  rw [Reader.bind]
  split
  next a c' hok =>
    obtain rfl : c' = c.advance j := by rw [← hmove, hok]
    obtain ⟨k, hk, hleft', hmove'⟩ := hnext a (c.advance j)
    rw [Cursor.remaining, Cursor.advance, List.length_drop, ← Cursor.remaining] at hleft'
    refine ⟨j + k, Nat.add_le_add hj hk, by omega, ?_⟩
    rw [hmove', Cursor.advance, Cursor.advance, Cursor.advance, List.drop_drop, Nat.add_assoc]
  next e c' herror =>
    obtain rfl : c' = c.advance j := by rw [← hmove, herror]
    exact ⟨j, Nat.le_trans hj (Nat.le_add_right m n), hleft, rfl⟩

/-- A value that is made of the one read. -/
theorem Within.map
    {r : Reader α} {n : Nat} (f : α → β) (hr : r.Within n) :
  (r >>= fun a => pure (f a)).Within n
  :=
  hr.bind fun a => within_pure (f a)

theorem within_uint
    (w : Nat) :
  (uint w).Within w
  :=
  (within_bytes w).map Bytes.littleEndian

/-- The reader gives a value if there are `n` bytes, over which it then moves, and never goes on by
more than these. -/
structure Spans (r : Reader α) (n : Nat) : Prop where
  gives : r.Gives n
  within : r.Within n

theorem spans_pure
    (a : α) :
  (pure a : Reader α).Spans 0
  :=
  ⟨gives_pure a, within_pure a⟩

theorem spans_byte :
  byte.Spans 1
  :=
  ⟨gives_byte, within_byte⟩

theorem spans_uint
    (w : Nat) :
  (uint w).Spans w
  :=
  ⟨gives_uint w, within_uint w⟩

theorem Spans.bind
    {r : Reader α} {next : α → Reader β} {m n : Nat} (hr : r.Spans m)
    (hnext : ∀ a, (next a).Spans n) :
  (r >>= next).Spans (m + n)
  :=
  ⟨hr.gives.bind fun a => (hnext a).gives, hr.within.bind fun a => (hnext a).within⟩

/-- A reader keeps within any number of bytes that it cannot exceed, and within no smaller one. -/
theorem Spans.within_iff
    {r : Reader α} {m n : Nat} (h : r.Spans m) :
  r.Within n ↔ m ≤ n
  := by
  constructor
  · intro hwithin
    obtain ⟨a, ha⟩ := h.gives (List.replicate m 0) List.length_replicate
    obtain ⟨k, hk, -, hmove⟩ := hwithin ⟨0, List.replicate m 0 ++ []⟩
    rw [ha, List.length_replicate] at hmove
    have position : 0 + m = 0 + k := congrArg Cursor.position hmove
    omega
  · apply h.within.mono

/-! ### Fields and their surroundings -/

/-- In any surroundings the field has the outcome that it has alone, which is no failure for want of
bytes, and the reader ends behind it. -/
def Framed (r : Reader α) (field : Bytes) : Prop :=
  NeverShort (r.run field) ∧
    ∀ before after : Bytes,
      r ((Cursor.ofBytes (before ++ field ++ after)).advance before.length) =
        (r.run field, ⟨before.length + field.length, after⟩)

/-- In any surroundings the field has the value that it has alone, if it has one, and the reader
then ends behind it; a field that fails alone fails in any surroundings. -/
def LooselyFramed (r : Reader α) (field : Bytes) : Prop :=
  ∀ before after : Bytes,
    match r.run field with
    | .ok a =>
      r ((Cursor.ofBytes (before ++ field ++ after)).advance before.length) =
        (.ok a, ⟨before.length + field.length, after⟩)
    | .error _ =>
      ∃ e c, r ((Cursor.ofBytes (before ++ field ++ after)).advance before.length) = (.error e, c)

theorem advance_ofBytes_append
    (before field after : Bytes) :
  (Cursor.ofBytes (before ++ field ++ after)).advance before.length =
    ⟨before.length, field ++ after⟩
  := by
  rw [Cursor.advance, Cursor.ofBytes, List.append_assoc, List.drop_left, Nat.zero_add]

theorem Covers.framed
    {r : Reader α} {field : Bytes} (h : r.Covers field.length) :
  r.Framed field
  := by
  obtain ⟨outcome, hshort, houtcome⟩ := h field rfl
  have alone : r.run field = outcome := by
    have whole := houtcome 0 []
    rw [List.append_nil] at whole
    rw [run, Cursor.ofBytes, whole]
  rw [Framed, alone]
  use hshort
  intro before after
  rw [advance_ofBytes_append]
  apply houtcome

/-- A value read before bytes as many as those of the grammar is one that they are related to. -/
theorem Recognises.of_length_eq
    {r : Reader α} {G : α → Bytes → Prop} {field rest : Bytes} {position : Nat} {a : α}
    {c : Cursor} (hr : r.Recognises G) (hlength : ∀ a bs, G a bs → bs.length = field.length)
    (h : r ⟨position, field ++ rest⟩ = (.ok a, c)) :
  G a field
  := by
  obtain ⟨bs, hbs, hrest, -⟩ := (hr _ _ _).mp h
  obtain rfl : field = bs := List.append_inj_left hrest (hlength a bs hbs).symm
  apply hbs

/-- A grammar whose bytes are as many as those of the field tells its value in any surroundings. -/
theorem Recognises.looselyFramed
    {r : Reader α} {G : α → Bytes → Prop} {field : Bytes} (hr : r.Recognises G)
    (hlength : ∀ a bs, G a bs → bs.length = field.length) :
  r.LooselyFramed field
  := by
  intro before after
  rw [advance_ofBytes_append]
  cases alone : r.run field with
  | ok a =>
    have whole : r ⟨0, field ++ []⟩ = (.ok a, (r ⟨0, field⟩).2) := by
      rw [List.append_nil]
      exact Prod.ext alone rfl
    apply hr.reads (hr.of_length_eq hlength whole)
  | error e =>
    cases inside : r ⟨before.length, field ++ after⟩ with
    | mk outcome c =>
      cases outcome with
      | error e' => exact ⟨e', c, rfl⟩
      | ok a =>
        have read := (hr.reads (hr.of_length_eq hlength inside)).run
        rw [alone] at read
        cases read

end Reader

end SqlWire
