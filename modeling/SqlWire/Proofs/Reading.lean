import Mathlib.Tactic.Use
import SqlWire.Cursor
import SqlWire.Layout
import SqlWire.Proofs.Bytes

/-!
# What readers take

Two relations between a reader and the bytes that it moves over.  `Reader.Reads r bs a` says that
`r`, standing before the bytes `bs`, moves over exactly them and gives `a`, whatever follows.
`Reader.Recognises r G` says that the bytes over which `r` may move, and what it then gives, are
exactly those that the grammar `G` relates.  Both compose along the steps of a reader.  A reader
that recognises some grammar, `Reader.Settled r`, fails when bytes that it would read are cut short.
-/

namespace SqlWire.Reader

variable {α β : Type}

/-! ### Steps -/

/-- One reader after another succeeds exactly when both do, the second where the first ends. -/
theorem bind_apply_eq_ok_iff
    {r : Reader α} {next : α → Reader β} {c c'' : Cursor} {b : β} :
  (r >>= next) c = (.ok b, c'') ↔ ∃ a c', r c = (.ok a, c') ∧ next a c' = (.ok b, c'')
  := by
  have unfolded : (r >>= next) c = Reader.bind r next c := rfl
  rw [unfolded, Reader.bind]
  constructor
  · intro h
    split at h
    next a c' hr => exact ⟨a, c', hr, h⟩
    next => cases h
  · rintro ⟨a, c', hr, hnext⟩
    rw [hr]
    apply hnext

/-- A reader whose value is given as it is. -/
theorem bind_pure_self
    (r : Reader α) :
  (r >>= fun a => pure a) = r
  := by
  funext c
  change Reader.bind r Reader.pure c = r c
  rw [Reader.bind]
  split
  next hr => rw [hr]; rfl
  next hr => rw [hr]

/-- A value that is made of an outcome, if that is a value. -/
theorem lift_map
    (outcome : Except Error α) (f : α → β) :
  (lift outcome >>= fun a => pure (f a)) = lift (outcome >>= fun a => .ok (f a))
  := by
  cases outcome <;> rfl

/-- A reader whose value is made into an outcome. -/
theorem bind_lift_apply
    (r : Reader α) (next : α → Except Error β) (c : Cursor) :
  (r >>= fun a => lift (next a)) c = ((r c).1 >>= next, (r c).2)
  := by
  change Reader.bind r _ c = _
  rw [Reader.bind]
  split
  next hr => rw [hr]; rfl
  next hr => rw [hr]; rfl

/-- A value that is made of the one read, wherever the reader stands. -/
theorem map_apply
    (r : Reader α) (f : α → β) (c : Cursor) :
  (r >>= fun a => pure (f a)) c = ((r c).1 >>= fun a => .ok (f a), (r c).2)
  :=
  bind_lift_apply r (fun a => .ok (f a)) c

/-- It fails where the value cannot be read. -/
theorem eq_error_of_map
    {r : Reader α} {f : α → β} {c c' : Cursor} {e : Error}
    (h : (r >>= fun a => pure (f a)) c = (.error e, c')) :
  r c = (.error e, c')
  := by
  rw [map_apply] at h
  rcases hr : r c with ⟨outcome, c''⟩
  rw [hr] at h
  cases outcome <;> cases h
  rfl

/-- A value that is made of an outcome of the one read. -/
theorem bind_lift_map
    {γ : Type} (r : Reader α) (next : α → Except Error β) (f : β → γ) :
  ((r >>= fun a => lift (next a)) >>= fun b => pure (f b)) =
    r >>= fun a => lift (next a >>= fun b => .ok (f b))
  := by
  funext c
  change ((r >>= fun a => lift (next a)) >>= fun b => lift (.ok (f b))) c = _
  rw [bind_lift_apply, bind_lift_apply, bind_lift_apply]
  cases (r c).1 <;> rfl

/-- The outcome of a reader whose value is made into an outcome. -/
theorem run_bind_lift
    (r : Reader α) (next : α → Except Error β) (bs : Bytes) :
  (r >>= fun a => lift (next a)).run bs = r.run bs >>= next
  :=
  congrArg Prod.fst (bind_lift_apply r next (.ofBytes bs))

/-- A value that is made of the one read. -/
theorem run_map
    (r : Reader α) (f : α → β) (bs : Bytes) :
  (r >>= fun a => pure (f a)).run bs = r.run bs >>= fun a => .ok (f a)
  :=
  run_bind_lift r (fun a => .ok (f a)) bs

theorem exists_of_run_map
    {r : Reader α} {f : α → β} {bs : Bytes} {b : β}
    (h : (r >>= fun a => pure (f a)).run bs = .ok b) :
  ∃ a, f a = b
  := by
  rw [run_map] at h
  cases hread : r.run bs with
  | error e =>
    rw [hread] at h
    cases h
  | ok a =>
    rw [hread] at h
    exact ⟨a, Except.ok.inj h⟩

/-! ### Reading given bytes -/

/-- Before the given bytes, the reader moves over them and gives the value, whatever follows. -/
def Reads (r : Reader α) (bs : Bytes) (a : α) : Prop :=
  ∀ (position : Nat) (rest : Bytes),
    r ⟨position, bs ++ rest⟩ = (.ok a, ⟨position + bs.length, rest⟩)

theorem reads_pure
    (a : α) :
  (pure a : Reader α).Reads [] a
  := by
  intro position rest
  rfl

/-- Before the given bytes, with the given rest behind them, the reader moves over the bytes and
gives the value. -/
def ReadsBefore (r : Reader α) (bs rest : Bytes) (a : α) : Prop :=
  ∀ position, r ⟨position, bs ++ rest⟩ = (.ok a, ⟨position + bs.length, rest⟩)

theorem Reads.readsBefore
    {r : Reader α} {bs : Bytes} {a : α} (hr : r.Reads bs a) (rest : Bytes) :
  r.ReadsBefore bs rest a
  :=
  fun position => hr position rest

/-- What is behind the bytes of the first step are those of the second and the rest. -/
theorem ReadsBefore.bind
    {r : Reader α} {next : α → Reader β} {bs cs rest : Bytes} {a : α} {b : β}
    (hr : r.ReadsBefore bs (cs ++ rest) a) (hnext : (next a).ReadsBefore cs rest b) :
  (r >>= next).ReadsBefore (bs ++ cs) rest b
  := by
  intro position
  apply bind_apply_eq_ok_iff.mpr
  use a, ⟨position + bs.length, cs ++ rest⟩
  rw [List.append_assoc, List.length_append, ← Nat.add_assoc]
  exact ⟨hr position, hnext _⟩

theorem readsBefore_allBytes
    (bs : Bytes) :
  allBytes.ReadsBefore bs [] bs
  := by
  intro position
  rw [List.append_nil]
  rfl

/-- A payload that is read whole gives the value read. -/
theorem ReadsBefore.run
    {r : Reader α} {bs : Bytes} {a : α} (h : r.ReadsBefore bs [] a) :
  r.run bs = .ok a
  := by
  have whole := h 0
  rw [List.append_nil] at whole
  rw [Reader.run, Cursor.ofBytes, whole]

theorem Reads.bind
    {r : Reader α} {next : α → Reader β} {bs cs : Bytes} {a : α} {b : β}
    (hr : r.Reads bs a) (hnext : (next a).Reads cs b) :
  (r >>= next).Reads (bs ++ cs) b
  := by
  intro position rest
  apply (hr.readsBefore _).bind (hnext.readsBefore rest)

/-- A second step that reads nothing. -/
theorem Reads.bind_nil
    {r : Reader α} {next : α → Reader β} {bs : Bytes} {a : α} {b : β}
    (hr : r.Reads bs a) (hnext : (next a).Reads [] b) :
  (r >>= next).Reads bs b
  := by
  rw [← List.append_nil bs]
  apply hr.bind hnext

/-- A value that is made of the one read. -/
theorem Reads.map
    {r : Reader α} {bs : Bytes} {a : α} (f : α → β) (hr : r.Reads bs a) :
  (r >>= fun a => pure (f a)).Reads bs (f a)
  :=
  hr.bind_nil (reads_pure (f a))

/-- An outcome that is made of the value read. -/
theorem Reads.lift
    {r : Reader α} {next : α → Except Error β} {bs : Bytes} {a : α} {b : β}
    (hr : r.Reads bs a) (hnext : next a = .ok b) :
  (r >>= fun a => Reader.lift (next a)).Reads bs b
  := by
  apply hr.bind_nil
  intro position rest
  rw [hnext]
  rfl

theorem Reads.run
    {r : Reader α} {bs : Bytes} {a : α} (h : r.Reads bs a) :
  r.run bs = .ok a
  :=
  (h.readsBefore []).run

/-- What is behind the bytes read does not matter. -/
theorem Reads.run_append
    {r : Reader α} {bs : Bytes} {a : α} (h : r.Reads bs a) (rest : Bytes) :
  r.run (bs ++ rest) = .ok a
  := by
  rw [Reader.run, Cursor.ofBytes, h 0 rest]

theorem reads_byte
    (b : UInt8) :
  byte.Reads [b] b
  := by
  intro position rest
  rfl

theorem reads_bytes
    {n : Nat} {bs : Bytes} (h : bs.length = n) :
  (bytes n).Reads bs bs
  := by
  intro position rest
  have enough : Cursor.has ⟨position, bs ++ rest⟩ n = true := by
    rw [Cursor.has_iff, Cursor.remaining, List.length_append]
    omega
  subst h
  simp [bytes, enough, Cursor.advance]

/-- The text of a whole payload. -/
theorem run_text
    (bs : Bytes) :
  (text bs.length).run bs = .ok (Utf8.decode bs)
  :=
  ((reads_bytes rfl).map Utf8.decode).run

theorem reads_skip
    {n : Nat} {bs : Bytes} (h : bs.length = n) :
  (skip n).Reads bs ()
  := by
  intro position rest
  have enough : Cursor.has ⟨position, bs ++ rest⟩ n = true := by
    rw [Cursor.has_iff, Cursor.remaining, List.length_append]
    omega
  subst h
  simp [skip, enough, Cursor.advance]

/-- Any `w` bytes are read as the number that they make. -/
theorem reads_uint_of_length
    {w : Nat} {bs : Bytes} (h : bs.length = w) :
  (uint w).Reads bs bs.littleEndian
  :=
  (reads_bytes h).map Bytes.littleEndian

/-- A number written in `w` bytes is read modulo `256 ^ w`. -/
theorem reads_uint
    (w n : Nat) :
  (uint w).Reads (Bytes.ofNatLE w n) (n % 256 ^ w)
  := by
  rw [← Bytes.littleEndian_ofNatLE]
  apply reads_uint_of_length (Bytes.length_ofNatLE w n)

/-! ### Reading what a grammar describes -/

/-- The reader gives `a` exactly when bytes that the grammar relates to `a` come next, and then
moves over them. -/
def Recognises (r : Reader α) (G : α → Bytes → Prop) : Prop :=
  ∀ (c : Cursor) (a : α) (c' : Cursor),
    r c = (.ok a, c') ↔
      ∃ bs, G a bs ∧ c.rest = bs ++ c'.rest ∧ c'.position = c.position + bs.length

theorem Recognises.congr
    {r : Reader α} {G H : α → Bytes → Prop} (hr : r.Recognises G) (h : ∀ a bs, G a bs ↔ H a bs) :
  r.Recognises H
  := by
  intro c a c'
  rw [hr]
  simp only [h]

/-- Bytes of the grammar are read, whatever follows. -/
theorem Recognises.reads
    {r : Reader α} {G : α → Bytes → Prop} {a : α} {bs : Bytes} (hr : r.Recognises G)
    (h : G a bs) :
  r.Reads bs a
  := by
  intro position rest
  apply (hr _ _ _).mpr
  use bs

/-- It is enough that bytes of the grammar are read, and that whatever is read is of the grammar. -/
theorem recognises_of_reads
    {r : Reader α} {G : α → Bytes → Prop} (hreads : ∀ a bs, G a bs → r.Reads bs a)
    (honly : ∀ c a c', r c = (.ok a, c') →
      ∃ bs, G a bs ∧ c.rest = bs ++ c'.rest ∧ c'.position = c.position + bs.length) :
  r.Recognises G
  := by
  rintro ⟨position, rest⟩ a ⟨position', rest'⟩
  constructor
  · apply honly _ a _
  · rintro ⟨bs, hbs, hrest, hposition⟩
    obtain rfl : rest = bs ++ rest' := hrest
    obtain rfl : position' = position + bs.length := hposition
    apply hreads a bs hbs position rest'

theorem recognises_lift
    (outcome : Except Error α) :
  (lift outcome).Recognises fun a bs => outcome = .ok a ∧ bs = []
  := by
  apply recognises_of_reads
  · rintro a bs ⟨rfl, rfl⟩ position rest
    rfl
  · intro c a c' h
    cases h
    exact ⟨[], ⟨rfl, rfl⟩, rfl, rfl⟩

theorem recognises_pure
    (a : α) :
  (pure a : Reader α).Recognises fun b bs => b = a ∧ bs = []
  := by
  apply (recognises_lift (.ok a)).congr
  intro b bs
  rw [Except.ok.injEq, eq_comm]

theorem recognises_fail
    (e : Error) :
  (fail e : Reader α).Recognises fun _ _ => False
  := by
  apply (recognises_lift (.error e)).congr
  intro a bs
  simp

theorem Recognises.bind
    {r : Reader α} {next : α → Reader β} {G : α → Bytes → Prop} {H : α → β → Bytes → Prop}
    (hr : r.Recognises G) (hnext : ∀ a, (next a).Recognises (H a)) :
  (r >>= next).Recognises fun b bs => ∃ a cs ds, G a cs ∧ H a b ds ∧ bs = cs ++ ds
  := by
  intro c b c'
  rw [bind_apply_eq_ok_iff]
  constructor
  · rintro ⟨a, c₁, h₁, h₂⟩
    obtain ⟨cs, hcs, hrest₁, hposition₁⟩ := (hr _ _ _).mp h₁
    obtain ⟨ds, hds, hrest₂, hposition₂⟩ := (hnext _ _ _ _).mp h₂
    refine ⟨cs ++ ds, ⟨a, cs, ds, hcs, hds, rfl⟩, ?_, ?_⟩
    · rw [hrest₁, hrest₂, List.append_assoc]
    · rw [hposition₂, hposition₁, List.length_append, Nat.add_assoc]
  · rintro ⟨bs, ⟨a, cs, ds, hcs, hds, rfl⟩, hrest, hposition⟩
    use a, ⟨c.position + cs.length, ds ++ c'.rest⟩
    rw [List.append_assoc] at hrest
    rw [List.length_append, ← Nat.add_assoc] at hposition
    constructor
    · apply (hr _ _ _).mpr ⟨cs, hcs, hrest, rfl⟩
    · apply (hnext _ _ _ _).mpr ⟨ds, hds, rfl, hposition⟩

/-- An outcome that is made of the value read. -/
theorem Recognises.lift
    {r : Reader α} {next : α → Except Error β} {G : α → Bytes → Prop} (hr : r.Recognises G) :
  (r >>= fun a => Reader.lift (next a)).Recognises fun b bs => ∃ a, G a bs ∧ next a = .ok b
  := by
  apply (hr.bind fun a => recognises_lift (next a)).congr
  intro b bs
  constructor
  · rintro ⟨a, cs, _, hcs, ⟨hnext, rfl⟩, rfl⟩
    rw [List.append_nil]
    exact ⟨a, hcs, hnext⟩
  · rintro ⟨a, hbs, hnext⟩
    exact ⟨a, bs, [], hbs, ⟨hnext, rfl⟩, (List.append_nil bs).symm⟩

theorem Recognises.map
    {r : Reader α} {G : α → Bytes → Prop} (f : α → β) (hr : r.Recognises G) :
  (r >>= fun a => pure (f a)).Recognises fun b bs => ∃ a, G a bs ∧ f a = b
  := by
  have lifted : (r >>= fun a => Reader.lift (.ok (f a))).Recognises
      fun b bs => ∃ a, G a bs ∧ Except.ok (ε := Error) (f a) = .ok b := hr.lift
  apply lifted.congr
  intro b bs
  simp only [Except.ok.injEq]

theorem recognises_byte :
  byte.Recognises fun b bs => bs = [b]
  := by
  apply recognises_of_reads
  · rintro b bs rfl
    apply reads_byte b
  · rintro ⟨position, rest⟩ b c' h
    cases rest with
    | nil => cases h
    | cons b' rest =>
      cases h
      exact ⟨[b], rfl, rfl, rfl⟩

theorem recognises_bytes
    (n : Nat) :
  (bytes n).Recognises fun cs bs => cs = bs ∧ bs.length = n
  := by
  apply recognises_of_reads
  · rintro cs bs ⟨rfl, hlength⟩
    apply reads_bytes hlength
  · intro c cs c' h
    rw [bytes] at h
    split at h
    next enough =>
      cases h
      rw [Cursor.has_iff, Cursor.remaining] at enough
      have hlength := List.length_take_of_le enough
      refine ⟨c.rest.take n, ⟨rfl, hlength⟩, (List.take_append_drop n c.rest).symm, ?_⟩
      rw [hlength]
      rfl
    next => cases h

theorem recognises_skip
    (n : Nat) :
  (skip n).Recognises fun _ bs => bs.length = n
  := by
  have asBytes : skip n = (do let _ ← bytes n; return ()) := by
    funext c
    change skip n c = Reader.bind (bytes n) (fun _ => pure ()) c
    rw [skip, Reader.bind, bytes]
    split <;> rfl
  rw [asBytes]
  apply ((recognises_bytes n).map fun _ => ()).congr
  simp

/-! ### Reading what is settled by the bytes moved over -/

/-- What the reader gives is settled by the bytes that it moves over. -/
def Settled (r : Reader α) : Prop :=
  ∃ G, r.Recognises G

theorem settled_pure
    (a : α) :
  (pure a : Reader α).Settled
  :=
  ⟨_, recognises_pure a⟩

theorem settled_fail
    (e : Error) :
  (fail e : Reader α).Settled
  :=
  ⟨_, recognises_fail e⟩

theorem settled_byte :
  byte.Settled
  :=
  ⟨_, recognises_byte⟩

theorem settled_bytes
    (n : Nat) :
  (bytes n).Settled
  :=
  ⟨_, recognises_bytes n⟩

theorem Settled.bind
    {r : Reader α} {next : α → Reader β} (hr : r.Settled) (hnext : ∀ a, (next a).Settled) :
  (r >>= next).Settled
  := by
  obtain ⟨G, hG⟩ := hr
  exact ⟨_, hG.bind fun a => (hnext a).choose_spec⟩

theorem Settled.map
    {r : Reader α} (f : α → β) (hr : r.Settled) :
  (r >>= fun a => pure (f a)).Settled
  :=
  hr.bind fun a => settled_pure (f a)

theorem settled_uint
    (w : Nat) :
  (uint w).Settled
  :=
  (settled_bytes w).map Bytes.littleEndian

theorem settled_lengthEncoded :
  lengthEncoded.Settled
  := by
  apply settled_byte.bind
  intro first
  split
  · apply settled_pure
  · exact (settled_uint 2).map some
  · exact (settled_uint 3).map some
  · exact (settled_uint 8).map some
  · apply settled_pure

theorem settled_lengthEncodedBytes :
  lengthEncodedBytes.Settled
  := by
  apply settled_lengthEncoded.bind
  rintro (_ | n)
  · apply settled_pure
  · exact (settled_bytes n).map some

/-- Bytes that are read whole are not read when some are missing at their end. -/
theorem Settled.exists_error
    {r : Reader α} {before after : Bytes} {a : α} (hr : r.Settled)
    (h : r.Reads (before ++ after) a) (hafter : after ≠ []) :
  ∃ e, r.run before = .error e
  := by
  obtain ⟨G, hG⟩ := hr
  cases hrun : r.run before with
  | error e => exact ⟨e, rfl⟩
  | ok b =>
    exfalso
    obtain ⟨bs, hbs, hrest, -⟩ := (hG _ _ _).mp (Prod.ext hrun rfl)
    -- The same bytes would be read in front of the missing ones, which would then be left.
    have whole := h 0 []
    have part := hG.reads hbs 0 ((r (.ofBytes before)).2.rest ++ after)
    rw [← List.append_assoc, ← hrest, Cursor.ofBytes] at part
    rw [List.append_nil, part, Prod.mk.injEq, Cursor.mk.injEq] at whole
    exact hafter (List.append_eq_nil_iff.mp whole.2.2).2

end SqlWire.Reader
