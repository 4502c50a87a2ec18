import SqlWire.Proofs.Packet.Steadiness

/-!
# Readings tried again

After a failure of the transport the reading of a payload can be tried again, which
`Stream.persist` does until there is another outcome.  Payloads are then read as over a transport
that never fails exactly when it fails only in headers that payloads start with:
`Stream.persists_steady`.  A failure anywhere else is not made good, since the number of a frame
counts as used before its content has come, and the frames of a payload in front of the failure are
lost: `Stream.persist_cases` says what there is to expect.
-/

namespace SqlWire

namespace Stream

/-! ### Reading again -/

/-- The next payload, when reading is tried again after each failure of the transport, as often as
there is fuel. -/
def retry : Nat → Stream → Except Error Bytes × Stream
  | 0, s => s.read
  | fuel + 1, s => if interrupted s.read.1 then s.read.2.retry fuel else s.read

/-- The next payload, when reading is tried again after each failure of the transport. -/
def persist (s : Stream) : Except Error Bytes × Stream :=
  s.retry s.failures

/-- The outcomes of reading as many payloads one after another in this way. -/
def persists : Nat → Stream → List (Except Error Bytes) × Stream
  | 0, s => ([], s)
  | n + 1, s =>
    let (outcome, s) := s.persist
    let (outcomes, s) := s.persists n
    (outcome :: outcomes, s)

section Again

variable {s s₁ : Stream} {payload more : Bytes}

theorem persist_of_interrupted
    (h : interrupted s.read.1 = true) :
  s.persist = s.read.2.persist
  := by
  have one := s.read_leaves.failures
  rw [h] at one
  rw [persist, ← one, Bool.toNat_true, retry, if_pos h]
  rfl

theorem persist_of_not_interrupted
    (h : interrupted s.read.1 = false) :
  s.persist = s.read
  := by
  rw [persist]
  cases s.failures with
  | zero => rfl
  | succ fuel => rw [retry, h, if_neg Bool.false_ne_true]

theorem failures_read_lt
    (h : interrupted s.read.1 = true) :
  s.read.2.failures < s.failures
  := by
  have one := s.read_leaves.failures
  rw [h] at one
  exact Nat.lt_of_succ_le (Nat.le_of_eq one)

/-- In the end there is another outcome than a failure of the transport. -/
theorem interrupted_persist
    (s : Stream) :
  interrupted s.persist.1 = false
  := by
  induction hn : s.failures using Nat.strongRecOn generalizing s with
  | ind n ih =>
    cases h : interrupted s.read.1 with
    | false => rw [persist_of_not_interrupted h, h]
    | true =>
      rw [persist_of_interrupted h]
      apply ih _ _ _ rfl
      rw [← hn]
      apply failures_read_lt h

/-- When every failure in front of the end of the payload is in its first header, the payload is
read as if there were none. -/
theorem persist_eq_ok
    (hsteady : s.steady.read = (.ok payload, s₁))
    (hheader : ∀ place, s.FailsAt place → place + s₁.ahead.length < s.ahead.length →
      place < Frame.headerLength) :
  ∃ s', s.persist = (.ok payload, s') ∧ s'.steady = s₁ ∧ s.Reaches s' ∧
    s.Keeps Frame.headerLength s'
  := by
  -- On the number of failures: a reading that is interrupted has taken one of them.
  induction hn : s.failures using Nat.strongRecOn generalizing s with
  | ind n ih =>
    cases h : interrupted s.read.1 with
    | false =>
      have outcome := read_steady h
      rw [hsteady, Prod.mk.injEq] at outcome
      have hread : s.read = (.ok payload, s.read.2) := Prod.ext outcome.1.symm rfl
      refine ⟨s.read.2, ?_, outcome.2.symm, s.read_leaves.toReaches,
        (read_keeps hread).mono (Nat.zero_le _)⟩
      rw [persist_of_not_interrupted h, outcome.1]
    | true =>
      obtain ⟨e, he, hfill, hagain⟩ := read_steady_of_interrupted h hsteady hheader
      obtain ⟨s', hpersist, hsteady', hreaches', hkeeps'⟩ :=
        ih _ (hn ▸ failures_read_lt h) hagain (fun place hplace hless =>
          hheader place (hplace.of_fill hfill) (fill_ahead hfill ▸ hless)) rfl
      exact ⟨s', (persist_of_interrupted h).trans hpersist, hsteady',
        s.read_leaves.toReaches.trans hreaches', keeps_of_interrupted hfill he hkeeps'⟩

/-! ### Failures in other places -/

/-- Behind a header whose number is not the one expected, nothing is read any more. -/
theorem read_of_number_ne
    (hheader : Frame.headerLength ≤ s.buffered.length) (hnumber : s.number ≠ s.sequence) :
  s.read = (.error (.protocol (.sequenceMismatch s.sequence s.number)), s)
  := by
  have hfill : s.fill Frame.headerLength = (.ok (), s) := by
    rw [fill_eq, Nat.sub_eq_zero_of_le hheader, Arrival.take]
    simp only [List.append_nil]
  apply read_eq_error (FrameRead.mismatch hfill hnumber).readFrame_eq

/-- After a failure in the content of a frame, its number is no longer the one expected. -/
theorem read_of_content
    {e : Error} (hheader : Frame.headerLength ≤ s.buffered.length) (hnumber : s.number = s.sequence)
    (hfill : { s with sequence := s.sequence + 1 }.fill s.announced = (.error e, s₁)) :
  s₁.read = (.error (.protocol (.sequenceMismatch (s.sequence + 1) s.sequence)), s₁)
  := by
  have next : s₁.sequence = s.sequence + 1 := by rw [fill_kept hfill]
  obtain ⟨more, hmore⟩ := buffered_fill s.announced { s with sequence := s.sequence + 1 }
  rw [hfill] at hmore
  dsimp only at hmore
  have number₁ : s₁.number = s.sequence := by
    rw [← hnumber, number, number, hmore, List.getD_eq_getElem?_getD,
      List.getElem?_append_left hheader, List.getD_eq_getElem?_getD]
  have header₁ : Frame.headerLength ≤ s₁.buffered.length := by
    rw [hmore, List.length_append]
    apply Nat.le_add_right_of_le hheader
  have stuck := read_of_number_ne header₁ (by rw [number₁, next]; simp)
  rw [stuck, number₁, next]

/-- A failure behind a full frame loses the frame. -/
theorem persist_of_readFrame
    {content : Bytes} (hframe : s.readFrame = (.ok content, s₁))
    (hfull : ¬ content.length < Frame.maxLength) (h : interrupted s₁.read.1 = true) :
  s.persist = s₁.persist
  := by
  rcases hmore : s₁.read with ⟨e | more, s₂⟩
  · have hread := read_eq_error_of_not_lt hframe hfull hmore
    have hsame : interrupted s.read.1 = true := by
      rw [hread]
      rw [hmore] at h
      exact h
    rw [persist_of_interrupted hsame, persist_of_interrupted h, hread, hmore]
  · rw [hmore] at h
    cases h

/-- Wherever the transport fails, either the first frame is read in the end, and no failure came
behind its header, or its header is found when its number has already been counted as used. -/
theorem persist_frame
    {f : Frame} (hopen : .chunk [] ∉ s.arrivals)
    (hfits : f.content.length ≤ Frame.maxLength) (hsequence : f.sequence = s.sequence)
    (hahead : s.ahead = f.toBytes ++ more) :
  s.persist.1 = .error (.protocol (.sequenceMismatch (f.sequence + 1) f.sequence)) ∨
    ∃ t t' : Stream, s.persist = t.persist ∧ t.readFrame = (.ok f.content, t') ∧
      .chunk [] ∉ t'.arrivals ∧ t'.sequence = f.sequence + 1 ∧ t'.ahead = more ∧
      s.Keeps Frame.headerLength t'
  := by
  -- On the number of failures, of which an interruption in the header takes one.
  induction hn : s.failures using Nat.strongRecOn generalizing s with
  | ind n ih =>
    rcases hframe : s.readFrame with ⟨outcome, s'⟩
    have leaves := readFrame_leaves hframe
    cases h : interrupted outcome with
    | false =>
      right
      obtain ⟨s₂, hsteady, hafter⟩ := readFrame_eq_ok (s := s.steady)
        (Arrival.flow_steady hopen) hfits hsequence (s.ahead_steady.trans hahead)
      rw [readFrame_steady hframe h] at hsteady
      cases hsteady
      have number : s'.sequence = f.sequence + 1 := by
        rw [hsequence]
        exact hafter.sequence
      exact ⟨s, s', rfl, hframe, leaves.isOpen hopen, number,
        s'.ahead_steady.symm.trans hafter.ahead, (frameRead hframe).keeps.mono (Nat.zero_le _)⟩
    | true =>
      cases outcome with
      | ok content => cases h
      | error e =>
        have hread := read_eq_error hframe
        have hagain : s.persist = s'.persist := by
          rw [persist_of_interrupted (by rw [hread]; exact h), hread]
        have fewer : s'.failures < n := by
          have one := leaves.failures
          rw [h, hn] at one
          exact Nat.lt_of_succ_le (Nat.le_of_eq one)
        cases frameRead hframe with
        | header hheader =>
          have expected : s'.sequence = s.sequence := by rw [fill_kept hheader]
          rw [hagain]
          rcases ih _ fewer (leaves.isOpen hopen) (hsequence.trans expected.symm)
            ((fill_ahead hheader).trans hahead) rfl with
            hstuck | ⟨t, t', hpersist, hframe', hopen', hnumber, hmore, hkeeps⟩
          · exact .inl hstuck
          · exact .inr ⟨t, t', hpersist, hframe', hopen', hnumber, hmore,
              keeps_of_interrupted hheader h hkeeps⟩
        | mismatch => cases h
        | @content _ s₁ _ hheader hnumber hfill =>
          left
          have expected : s₁.sequence = s.sequence := by rw [fill_kept hheader]
          have stuck := read_of_content (fill_enough hheader) hnumber hfill
          rw [hagain, persist_of_not_interrupted (by rw [stuck]; rfl), stuck, hsequence, expected]

/-- Wherever the transport fails, the payload is read in the end, and no failure came behind its
first header; or no more than the contents of its last frames are read; or a header is found when
its number has already been counted as used. -/
theorem persist_cases
    (payload : Bytes) {s : Stream} (hopen : .chunk [] ∉ s.arrivals)
    (hahead : s.ahead = (Frame.split s.sequence payload).flatMap Frame.toBytes ++ more) :
  (∃ s', s.persist = (.ok payload, s') ∧ s'.ahead = more ∧ s.Keeps Frame.headerLength s') ∨
    (∃ part, part <:+ payload ∧ part ≠ payload ∧ s.persist.1 = .ok part) ∨
    ∃ number, s.persist.1 = .error (.protocol (.sequenceMismatch (number + 1) number))
  := by
  generalize hsequence : s.sequence = sequence at hahead
  induction sequence, payload using Frame.split.induct generalizing s with
  | case1 sequence payload hshort =>
    rw [Frame.split, if_pos hshort, List.flatMap_singleton] at hahead
    rcases persist_frame hopen (Nat.le_of_lt hshort) hsequence.symm hahead with
      hstuck | ⟨t, t', hagain, hframe, -, -, hmore, hkeeps⟩
    · exact .inr (.inr ⟨sequence, hstuck⟩)
    · left
      have hread := read_eq_ok_of_lt hframe hshort
      refine ⟨t', ?_, hmore, hkeeps⟩
      rw [hagain, persist_of_not_interrupted (by rw [hread]; rfl), hread]
  | case2 sequence payload hfull ih =>
    rw [Frame.split, if_neg hfull, List.flatMap_cons, List.append_assoc] at hahead
    have full : ¬ (payload.take Frame.maxLength).length < Frame.maxLength := by
      rw [List.length_take]
      omega
    rcases persist_frame hopen (List.length_take_le _ _) hsequence.symm hahead with
      hstuck | ⟨t, t', hagain, hframe, hopen', hsequence', hahead', hkeeps⟩
    · exact .inr (.inr ⟨sequence, hstuck⟩)
    cases h : interrupted t'.read.1 with
    | false =>
      left
      obtain ⟨s₂, hsteady, hafter⟩ := read_eq_ok _ (s := t'.steady) (Arrival.flow_steady hopen')
        (t'.ahead_steady.trans (hsequence' ▸ hahead'))
      rw [read_steady h, Prod.mk.injEq] at hsteady
      obtain ⟨houtcome, rfl⟩ := hsteady
      have hrest : t'.read = (.ok (payload.drop Frame.maxLength), t'.read.2) :=
        Prod.ext houtcome rfl
      have hread := read_eq_ok_of_not_lt hframe full hrest
      refine ⟨t'.read.2, ?_, t'.read.2.ahead_steady.symm.trans hafter.ahead,
        hkeeps.trans (read_keeps hrest)⟩
      rw [hagain, persist_of_not_interrupted (by rw [hread]; rfl), hread, List.take_append_drop]
    | true =>
      -- Reading again starts behind the first frame, and takes the rest for a payload of its own.
      right
      have shorter {part : Bytes} (hpart : part <:+ payload.drop Frame.maxLength) :
          part ≠ payload := by
        rintro rfl
        have length := hpart.length_le
        rw [List.length_drop] at length
        rw [Frame.maxLength] at hfull length
        omega
      rw [hagain, persist_of_readFrame hframe full h]
      rcases ih hopen' hsequence' hahead' with ⟨s', hrest, -⟩ | ⟨part, hpart, -, houtcome⟩ | hstuck
      · exact .inl ⟨_, List.drop_suffix _ _, shorter List.suffix_rfl, congrArg Prod.fst hrest⟩
      · exact .inl ⟨part, hpart.trans (List.drop_suffix _ _), shorter hpart, houtcome⟩
      · exact .inr hstuck

/-- When every failure in front of the end of the payload is in its first header, the payload is
read, and its frames are used. -/
theorem persist_of_header
    (hopen : .chunk [] ∉ s.arrivals)
    (hahead : s.ahead = (Frame.split s.sequence payload).flatMap Frame.toBytes ++ more)
    (hheader : ∀ place, s.FailsAt place →
      place < ((Frame.split s.sequence payload).flatMap Frame.toBytes).length →
      place < Frame.headerLength) :
  ∃ s', s.persist = (.ok payload, s') ∧ s.steady.read = (.ok payload, s'.steady) ∧
    s.steady.After (Frame.split s.sequence payload).length more s'.steady ∧ s.Reaches s' ∧
    s.Keeps Frame.headerLength s'
  := by
  obtain ⟨s₁, hsteady, hafter⟩ :=
    read_eq_ok payload (s := s.steady) (Arrival.flow_steady hopen) (s.ahead_steady.trans hahead)
  have header₁ (place : Nat) (hplace : s.FailsAt place)
      (hless : place + s₁.ahead.length < s.ahead.length) : place < Frame.headerLength := by
    apply hheader place hplace
    rw [hahead, hafter.ahead, List.length_append] at hless
    apply Nat.lt_of_add_lt_add_right hless
  obtain ⟨s', hpersist, rfl, hreaches, hkeeps⟩ := persist_eq_ok hsteady header₁
  exact ⟨s', hpersist, hsteady, hafter, hreaches, hkeeps⟩

/-- The payload is read in the end exactly when every failure in front of its end is in its first
header. -/
theorem persist_eq_ok_iff
    (hopen : .chunk [] ∉ s.arrivals)
    (hahead : s.ahead = (Frame.split s.sequence payload).flatMap Frame.toBytes ++ more) :
  s.persist.1 = .ok payload ↔
    ∀ place, s.FailsAt place →
      place < ((Frame.split s.sequence payload).flatMap Frame.toBytes).length →
      place < Frame.headerLength
  := by
  constructor
  · intro h place hplace hless
    by_contra hlate
    rcases persist_cases payload hopen hahead with
      ⟨s', hpersist, hmore, used, hused, hkept⟩ | ⟨part, -, hpart, houtcome⟩ | ⟨number, hstuck⟩
    · obtain ⟨behind, rfl, -⟩ := hkept place (Nat.le_of_not_lt hlate) hplace
      rw [hahead, hmore, List.length_append] at hused
      omega
    · cases houtcome.symm.trans h
      contradiction
    · cases hstuck.symm.trans h
  · intro hheader
    obtain ⟨s', hpersist, -⟩ := persist_of_header hopen hahead hheader
    rw [hpersist]

/-- When the payload is read in the end, it is read as if there were no failures, and those behind
it are still to come. -/
theorem persist_of_eq_ok
    (hopen : .chunk [] ∉ s.arrivals)
    (hahead : s.ahead = (Frame.split s.sequence payload).flatMap Frame.toBytes ++ more)
    (h : s.persist.1 = .ok payload) :
  ∃ s', s.persist = (.ok payload, s') ∧ s.steady.read = (.ok payload, s'.steady) ∧
    .chunk [] ∉ s'.arrivals ∧
    s'.sequence = s.sequence + UInt8.ofNat (Frame.split s.sequence payload).length ∧
    s'.ahead = more ∧
    ∀ behind, s'.FailsAt behind ↔
      s.FailsAt (((Frame.split s.sequence payload).flatMap Frame.toBytes).length + behind)
  := by
  obtain ⟨s', hpersist, hsteady, hafter, hreaches, hkeeps⟩ :=
    persist_of_header hopen hahead ((persist_eq_ok_iff hopen hahead).mp h)
  have hmore := s'.ahead_steady.symm.trans hafter.ahead
  refine ⟨s', hpersist, hsteady, hreaches.isOpen hopen, hafter.sequence, hmore, ?_⟩
  intro behind
  constructor
  · intro hfails
    obtain ⟨used, hused, hbehind⟩ := hreaches.behind
    rw [hahead, hmore, List.length_append] at hused
    rw [Nat.add_right_cancel hused]
    apply hbehind behind hfails
  · intro hfails
    have long := Frame.headerLength_le_split s.sequence payload
    obtain ⟨used, hused, hkept⟩ := hkeeps
    rw [hahead, hmore, List.length_append] at hused
    obtain rfl := Nat.add_right_cancel hused
    obtain ⟨behind', heq, hfails'⟩ := hkept _ (Nat.le_add_right_of_le long) hfails
    rw [Nat.add_left_cancel heq]
    apply hfails'

end Again

end Stream

/-! ### Payloads one after another -/

namespace Frame

/-- The bytes of the frames of payloads that are sent one after another. -/
def bytesAll (sequence : UInt8) (payloads : List Bytes) : Bytes :=
  (splitAll sequence payloads).flatten.flatMap toBytes

/-- The place is in the header that a payload starts with. -/
def OpensAt (sequence : UInt8) (payloads : List Bytes) (place : Nat) : Prop :=
  ∃ earlier payload later, payloads = earlier ++ payload :: later ∧
    (bytesAll sequence earlier).length ≤ place ∧
    place < (bytesAll sequence earlier).length + headerLength

theorem bytesAll_cons
    (sequence : UInt8) (payload : Bytes) (payloads : List Bytes) :
  bytesAll sequence (payload :: payloads) = (split sequence payload).flatMap toBytes ++
    bytesAll (sequence + UInt8.ofNat (split sequence payload).length) payloads
  := by
  rw [bytesAll, splitAll, List.flatten_cons, List.flatMap_append]
  rfl

/-- A header that a payload starts with is the first, or is behind the first payload. -/
theorem opensAt_cons
    (sequence : UInt8) (payload : Bytes) (payloads : List Bytes) (place : Nat) :
  OpensAt sequence (payload :: payloads) place ↔
    place < headerLength ∨
    ∃ behind, place = ((split sequence payload).flatMap toBytes).length + behind ∧
      OpensAt (sequence + UInt8.ofNat (split sequence payload).length) payloads behind
  := by
  constructor
  · rintro ⟨earlier, payload', later, hpayloads, hfrom, hto⟩
    cases earlier with
    | nil =>
      left
      simpa [bytesAll, splitAll] using hto
    | cons first earlier =>
      right
      cases hpayloads
      rw [bytesAll_cons, List.length_append] at hfrom hto
      obtain ⟨behind, rfl⟩ := Nat.exists_eq_add_of_le (Nat.le_of_add_right_le hfrom)
      exact ⟨behind, rfl, earlier, payload', later, rfl, by omega, by omega⟩
  · rintro (hplace | ⟨behind, rfl, earlier, payload', later, rfl, hfrom, hto⟩)
    · exact ⟨[], payload, payloads, rfl, Nat.zero_le _, Nat.lt_add_left _ hplace⟩
    · refine ⟨payload :: earlier, payload', later, rfl, ?_, ?_⟩
      · rw [bytesAll_cons, List.length_append]
        omega
      · rw [bytesAll_cons, List.length_append]
        omega

end Frame

namespace Stream

variable {s : Stream} {payloads : List Bytes} {more : Bytes}

theorem interrupted_of_mem_persists
    {n : Nat} {outcome : Except Error Bytes} (h : outcome ∈ (s.persists n).1) :
  interrupted outcome = false
  := by
  induction n generalizing s with
  | zero => cases h
  | succ n ih =>
    rcases List.mem_cons.mp h with rfl | h
    · apply interrupted_persist
    · apply ih h

/-- All payloads are read in the end exactly when the transport fails only in headers that they
start with. -/
theorem persists_eq_ok_iff
    (hopen : .chunk [] ∉ s.arrivals)
    (hahead : s.ahead = Frame.bytesAll s.sequence payloads ++ more) :
  (s.persists payloads.length).1 = payloads.map .ok ↔
    ∀ place, s.FailsAt place → place < (Frame.bytesAll s.sequence payloads).length →
      Frame.OpensAt s.sequence payloads place
  := by
  induction payloads generalizing s with
  | nil => exact ⟨fun _ _ _ => nofun, fun _ => rfl⟩
  | cons payload payloads ih =>
    rw [Frame.bytesAll_cons, List.append_assoc] at hahead
    simp only [Frame.bytesAll_cons, List.length_append, Frame.opensAt_cons]
    have one := persist_eq_ok_iff hopen hahead
    have rest (h : s.persist.1 = .ok payload) :
        (s.persist.2.persists payloads.length).1 = payloads.map .ok ↔
          ∀ behind, s.FailsAt
              (((Frame.split s.sequence payload).flatMap Frame.toBytes).length + behind) →
            behind < (Frame.bytesAll
              (s.sequence + UInt8.ofNat (Frame.split s.sequence payload).length) payloads).length →
            Frame.OpensAt (s.sequence + UInt8.ofNat (Frame.split s.sequence payload).length)
              payloads behind := by
      obtain ⟨s', hpersist, -, hopen', hsequence', hahead', hfails⟩ :=
        persist_of_eq_ok hopen hahead h
      simp only [hpersist, ← hfails, ← hsequence']
      apply ih hopen'
      rw [hahead', hsequence']
    constructor
    · intro h place hplace hless
      have first : s.persist.1 = .ok payload := (List.cons.inj h).1
      rcases Nat.lt_or_ge place
        ((Frame.split s.sequence payload).flatMap Frame.toBytes).length with hearly | hlate
      · exact .inl (one.mp first place hplace hearly)
      · obtain ⟨behind, rfl⟩ := Nat.exists_eq_add_of_le hlate
        exact .inr ⟨behind, rfl,
          (rest first).mp (List.cons.inj h).2 behind hplace (Nat.lt_of_add_lt_add_left hless)⟩
    · intro hplaces
      have long := Frame.headerLength_le_split s.sequence payload
      have first : s.persist.1 = .ok payload := one.mpr fun place hplace hless => by
        rcases hplaces place hplace (by omega) with hheader | ⟨behind, rfl, -⟩
        · exact hheader
        · omega
      have others := (rest first).mpr fun behind hbehind hless => by
        rcases hplaces _ hbehind (Nat.add_lt_add_left hless _) with hheader | ⟨_, heq, hopens⟩
        · omega
        · rw [Nat.add_left_cancel heq]
          exact hopens
      exact congrArg₂ List.cons first others

/-- When all payloads are read in the end, they are read as if there were no failures. -/
theorem reads_steady_of_persists
    (hopen : .chunk [] ∉ s.arrivals)
    (hahead : s.ahead = Frame.bytesAll s.sequence payloads ++ more)
    (h : (s.persists payloads.length).1 = payloads.map .ok) :
  s.steady.reads payloads.length = (payloads.map .ok, (s.persists payloads.length).2.steady)
  := by
  induction payloads generalizing s with
  | nil => rfl
  | cons payload payloads ih =>
    rw [Frame.bytesAll_cons, List.append_assoc] at hahead
    obtain ⟨s', hpersist, hsteady, hopen', hsequence', hahead', -⟩ :=
      persist_of_eq_ok hopen hahead (List.cons.inj h).1
    have others : (s.persist.2.persists payloads.length).1 = payloads.map .ok :=
      (List.cons.inj h).2
    rw [hpersist] at others
    have hreads := ih (s := s') hopen' (by rw [hahead', hsequence']) others
    rw [List.length_cons, reads, hsteady, persists, hpersist]
    simp only [hreads, List.map_cons]

/-- Reading again after each failure of the transport ends in other outcomes.  Payloads are read in
this way as over a transport that never fails exactly when it fails only in headers that payloads
start with. -/
theorem persists_steady
    (hopen : .chunk [] ∉ s.arrivals)
    (hahead : s.ahead = Frame.bytesAll s.sequence payloads ++ more) :
  (s.steady.reads payloads.length).1 = payloads.map .ok ∧
  (∀ outcome ∈ (s.persists payloads.length).1, interrupted outcome = false) ∧
  (s.steady.reads payloads.length =
      ((s.persists payloads.length).1, (s.persists payloads.length).2.steady) ↔
    ∀ place, s.FailsAt place → place < (Frame.bytesAll s.sequence payloads).length →
      Frame.OpensAt s.sequence payloads place)
  := by
  obtain ⟨s₁, hreads, -⟩ :=
    reads_eq_ok payloads (s := s.steady) (Arrival.flow_steady hopen) (s.ahead_steady.trans hahead)
  rw [← persists_eq_ok_iff hopen hahead]
  refine ⟨by rw [hreads], fun _ => interrupted_of_mem_persists, ?_, ?_⟩
  · intro same
    exact (congrArg Prod.fst same).symm.trans (congrArg Prod.fst hreads)
  · intro outcomes
    rw [reads_steady_of_persists hopen hahead outcomes, outcomes]

/-- Two payloads, in chunks that cut through both headers, with failures at each cut. -/
theorem persists_steady_headers :
  let s := ofArrivals [.failure "a", .chunk [1, 0], .failure "b", .failure "c",
    .chunk [0, 0, 0x2a, 3], .failure "d", .chunk [0, 0, 1, 1, 2, 3]] false none
  .chunk [] ∉ s.arrivals ∧ s.ahead = Frame.bytesAll 0 [[0x2a], [1, 2, 3]] ∧
  s.steady.reads 2 = ((s.persists 2).1, (s.persists 2).2.steady) ∧
  (s.persists 2).1 = [.ok [0x2a], .ok [1, 2, 3]]
  := by
  intro s
  have first : Frame.bytesAll 0 [[0x2a]] = [1, 0, 0, 0, 0x2a] := by
    simp (disch := decide) only [Frame.bytesAll, Frame.splitAll, Frame.split_of_lt]
    rfl
  have both : Frame.bytesAll 0 [[0x2a], [1, 2, 3]] = [1, 0, 0, 0, 0x2a, 3, 0, 0, 1, 1, 2, 3] := by
    simp (disch := decide) only [Frame.bytesAll, Frame.splitAll, Frame.split_of_lt]
    rfl
  have hopen : .chunk [] ∉ s.arrivals := by decide
  have ahead : s.ahead = Frame.bytesAll 0 [[0x2a], [1, 2, 3]] := by
    rw [both]
    rfl
  have opens (place : Nat) (hplace : s.FailsAt place)
      (_hless : place < (Frame.bytesAll 0 [[0x2a], [1, 2, 3]]).length) :
      Frame.OpensAt 0 [[0x2a], [1, 2, 3]] place := by
    obtain ⟨behind, hfails, rfl⟩ := hplace
    simp only [s, ofArrivals, Arrival.failsAt_failure, Arrival.failsAt_chunk,
      Arrival.not_failsAt_nil, and_false, exists_false, or_false] at hfails
    rcases hfails with rfl | ⟨_, rfl, rfl | rfl | ⟨_, rfl, rfl⟩⟩
    · exact ⟨[], [0x2a], [[1, 2, 3]], rfl, by decide, by decide⟩
    · exact ⟨[], [0x2a], [[1, 2, 3]], rfl, by decide, by decide⟩
    · exact ⟨[], [0x2a], [[1, 2, 3]], rfl, by decide, by decide⟩
    · exact ⟨[[0x2a]], [1, 2, 3], [], rfl, by rw [first]; decide, by rw [first]; decide⟩
  have whole : s.ahead = Frame.bytesAll 0 [[0x2a], [1, 2, 3]] ++ [] := by
    rw [List.append_nil]
    exact ahead
  obtain ⟨outcomes, -, exactly⟩ := persists_steady hopen whole
  have same := exactly.mpr opens
  exact ⟨hopen, ahead, same, (congrArg Prod.fst same).symm.trans outcomes⟩

/-- A failure in the content of a frame is not made good: the frame is found again when its number
has already been counted as used. -/
theorem not_persists_steady :
  ¬ ∀ (s : Stream) (payloads : List Bytes), .chunk [] ∉ s.arrivals →
    s.ahead = Frame.bytesAll s.sequence payloads →
    s.steady.reads payloads.length =
      ((s.persists payloads.length).1, (s.persists payloads.length).2.steady)
  := by
  intro h
  let s := ofArrivals [.chunk [1, 0, 0, 0], .failure "boom", .chunk [0x2a]] false none
  let s₁ : Stream :=
    { ofArrivals [.chunk [0x2a]] false none with buffered := [1, 0, 0, 0], sequence := 1 }
  have cut : s.read = (.error (.transport "boom"), s₁) := read_eq_error rfl
  have stuck : s₁.read = (.error (.protocol (.sequenceMismatch 1 0)), s₁) :=
    read_of_number_ne (by decide) (by decide)
  have persisted : s.persist = (.error (.protocol (.sequenceMismatch 1 0)), s₁) := by
    rw [persist_of_interrupted (by rw [cut]; rfl), cut,
      persist_of_not_interrupted (by rw [stuck]; rfl), stuck]
  have whole : s.steady.read = (.ok [0x2a], { ofArrivals [] false none with sequence := 1 }) :=
    read_eq_ok_of_lt rfl (by decide)
  have ahead : s.ahead = Frame.bytesAll 0 [[0x2a]] := by
    simp (disch := decide) only [Frame.bytesAll, Frame.splitAll, Frame.split_of_lt]
    rfl
  have same := congrArg Prod.fst (h s [[0x2a]] (by decide) ahead)
  simp only [List.length_singleton, reads, persists, whole, persisted] at same
  cases same

end Stream

end SqlWire
