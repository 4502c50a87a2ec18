import SqlWire.Proofs.Packet.Interruption

/-!
# Readings over a transport that fails

When the reading of a frame or of a payload is not interrupted, the failures that are still to come
make no difference: `Stream.read_steady`.  A payload that is read came without a failure, and a
failure in front of its end is what interrupts its reading: `Stream.read_keeps`,
`Stream.failsBefore_of_read`.
-/

namespace SqlWire

namespace Stream

/-! ### One frame -/

section Frame

variable {s s' s₁ : Stream} {outcome : Except Error Bytes}

/-- Without an interruption, the failures that are still to come make no difference. -/
theorem FrameRead.steady
    (h : s.FrameRead outcome s') (houtcome : interrupted outcome = false) :
  s.steady.FrameRead outcome s'.steady
  := by
  cases h with
  | header hheader => exact .header (fill_steady hheader houtcome)
  | mismatch hheader hnumber => exact .mismatch (fill_steady hheader rfl) hnumber
  | content hheader hnumber hfill =>
    exact .content (fill_steady hheader rfl) hnumber (fill_steady hfill houtcome)
  | whole hheader hnumber hfill =>
    exact .whole (fill_steady hheader rfl) hnumber (fill_steady hfill rfl)

theorem FrameRead.leaves
    (h : s.FrameRead outcome s') :
  s.Leaves outcome s'
  := by
  have numbered (s₁ : Stream) : s₁.Leaves (.ok ()) { s₁ with sequence := s₁.sequence + 1 } :=
    leaves_renumber s₁ _ rfl
  cases h with
  | header hheader => exact (fill_leaves hheader).of_error
  | mismatch hheader _ => exact (fill_leaves hheader).trans rfl (leaves_renumber s' _ rfl)
  | @content _ s₁ _ hheader _ hfill =>
    exact (fill_leaves hheader).trans rfl ((numbered s₁).trans rfl (fill_leaves hfill).of_error)
  | @whole s₁ _ hheader _ hfill =>
    exact (fill_leaves hheader).trans rfl ((numbered s₁).trans rfl
      ((fill_leaves hfill).trans rfl (leaves_drop (fill_enough hfill) rfl)))

theorem readFrame_steady
    (hframe : s.readFrame = (outcome, s')) (houtcome : interrupted outcome = false) :
  s.steady.readFrame = (outcome, s'.steady)
  :=
  ((frameRead hframe).steady houtcome).readFrame_eq

theorem readFrame_leaves
    (hframe : s.readFrame = (outcome, s')) :
  s.Leaves outcome s'
  :=
  (frameRead hframe).leaves

/-- A failure is still to come in front of what the other stream has ahead. -/
def FailsBefore (s s₁ : Stream) : Prop :=
  ∃ place, s.FailsAt place ∧ place + s₁.ahead.length < s.ahead.length

theorem Reaches.failsBefore
    (h : s.Reaches s') (hfails : s'.FailsBefore s₁) :
  s.FailsBefore s₁
  := by
  obtain ⟨used, hused, hbehind⟩ := h.behind
  obtain ⟨place, hplace, hless⟩ := hfails
  exact ⟨used + place, hbehind place hplace, by omega⟩

/-- An interruption is a failure in front of the end of the frame. -/
theorem FrameRead.failsBefore
    {content : Bytes} (h : s.FrameRead outcome s') (houtcome : interrupted outcome = true)
    (hsteady : s.steady.FrameRead (.ok content) s₁) :
  s.FailsBefore s₁
  := by
  generalize hwhole : Except.ok content = whole at hsteady
  cases hsteady with
  | header | mismatch | content => cases hwhole
  | @whole t _ hheader₁ _ hfill₁ =>
    have used := length_ahead_drop (s := { t with sequence := t.sequence + 1 }) hfill₁
    change t.ahead.length = _ at used
    rw [fill_ahead hheader₁, ahead_steady] at used
    cases h with
    | header hheader =>
      obtain ⟨hplace, hless⟩ := failsAt_of_fill hheader houtcome
      have long : Frame.headerLength ≤ t.announced := Nat.le_add_right _ _
      exact ⟨_, hplace, by omega⟩
    | mismatch | whole => cases houtcome
    | @content _ s₂ _ hheader _ hfill =>
      obtain ⟨hplace, hless⟩ := failsAt_of_fill hfill houtcome
      rw [fill_steady hheader rfl] at hheader₁
      cases hheader₁
      rw [← fill_ahead hheader] at used
      exact (fill_leaves hheader).toReaches.failsBefore
        ⟨_, hplace, used ▸ Nat.add_lt_add_right hless _⟩

/-- A frame that has been read came without a failure. -/
theorem FrameRead.keeps
    {content : Bytes} (h : s.FrameRead (.ok content) s') :
  s.Keeps 0 s'
  := by
  generalize hwhole : Except.ok content = whole at h
  cases h with
  | header | mismatch | content => cases hwhole
  | @whole s₂ _ hheader _ hfill =>
    exact (keeps_fill hheader).trans ((keeps_renumber s₂ _).trans (keeps_drop hfill))

end Frame

/-! ### One payload -/

section Payload

variable {s s' s₁ : Stream} {payload : Bytes}

/-- Without an interruption, the failures that are still to come make no difference. -/
theorem read_steady
    (h : interrupted s.read.1 = false) :
  s.steady.read = (s.read.1, s.read.2.steady)
  := by
  fun_induction read s with
  | case1 s e s' hframe => exact read_eq_error (readFrame_steady hframe h)
  | case2 s content s' hframe _ hshort =>
    exact read_eq_ok_of_lt (readFrame_steady hframe rfl) hshort
  | case3 s content s' hframe _ hlong e s'' hread ih =>
    rw [hread] at ih
    exact read_eq_error_of_not_lt (readFrame_steady hframe rfl) hlong (ih h)
  | case4 s content s' hframe _ hlong more s'' hread ih =>
    rw [hread] at ih
    exact read_eq_ok_of_not_lt (readFrame_steady hframe rfl) hlong (ih rfl)

theorem read_leaves
    (s : Stream) :
  s.Leaves s.read.1 s.read.2
  := by
  fun_induction read s with
  | case1 s e s' hframe => exact readFrame_leaves hframe
  | case2 s content s' hframe _ hshort => exact readFrame_leaves hframe
  | case3 s content s' hframe _ hlong e s'' hread ih =>
    rw [hread] at ih
    exact (readFrame_leaves hframe).trans rfl ih
  | case4 s content s' hframe _ hlong more s'' hread ih =>
    rw [hread] at ih
    exact (readFrame_leaves hframe).trans rfl
      (ih.trans rfl (leaves_renumber s'' s''.sequence rfl))

/-- A payload that has been read came without a failure. -/
theorem read_keeps
    (hread : s.read = (.ok payload, s')) :
  s.Keeps 0 s'
  := by
  fun_induction read s generalizing payload with
  | case1 | case3 => cases hread
  | case2 s content s' hframe _ hshort =>
    cases hread
    exact (frameRead hframe).keeps
  | case4 s content s' hframe _ hlong more s'' hmore ih =>
    cases hread
    exact (frameRead hframe).keeps.trans (ih hmore)

/-- A payload that has been read started with a frame. -/
theorem exists_readFrame
    (hread : s.read = (.ok payload, s₁)) :
  ∃ content s', s.readFrame = (.ok content, s') ∧
    (content.length < Frame.maxLength ∧ s' = s₁ ∨
      ¬ content.length < Frame.maxLength ∧ ∃ more, s'.read = (.ok more, s₁))
  := by
  rcases hframe : s.readFrame with ⟨e | content, s'⟩
  · rw [read_eq_error hframe] at hread
    cases hread
  · refine ⟨content, s', rfl, ?_⟩
    by_cases hshort : content.length < Frame.maxLength
    · rw [read_eq_ok_of_lt hframe hshort] at hread
      cases hread
      exact .inl ⟨hshort, rfl⟩
    · rcases hmore : s'.read with ⟨e | more, s''⟩
      · rw [read_eq_error_of_not_lt hframe hshort hmore] at hread
        cases hread
      · rw [read_eq_ok_of_not_lt hframe hshort hmore] at hread
        cases hread
        exact .inr ⟨hshort, more, rfl⟩

/-- An interruption is a failure in front of the end of the payload. -/
theorem failsBefore_of_read
    (h : interrupted s.read.1 = true) (hsteady : s.steady.read = (.ok payload, s₁)) :
  s.FailsBefore s₁
  := by
  fun_induction read s generalizing payload with
  | case1 s e s' hframe =>
    obtain ⟨content, s₂, hframe₂, hrest⟩ := exists_readFrame hsteady
    obtain ⟨place, hplace, hless⟩ := (frameRead hframe).failsBefore h (frameRead hframe₂)
    refine ⟨place, hplace, ?_⟩
    rcases hrest with ⟨-, rfl⟩ | ⟨-, more, hmore⟩
    · exact hless
    · obtain ⟨used, hused, -⟩ := s₂.read_leaves.behind
      rw [hmore] at hused
      dsimp only at hused
      omega
  | case2 s content s' hframe _ hshort => cases h
  | case3 s content s' hframe _ hlong e s'' hread ih =>
    rw [hread] at ih
    obtain ⟨content₂, s₂, hframe₂, hrest⟩ := exists_readFrame hsteady
    rw [readFrame_steady hframe rfl] at hframe₂
    cases hframe₂
    rcases hrest with ⟨hshort, -⟩ | ⟨-, more, hmore⟩
    · contradiction
    · exact (readFrame_leaves hframe).toReaches.failsBefore (ih h hmore)
  | case4 s content s' hframe _ hlong more s'' hread ih => cases h

/-- What a reading gives depends on the first frame and on what is left behind it. -/
theorem read_congr
    (h : s.readFrame = s'.readFrame) :
  s.read = s'.read
  := by
  rcases hframe : s'.readFrame with ⟨e | content, s₂⟩
  · rw [read_eq_error hframe, read_eq_error (h.trans hframe)]
  by_cases hshort : content.length < Frame.maxLength
  · rw [read_eq_ok_of_lt hframe hshort, read_eq_ok_of_lt (h.trans hframe) hshort]
  rcases hmore : s₂.read with ⟨e | more, s₃⟩
  · rw [read_eq_error_of_not_lt hframe hshort hmore,
      read_eq_error_of_not_lt (h.trans hframe) hshort hmore]
  · rw [read_eq_ok_of_not_lt hframe hshort hmore,
      read_eq_ok_of_not_lt (h.trans hframe) hshort hmore]

/-- When every failure in front of the end of the payload is in its first header, an interruption
leaves the stream as it would be without the failure. -/
theorem read_steady_of_interrupted
    (h : interrupted s.read.1 = true) (hsteady : s.steady.read = (.ok payload, s₁))
    (hheader : ∀ place, s.FailsAt place → place + s₁.ahead.length < s.ahead.length →
      place < Frame.headerLength) :
  ∃ e, e.isTransport = true ∧ s.fill Frame.headerLength = (.error e, s.read.2) ∧
    s.read.2.steady.read = (.ok payload, s₁)
  := by
  rcases hfill : s.fill Frame.headerLength with ⟨e | ⟨⟩, s'⟩
  · rw [read_eq_error (FrameRead.header hfill).readFrame_eq] at h ⊢
    refine ⟨e, h, rfl, ?_⟩
    have filled : s.steady.fill Frame.headerLength = s'.steady.fill Frame.headerLength :=
      fill_steady_of_interrupted hfill h
    rw [← hsteady]
    apply read_congr
    rw [readFrame, readFrame, filled]
  · obtain ⟨place, hplace, hless⟩ := failsBefore_of_read h hsteady
    have early := hheader place hplace hless
    have late := le_of_failsAt hfill hplace
    omega

end Payload

end Stream

end SqlWire
