import SqlWire.Packet.Stream

/-!
# The reading of a frame

`Stream.FrameRead` tells the ways in which the reading of a frame goes apart, by where it ends:
`Stream.frameRead`.
-/

namespace SqlWire

namespace Stream

/-! ### Taking bytes -/

section Fill

variable {n : Nat} {s s' : Stream} {outcome : Except Error Unit}

theorem fill_eq
    (n : Nat) (s : Stream) :
  s.fill n =
    ((Arrival.take requestSize (n - s.buffered.length) s.arrivals).1, { s with
      arrivals := (Arrival.take requestSize (n - s.buffered.length) s.arrivals).2.2
      buffered :=
        s.buffered ++ (Arrival.take requestSize (n - s.buffered.length) s.arrivals).2.1 })
  :=
  rfl

/-- Taking bytes changes no more than what is buffered and what is still to come. -/
theorem fill_kept
    (hfill : s.fill n = (outcome, s')) :
  s' = { s with arrivals := s'.arrivals, buffered := s'.buffered }
  := by
  rw [fill_eq] at hfill
  cases hfill
  rfl

theorem fill_ahead
    (hfill : s.fill n = (outcome, s')) :
  s'.ahead = s.ahead
  := by
  rw [← ahead_fill n s, hfill]

theorem fill_enough
    (hfill : s.fill n = (.ok (), s')) :
  n ≤ s'.buffered.length
  := by
  have enough := le_length_buffered_fill n s (congrArg Prod.fst hfill)
  rw [hfill] at enough
  exact enough

end Fill

/-! ### One frame -/

/-- The length of the frame whose header has been taken. -/
def announced (s : Stream) : Nat :=
  Frame.headerLength + Bytes.littleEndian (s.buffered.take 3)

/-- The number of the frame whose header has been taken. -/
def number (s : Stream) : UInt8 :=
  s.buffered.getD 3 0

/-- The ways in which the reading of a frame goes: it ends in front of the header, at its number, in
front of the end of the content, or behind that. -/
inductive FrameRead (s : Stream) : Except Error Bytes → Stream → Prop where
  | header {e : Error} {s' : Stream} (hheader : s.fill Frame.headerLength = (.error e, s')) :
      FrameRead s (.error e) s'
  | mismatch {s' : Stream} (hheader : s.fill Frame.headerLength = (.ok (), s'))
      (hnumber : s'.number ≠ s'.sequence) :
      FrameRead s (.error (.protocol (.sequenceMismatch s'.sequence s'.number))) s'
  | content {e : Error} {s₁ s' : Stream} (hheader : s.fill Frame.headerLength = (.ok (), s₁))
      (hnumber : s₁.number = s₁.sequence)
      (hfill : { s₁ with sequence := s₁.sequence + 1 }.fill s₁.announced = (.error e, s')) :
      FrameRead s (.error e) s'
  | whole {s₁ s' : Stream} (hheader : s.fill Frame.headerLength = (.ok (), s₁))
      (hnumber : s₁.number = s₁.sequence)
      (hfill : { s₁ with sequence := s₁.sequence + 1 }.fill s₁.announced = (.ok (), s')) :
      FrameRead s
        (.ok ((s'.buffered.drop Frame.headerLength).take (s₁.announced - Frame.headerLength)))
        { s' with buffered := s'.buffered.drop s₁.announced }

section Frame

variable {s s' : Stream} {outcome : Except Error Bytes}

theorem FrameRead.readFrame_eq
    (h : s.FrameRead outcome s') :
  s.readFrame = (outcome, s')
  := by
  cases h with
  | header hheader => rw [readFrame, hheader]
  | mismatch hheader hnumber =>
    rw [readFrame, hheader]
    exact if_pos hnumber
  | content hheader hnumber hfill =>
    rw [number] at hnumber
    rw [announced] at hfill
    rw [readFrame, hheader]
    dsimp only
    rw [if_neg (not_not_intro hnumber), hnumber, hfill]
  | whole hheader hnumber hfill =>
    rw [number] at hnumber
    rw [announced] at hfill ⊢
    rw [readFrame, hheader]
    dsimp only
    rw [if_neg (not_not_intro hnumber), hnumber, hfill, Nat.add_sub_cancel_left]

/-- The reading of a frame goes in one of these ways. -/
theorem frameRead
    (h : s.readFrame = (outcome, s')) :
  s.FrameRead outcome s'
  := by
  have goes {outcome' : Except Error Bytes} {s₂ : Stream} (h' : s.FrameRead outcome' s₂) :
      s.FrameRead outcome s' := by
    cases h.symm.trans h'.readFrame_eq
    exact h'
  rcases hheader : s.fill Frame.headerLength with ⟨e | ⟨⟩, s₁⟩
  · exact goes (.header hheader)
  by_cases hnumber : s₁.number = s₁.sequence
  · rcases hfill : { s₁ with sequence := s₁.sequence + 1 }.fill s₁.announced with ⟨e | ⟨⟩, s₂⟩
    · exact goes (.content hheader hnumber hfill)
    · exact goes (.whole hheader hnumber hfill)
  · exact goes (.mismatch hheader hnumber)

end Frame

end Stream

end SqlWire
