import SqlWire.Proofs.Packet.FrameReading
import SqlWire.Proofs.Packet.Frames

/-!
# Streams stay in step with their frames

Payloads are read and sent and the numbers started anew in any order, over a transport that fails or
ends anywhere: each is a `Stream.Step`, and `Stream.run` takes them one after another.  The bytes
taken from the transport are then whole frames, each used by one step, and behind them the buffered
ones.  `Event.Uses` says which frames a step may use: a payload that is read is made up of frames
that carry the numbers from the expected one on.  The main statement is `Stream.run_synchronised`.
-/

namespace SqlWire

namespace Frame

/-- The length of the content fits into the header, so that the frame's bytes tell where it ends. -/
def Fits (f : Frame) : Prop :=
  f.content.length ≤ maxLength

/-- The frames carry the numbers from the given one on. -/
def Numbered (sequence : UInt8) (frames : List Frame) : Prop :=
  frames.map Frame.sequence = consecutive sequence frames.length

theorem Numbered.cons
    {f : Frame} {frames : List Frame} (h : Numbered (f.sequence + 1) frames) :
  Numbered f.sequence (f :: frames)
  := by
  rw [Numbered, List.map_cons, h, List.length_cons, Nat.add_comm, consecutive_add, consecutive_one]
  rfl

theorem makeUp_singleton
    {f : Frame} (hshort : f.content.length < maxLength) :
  MakeUp f.content [f]
  := by
  constructor
  · intro g hg
    cases hg
  · use f, rfl
  · apply List.flatMap_singleton

/-- A full frame in front of those of a payload. -/
theorem MakeUp.cons
    {f : Frame} {frames : List Frame} {payload : Bytes} (hfull : f.content.length = maxLength)
    (h : MakeUp payload frames) :
  MakeUp (f.content ++ payload) (f :: frames)
  := by
  obtain ⟨last, hlast, hshort⟩ := h.last
  have some : frames ≠ [] := by
    rintro rfl
    cases hlast
  constructor
  · rw [List.dropLast_cons_of_ne_nil some]
    intro g hg
    rcases List.mem_cons.mp hg with rfl | hg
    · apply hfull
    · apply h.full g hg
  · use last
    rw [List.getLast?_cons_of_ne_nil some]
    exact ⟨hlast, hshort⟩
  · rw [List.flatMap_cons, h.content]

/-- A header that tells the length and the number of a frame is the one that is written. -/
theorem toBytes_eq
    {f : Frame} {header : Bytes} (hheader : header.length = headerLength)
    (hsequence : header.getD 3 0 = f.sequence)
    (hlength : f.content.length = Bytes.littleEndian (header.take 3)) :
  f.toBytes = header ++ f.content
  := by
  have start : (header.take 3).length = 3 := List.length_take_of_le (by rw [hheader]; decide)
  have length : Bytes.ofNatLE 3 f.content.length = header.take 3 := by
    have written := Bytes.ofNatLE_littleEndian (header.take 3)
    rw [start, ← hlength] at written
    apply written
  have number : header.drop 3 = [f.sequence] := by
    have inside : 3 < header.length := by
      rw [hheader]
      decide
    have behind : header.drop (3 + 1) = [] := List.drop_eq_nil_of_le (Nat.le_of_eq hheader)
    rw [List.drop_eq_getElem_cons inside, behind, ← hsequence, List.getD_eq_getElem?_getD,
      List.getElem?_eq_getElem inside, Option.getD_some]
  calc f.toBytes
      = header.take 3 ++ ([f.sequence] ++ f.content) := by rw [toBytes, length]; rfl
    _ = header ++ f.content := by
      rw [← number, ← List.append_assoc, List.take_append_drop]

end Frame

namespace Stream

/-! ### One frame -/

/-- From `s` to `s'` the frames have come, whole and with the numbers expected, and nothing else. -/
structure Passes (s : Stream) (frames : List Frame) (s' : Stream) : Prop where
  fits : ∀ f ∈ frames, f.Fits
  numbered : Frame.Numbered s.sequence frames
  ahead : s.ahead = frames.flatMap Frame.toBytes ++ s'.ahead

theorem passes_nil
    {s s' : Stream} (h : s'.ahead = s.ahead) :
  s.Passes [] s'
  := by
  constructor
  · nofun
  · rfl
  · exact h.symm

theorem Passes.cons
    {s s' s'' : Stream} {f : Frame} {frames : List Frame} (hfits : f.Fits)
    (hsequence : f.sequence = s.sequence) (hnext : s'.sequence = s.sequence + 1)
    (hahead : s.ahead = f.toBytes ++ s'.ahead) (h : s'.Passes frames s'') :
  s.Passes (f :: frames) s''
  := by
  constructor
  · exact List.forall_mem_cons.mpr ⟨hfits, h.fits⟩
  · have numbered := h.numbered
    rw [hnext, ← hsequence] at numbered
    rw [← hsequence]
    apply numbered.cons
  · rw [hahead, h.ahead, List.flatMap_cons, List.append_assoc]

/-- Without a frame, no byte is used, whether bytes were wanting or the number was another. -/
theorem ahead_readFrame_of_error
    {s s' : Stream} {e : Error} (h : s.readFrame = (.error e, s')) :
  s'.ahead = s.ahead
  := by
  cases frameRead h with
  | header hheader => exact fill_ahead hheader
  | mismatch hheader _ => exact fill_ahead hheader
  | content hheader _ hfill =>
    have header := fill_ahead hheader
    have content := fill_ahead hfill
    exact content.trans header

/-- The next number is expected behind a frame. -/
theorem sequence_readFrame
    {s s' : Stream} {content : Bytes} (h : s.readFrame = (.ok content, s')) :
  s'.sequence = s.sequence + 1
  := by
  generalize hwhole : Except.ok content = whole at h
  cases frameRead h with
  | header | mismatch | content => cases hwhole
  | whole hheader _ hfill => rw [fill_kept hfill, fill_kept hheader]

theorem length_readFrame_le
    {s s' : Stream} {content : Bytes} (h : s.readFrame = (.ok content, s')) :
  content.length ≤ Frame.maxLength
  := by
  obtain ⟨header, hheader, -, hlength, -⟩ := ahead_readFrame h
  have start : (header.take 3).length = 3 := List.length_take_of_le (by rw [hheader]; decide)
  have bound := Bytes.littleEndian_lt (header.take 3)
  rw [start, ← hlength] at bound
  apply Nat.le_of_lt_succ bound

/-- A frame that has been read is whole, and has the number expected. -/
theorem readFrame_passes
    {s s' s'' : Stream} {content : Bytes} {frames : List Frame}
    (hframe : s.readFrame = (.ok content, s')) (h : s'.Passes frames s'') :
  s.Passes (⟨s.sequence, content⟩ :: frames) s''
  := by
  obtain ⟨header, hheader, hsequence, hlength, hahead⟩ := ahead_readFrame hframe
  have written := Frame.toBytes_eq (f := ⟨s.sequence, content⟩) hheader hsequence hlength
  apply Passes.cons (length_readFrame_le hframe) rfl (sequence_readFrame hframe) _ h
  rw [hahead, written]

/-! ### One payload -/

/-- What a step gives: a reading, the number expected before it and its outcome. -/
inductive Event where
  | read (sequence : UInt8) (outcome : Except Error Bytes)
  | write (outcome : Except Error Unit)
  | reset

/-- The frames that a step uses: those that make up the payload read, with the numbers from the
expected one on; when reading fails, full ones in front of the failure; and otherwise none. -/
def Event.Uses : Event → List Frame → Prop
  | read sequence (.ok payload), frames =>
    Frame.MakeUp payload frames ∧ Frame.Numbered sequence frames
  | read sequence (.error _), frames =>
    (∀ f ∈ frames, f.content.length = Frame.maxLength) ∧ Frame.Numbered sequence frames
  | write _, frames => frames = []
  | reset, frames => frames = []

/-- Reading a payload uses whole frames, also when it fails. -/
theorem exists_passes_read
    (s : Stream) :
  ∃ frames, s.Passes frames s.read.2 ∧ (Event.read s.sequence s.read.1).Uses frames
  := by
  -- by the frames read: each is put in front of those of the payload that is still to be read
  fun_induction read s with
  | case1 s e s' hframe =>
    use [], passes_nil (ahead_readFrame_of_error hframe)
    exact ⟨nofun, rfl⟩
  | case2 s content s' hframe _ hshort =>
    have passes := readFrame_passes hframe (passes_nil rfl)
    use [⟨s.sequence, content⟩], passes
    exact ⟨Frame.makeUp_singleton (f := ⟨s.sequence, content⟩) hshort, passes.numbered⟩
  | case3 s content s' hframe _ hlong e s'' hread ih =>
    obtain ⟨frames, hpasses, huses⟩ := ih
    rw [hread] at hpasses huses
    have passes := readFrame_passes hframe hpasses
    have full := Nat.le_antisymm (length_readFrame_le hframe) (Nat.le_of_not_lt hlong)
    use ⟨s.sequence, content⟩ :: frames, passes
    exact ⟨List.forall_mem_cons.mpr ⟨full, huses.1⟩, passes.numbered⟩
  | case4 s content s' hframe _ hlong more s'' hread ih =>
    obtain ⟨frames, hpasses, huses⟩ := ih
    rw [hread] at hpasses huses
    have passes := readFrame_passes hframe hpasses
    have full := Nat.le_antisymm (length_readFrame_le hframe) (Nat.le_of_not_lt hlong)
    use ⟨s.sequence, content⟩ :: frames, passes
    exact ⟨huses.1.cons (f := ⟨s.sequence, content⟩) full, passes.numbered⟩

/-! ### Runs -/

/-- One use of a stream.  A payload is sent while the transport takes bytes or fails to. -/
inductive Step where
  | read
  | write (payload : Bytes) (fault : Option String)
  | reset

/-- What a step gives, and the stream that it leaves. -/
def step : Step → Stream → Event × Stream
  | .read, s => (.read s.sequence s.read.1, s.read.2)
  | .write payload fault, s =>
    let (outcome, s) := { s with writeFault := fault }.write payload
    (.write outcome, s)
  | .reset, s => (.reset, s.reset)

/-- What steps give one after another, and the stream that they leave. -/
def run : List Step → Stream → List Event × Stream
  | [], s => ([], s)
  | step :: steps, s =>
    let (event, s) := s.step step
    let (events, s) := s.run steps
    (event :: events, s)

/-- Sending leaves what is ahead as it is. -/
theorem ahead_write
    (payload : Bytes) (s : Stream) :
  (s.write payload).2.ahead = s.ahead
  := by
  rw [write]
  dsimp only
  split <;> rfl

/-- A step uses whole frames. -/
theorem exists_uses_step
    (step : Step) (s : Stream) :
  ∃ frames, (s.step step).1.Uses frames ∧ (∀ f ∈ frames, f.Fits) ∧
    s.ahead = frames.flatMap Frame.toBytes ++ (s.step step).2.ahead
  := by
  cases step with
  | read =>
    obtain ⟨frames, hpasses, huses⟩ := s.exists_passes_read
    exact ⟨frames, huses, hpasses.fits, hpasses.ahead⟩
  | write payload fault =>
    have ahead := ahead_write payload { s with writeFault := fault }
    exact ⟨[], rfl, nofun, ahead.symm⟩
  | reset => exact ⟨[], rfl, nofun, rfl⟩

/-- A run of steps uses whole frames one after another. -/
theorem exists_uses_run
    (steps : List Step) (s : Stream) :
  ∃ used : List (List Frame), List.Forall₂ Event.Uses (s.run steps).1 used ∧
    (∀ f ∈ used.flatten, f.Fits) ∧
    s.ahead = used.flatten.flatMap Frame.toBytes ++ (s.run steps).2.ahead
  := by
  induction steps generalizing s with
  | nil => exact ⟨[], .nil, nofun, rfl⟩
  | cons step steps ih =>
    obtain ⟨frames, huses, hfits, hahead⟩ := s.exists_uses_step step
    obtain ⟨used, huses', hfits', hahead'⟩ := ih (s.step step).2
    use frames :: used, .cons huses huses'
    constructor
    · intro f hf
      rcases List.mem_append.mp hf with hf | hf
      · apply hfits f hf
      · apply hfits' f hf
    · rw [hahead, hahead', List.flatten_cons, List.flatMap_append, List.append_assoc]
      rfl

/-- After any steps on a stream, over any transport, the bytes taken from it are whole frames, used
one after another by the steps, and behind them the buffered bytes.  A payload that is read is made
up of frames that carry the numbers from the one that was expected before the step on. -/
theorem run_synchronised
    (arrivals : List Arrival) (isSecure : Bool) (writeFault : Option String) (steps : List Step) :
  let events := ((ofArrivals arrivals isSecure writeFault).run steps).1
  let s := ((ofArrivals arrivals isSecure writeFault).run steps).2
  ∃ (taken : Bytes) (used : List (List Frame)),
    arrivals.flatMap Arrival.bytes = taken ++ s.unread ∧
    taken = used.flatten.flatMap Frame.toBytes ++ s.buffered ∧
    (∀ f ∈ used.flatten, f.Fits) ∧
    List.Forall₂ Event.Uses events used
  := by
  intro events s
  obtain ⟨used, huses, hfits, hahead⟩ :=
    exists_uses_run steps (ofArrivals arrivals isSecure writeFault)
  use used.flatten.flatMap Frame.toBytes ++ s.buffered, used
  refine ⟨?_, rfl, hfits, huses⟩
  rw [List.append_assoc]
  apply hahead

end Stream

end SqlWire
