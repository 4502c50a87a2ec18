import SqlWire.Packet.Stream
import SqlWire.Proofs.Packet.Frames

/-!
# Payloads travel unchanged

Payloads written on one stream are read from another, however their bytes are cut into chunks on the
way: `Stream.reads_writes`.  A stream whose arrivals are chunks that are not empty, `Arrival.Flow`,
gives as many bytes as there are; from these come a frame, a payload, and payloads one after
another, and `Stream.After` says what each reading leaves of the stream.
-/

namespace SqlWire

/-! ### Arrivals -/

namespace Arrival

/-- All that arrives is bytes, some at a time. -/
def Flow (arrivals : List Arrival) : Prop :=
  ∀ a ∈ arrivals, ∃ b bs, a = .chunk (b :: bs)

theorem flow_map_chunk
    {chunks : List Bytes} (h : ∀ c ∈ chunks, c ≠ []) :
  Flow (chunks.map chunk)
  := by
  intro a ha
  obtain ⟨c, hc, rfl⟩ := List.mem_map.mp ha
  obtain ⟨b, bs, rfl⟩ := List.exists_cons_of_ne_nil (h c hc)
  use b, bs

theorem Flow.tail
    {a : Arrival} {arrivals : List Arrival} (h : Flow (a :: arrivals)) :
  Flow arrivals
  := by
  intro a' ha'
  apply h a' (List.mem_cons_of_mem _ ha')

/-- When no bytes are to come, nothing is. -/
theorem eq_nil_of_flow
    {arrivals : List Arrival} (hflow : Flow arrivals) (h : arrivals.flatMap bytes = []) :
  arrivals = []
  := by
  cases arrivals with
  | nil => rfl
  | cons a arrivals =>
    obtain ⟨b, bs, rfl⟩ := hflow a List.mem_cons_self
    cases h

theorem flow_take
    {size n : Nat} {arrivals : List Arrival} (hflow : Flow arrivals) :
  Flow (take size n arrivals).2.2
  := by
  fun_induction take size n arrivals with
  | case1 => exact hflow
  | case2 => exact hflow
  | case3 => exact hflow.tail
  | case4 => exact hflow.tail
  | case5 n b bs arrivals _ outcome more rest htake ih =>
    rw [htake] at ih
    apply ih hflow.tail
  | case6 n b bs arrivals hleft =>
    intro a ha
    rcases List.mem_cons.mp ha with rfl | ha
    · obtain ⟨b', bs', hcons⟩ := List.exists_cons_of_ne_nil hleft
      use b', bs'
      rw [hcons]
    · apply hflow.tail a ha

/-- From chunks that are not empty, as many bytes can be taken as there are. -/
theorem take_eq_ok
    {size n : Nat} {arrivals : List Arrival} (hflow : Flow arrivals)
    (h : n ≤ (arrivals.flatMap bytes).length) :
  (take size n arrivals).1 = .ok ()
  := by
  fun_induction take size n arrivals with
  | case1 => rfl
  | case2 => simp at h
  | case3 =>
    obtain ⟨b, bs, hb⟩ := hflow _ List.mem_cons_self
    cases hb
  | case4 =>
    obtain ⟨b, bs, hb⟩ := hflow _ List.mem_cons_self
    cases hb
  | case5 n b bs arrivals _ outcome more rest htake ih =>
    rw [htake] at ih
    apply ih hflow.tail
    rw [List.flatMap_cons, List.length_append, bytes, List.length_cons] at h
    omega
  | case6 => rfl

end Arrival

namespace Stream

/-! ### One frame -/

/-- What is left of `s` when `n` frames have been read and the bytes `more` are still ahead. -/
structure After (s : Stream) (n : Nat) (more : Bytes) (s' : Stream) : Prop where
  flow : Arrival.Flow s'.arrivals
  ahead : s'.ahead = more
  kept : s' = { s with
    arrivals := s'.arrivals, buffered := s'.buffered, sequence := s.sequence + UInt8.ofNat n }

theorem After.sequence
    {s s' : Stream} {n : Nat} {more : Bytes} (h : s.After n more s') :
  s'.sequence = s.sequence + UInt8.ofNat n
  := by
  rw [h.kept]

theorem After.trans
    {s s' s'' : Stream} {m n : Nat} {more more' : Bytes}
    (h : s.After m more s') (h' : s'.After n more' s'') :
  s.After (m + n) more' s''
  := by
  refine ⟨h'.flow, h'.ahead, ?_⟩
  rw [h'.kept, h.kept, UInt8.ofNat_add, UInt8.add_assoc]

/-- When enough bytes are ahead, they can be taken, and none of those ahead is lost. -/
theorem fill_eq_ok
    {n : Nat} {s : Stream} (hflow : Arrival.Flow s.arrivals) (h : n ≤ s.ahead.length) :
  ∃ arrivals buffered, s.fill n = (.ok (), { s with arrivals, buffered }) ∧
    Arrival.Flow arrivals ∧ n ≤ buffered.length ∧
    buffered ++ arrivals.flatMap Arrival.bytes = s.ahead
  := by
  have outcome : (s.fill n).1 = .ok () := by
    apply Arrival.take_eq_ok hflow
    rw [ahead, List.length_append, unread] at h
    omega
  use (s.fill n).2.arrivals, (s.fill n).2.buffered
  refine ⟨Prod.ext outcome rfl, ?_, le_length_buffered_fill n s outcome, ahead_fill n s⟩
  apply Arrival.flow_take hflow

/-- A frame that is ahead, with the number expected, is read. -/
theorem readFrame_eq_ok
    {s : Stream} {f : Frame} {more : Bytes} (hflow : Arrival.Flow s.arrivals)
    (hfits : f.content.length ≤ Frame.maxLength) (hsequence : f.sequence = s.sequence)
    (hahead : s.ahead = f.toBytes ++ more) :
  ∃ s', s.readFrame = (.ok f.content, s') ∧ s.After 1 more s'
  := by
  have hlength := f.length_toBytes
  have enough : Frame.headerLength + f.content.length ≤ s.ahead.length := by
    rw [hahead, List.length_append]
    omega
  obtain ⟨arrivals₁, buffered₁, hfill₁, hflow₁, enough₁, hahead₁⟩ :=
    fill_eq_ok (n := Frame.headerLength) hflow (by omega)
  -- The header is in the bytes taken, so its length and number are those of the frame.
  have header {n : Nat} (hn : n ≤ Frame.headerLength) :
      buffered₁.take n = (f.toBytes ++ more).take n := by
    rw [← hahead, ← hahead₁, List.take_append_of_le_length (Nat.le_trans hn enough₁)]
  have length₁ : Bytes.littleEndian (buffered₁.take 3) = f.content.length := by
    rw [header (by decide), Frame.toBytes, List.append_assoc,
      List.take_left' (Bytes.length_ofNatLE _ _)]
    apply Bytes.littleEndian_ofNatLE_of_lt
    apply Nat.lt_of_le_of_lt hfits (by decide)
  have sequence₁ : buffered₁.getD 3 0 = s.sequence := by
    have fourth : (buffered₁.take Frame.headerLength).getD 3 0 = f.sequence := by
      rw [header (Nat.le_refl _)]
      rfl
    rw [← hsequence, ← fourth]
    simp [List.getD_eq_getElem?_getD, Frame.headerLength]
  obtain ⟨arrivals₂, buffered₂, hfill₂, hflow₂, enough₂, hahead₂⟩ :=
    fill_eq_ok (n := Frame.headerLength + f.content.length)
      (s := { s with
        arrivals := arrivals₁, buffered := buffered₁, sequence := s.sequence + 1 }) hflow₁ (by
      change _ ≤ (buffered₁ ++ arrivals₁.flatMap Arrival.bytes).length
      rw [hahead₁]
      omega)
  replace hahead₂ : buffered₂ ++ arrivals₂.flatMap Arrival.bytes = f.toBytes ++ more :=
    hahead₂.trans (hahead₁.trans hahead)
  use { s with
    arrivals := arrivals₂
    buffered := buffered₂.drop (Frame.headerLength + f.content.length)
    sequence := s.sequence + 1 }
  constructor
  · have frame₂ : buffered₂.take (Frame.headerLength + f.content.length) = f.toBytes := by
      rw [← List.take_append_of_le_length enough₂, hahead₂, List.take_left' hlength]
    have content₂ : (buffered₂.drop Frame.headerLength).take f.content.length = f.content := by
      rw [List.take_drop, frame₂]
      rfl
    rw [readFrame, hfill₁]
    simp only [length₁, sequence₁, ne_eq, not_true_eq_false, if_false]
    rw [hfill₂]
    simp only [content₂]
  · refine ⟨hflow₂, ?_, rfl⟩
    change buffered₂.drop _ ++ arrivals₂.flatMap Arrival.bytes = more
    rw [← List.drop_append_of_le_length enough₂, hahead₂]
    apply List.drop_left' hlength

/-! ### Payloads -/

theorem read_eq_error
    {s s' : Stream} {e : Error} (hframe : s.readFrame = (.error e, s')) :
  s.read = (.error e, s')
  := by
  rw [read]
  split
  next e₁ s₁ h =>
    rw [hframe] at h
    cases h
    rfl
  next content₁ s₁ h =>
    rw [hframe] at h
    cases h

theorem read_eq_ok_of_lt
    {s s' : Stream} {content : Bytes} (hframe : s.readFrame = (.ok content, s'))
    (hshort : content.length < Frame.maxLength) :
  s.read = (.ok content, s')
  := by
  rw [read]
  split
  next e s₁ h =>
    rw [hframe] at h
    cases h
  next content₁ s₁ h =>
    rw [hframe] at h
    cases h
    rw [if_pos hshort]

theorem read_eq_ok_of_not_lt
    {s s' s'' : Stream} {content more : Bytes} (hframe : s.readFrame = (.ok content, s'))
    (hfull : ¬ content.length < Frame.maxLength) (hmore : s'.read = (.ok more, s'')) :
  s.read = (.ok (content ++ more), s'')
  := by
  rw [read]
  split
  next e s₁ h =>
    rw [hframe] at h
    cases h
  next content₁ s₁ h =>
    rw [hframe] at h
    cases h
    rw [if_neg hfull, hmore]

theorem read_eq_error_of_not_lt
    {s s' s'' : Stream} {content : Bytes} {e : Error} (hframe : s.readFrame = (.ok content, s'))
    (hfull : ¬ content.length < Frame.maxLength) (hmore : s'.read = (.error e, s'')) :
  s.read = (.error e, s'')
  := by
  rw [read]
  split
  next e₁ s₁ h =>
    rw [hframe] at h
    cases h
  next content₁ s₁ h =>
    rw [hframe] at h
    cases h
    rw [if_neg hfull, hmore]

/-- A payload whose frames are ahead, with the numbers expected, is read, and its frames with it. -/
theorem read_eq_ok
    (payload : Bytes) {s : Stream} {more : Bytes} (hflow : Arrival.Flow s.arrivals)
    (hahead : s.ahead = (Frame.split s.sequence payload).flatMap Frame.toBytes ++ more) :
  ∃ s', s.read = (.ok payload, s') ∧ s.After (Frame.split s.sequence payload).length more s'
  := by
  generalize hsequence : s.sequence = sequence at hahead ⊢
  induction sequence, payload using Frame.split.induct generalizing s with
  | case1 sequence payload hshort =>
    rw [Frame.split, if_pos hshort] at hahead ⊢
    rw [List.flatMap_singleton] at hahead
    obtain ⟨s', hframe, hafter⟩ :=
      readFrame_eq_ok hflow (Nat.le_of_lt hshort) hsequence.symm hahead
    exact ⟨s', read_eq_ok_of_lt hframe hshort, hafter⟩
  | case2 sequence payload hfull ih =>
    rw [Frame.split, if_neg hfull] at hahead ⊢
    rw [List.flatMap_cons, List.append_assoc] at hahead
    obtain ⟨s', hframe, hafter⟩ :=
      readFrame_eq_ok hflow (List.length_take_le _ _) hsequence.symm hahead
    have next : s'.sequence = sequence + 1 := by
      rw [hafter.sequence, hsequence]
      rfl
    obtain ⟨s'', hread, hafter'⟩ := ih hafter.flow next hafter.ahead
    use s''
    constructor
    · rw [read_eq_ok_of_not_lt hframe _ hread, List.take_append_drop]
      rw [List.length_take]
      omega
    · rw [List.length_cons, Nat.add_comm]
      apply hafter.trans hafter'

/-- The outcomes of reading as many payloads one after another. -/
def reads : Nat → Stream → List (Except Error Bytes) × Stream
  | 0, s => ([], s)
  | n + 1, s =>
    let (outcome, s) := s.read
    let (outcomes, s) := s.reads n
    (outcome :: outcomes, s)

/-- The outcomes of sending payloads one after another. -/
def writes : List Bytes → Stream → List (Except Error Unit) × Stream
  | [], s => ([], s)
  | payload :: payloads, s =>
    let (outcome, s) := s.write payload
    let (outcomes, s) := s.writes payloads
    (outcome :: outcomes, s)

theorem reads_eq_ok
    (payloads : List Bytes) {s : Stream} {more : Bytes} (hflow : Arrival.Flow s.arrivals)
    (hahead : s.ahead =
      (Frame.splitAll s.sequence payloads).flatten.flatMap Frame.toBytes ++ more) :
  ∃ s', s.reads payloads.length = (payloads.map .ok, s') ∧
    s.After (Frame.splitAll s.sequence payloads).flatten.length more s'
  := by
  induction payloads generalizing s with
  | nil =>
    use s, rfl
    exact ⟨hflow, hahead, by simp [Frame.splitAll]⟩
  | cons payload payloads ih =>
    rw [Frame.splitAll, List.flatten_cons] at hahead ⊢
    rw [List.flatMap_append, List.append_assoc] at hahead
    obtain ⟨s', hread, hafter⟩ := read_eq_ok payload hflow hahead
    rw [← hafter.sequence]
    obtain ⟨s'', hreads, hafter'⟩ := ih hafter.flow (by rw [hafter.ahead, hafter.sequence])
    use s''
    constructor
    · rw [List.length_cons, reads, hread]
      simp only [hreads, List.map_cons]
    · rw [List.length_append]
      apply hafter.trans hafter'

/-- Over a transport that does not fail, the frames of the payload are sent. -/
theorem write_eq_ok
    (payload : Bytes) {s : Stream} (hfault : s.writeFault = none) :
  s.write payload = (.ok (), { s with
    sequence := s.sequence + UInt8.ofNat (Frame.split s.sequence payload).length
    sent := s.sent ++ (Frame.split s.sequence payload).flatMap Frame.toBytes })
  := by
  simp only [write, hfault]

/-- Over a transport that does not fail, the frames of the payloads are sent. -/
theorem writes_eq_ok
    (payloads : List Bytes) {s : Stream} (hfault : s.writeFault = none) :
  s.writes payloads = (payloads.map fun _ => .ok (), { s with
    sequence := s.sequence + UInt8.ofNat (Frame.splitAll s.sequence payloads).flatten.length
    sent := s.sent ++ (Frame.splitAll s.sequence payloads).flatten.flatMap Frame.toBytes })
  := by
  induction payloads generalizing s with
  | nil => simp [writes, Frame.splitAll]
  | cons payload payloads ih =>
    have first := write_eq_ok payload hfault
    have others := ih (s := (s.write payload).2) (by rw [first]; exact hfault)
    rw [first] at others
    rw [writes, first]
    simp only [others, Frame.splitAll, List.flatten_cons, List.flatMap_append,
      List.length_append, List.append_assoc, UInt8.ofNat_add, UInt8.add_assoc, List.map_cons]

/-- Payloads sent on one stream are read from another that expects the same number, however their
bytes are cut into chunks: nothing is left over, both streams go on with the same number, and the
bytes are those of frames that make up the payloads and are numbered consecutively. -/
theorem reads_writes
    (sender receiver : Stream) (payloads chunks : List Bytes)
    (hfault : sender.writeFault = none)
    (hcut : (sender.writes payloads).2.sent = sender.sent ++ chunks.flatten)
    (hchunks : ∀ c ∈ chunks, c ≠ []) :
  (sender.writes payloads).1 = payloads.map (fun _ => .ok ()) ∧
  { receiver with
      arrivals := chunks.map .chunk, buffered := [],
      sequence := sender.sequence }.reads payloads.length =
    (payloads.map .ok, { receiver with
      arrivals := [], buffered := [], sequence := (sender.writes payloads).2.sequence }) ∧
  ∃ frames : List (List Frame),
    chunks.flatten = frames.flatten.flatMap Frame.toBytes ∧
    List.Forall₂ Frame.MakeUp payloads frames ∧
    frames.flatten.map Frame.sequence =
      Frame.consecutive sender.sequence frames.flatten.length
  := by
  rw [writes_eq_ok payloads hfault] at hcut ⊢
  have bytes := (List.append_cancel_left hcut).symm
  constructor
  · rfl
  · constructor
    · have hahead : { receiver with
            arrivals := chunks.map .chunk, buffered := [], sequence := sender.sequence }.ahead =
          (Frame.splitAll sender.sequence payloads).flatten.flatMap Frame.toBytes ++ [] := by
        rw [List.append_nil, ← bytes]
        simp [ahead, unread, List.flatMap_map, Arrival.bytes]
      obtain ⟨s', hreads, hafter⟩ := reads_eq_ok payloads (Arrival.flow_map_chunk hchunks) hahead
      obtain ⟨hbuffered, hunread⟩ := List.append_eq_nil_iff.mp hafter.ahead
      have harrivals := Arrival.eq_nil_of_flow hafter.flow hunread
      rw [hreads, hafter.kept, hbuffered, harrivals]
    · use Frame.splitAll sender.sequence payloads, bytes
      constructor
      · apply Frame.makeUp_splitAll
      · apply Frame.map_sequence_splitAll

/-- Two short payloads, in chunks that cut through both headers, as the number goes around. -/
theorem reads_writes_around :
  let sender : Stream := { ofArrivals [] false none with sequence := 255 }
  let chunks : List Bytes := [[3, 0], [0, 255, 1], [2, 3, 0, 0], [0, 0]]
  sender.writeFault = none ∧
  (sender.writes [[1, 2, 3], []]).2.sent = sender.sent ++ chunks.flatten ∧
  (∀ c ∈ chunks, c ≠ []) ∧
  { ofArrivals (chunks.map .chunk) true none with sequence := 255 }.reads 2 =
    ([.ok [1, 2, 3], .ok []], { ofArrivals [] true none with sequence := 1 })
  := by
  intro sender chunks
  have hwrites : sender.writes [[1, 2, 3], []] =
      ([.ok (), .ok ()], { sender with sequence := 1, sent := chunks.flatten }) := by
    simp only [writes, write, Frame.split_of_lt _ (show [1, 2, 3].length < _ by decide),
      Frame.split_of_lt _ (show [].length < _ by decide)]
    decide
  have hcut : (sender.writes [[1, 2, 3], []]).2.sent = sender.sent ++ chunks.flatten := by
    rw [hwrites]
    rfl
  refine ⟨rfl, hcut, by decide, ?_⟩
  have round := (reads_writes sender (ofArrivals [] true none) [[1, 2, 3], []] chunks
    rfl hcut (by decide)).2.1
  rw [hwrites] at round
  apply round

end Stream

end SqlWire
