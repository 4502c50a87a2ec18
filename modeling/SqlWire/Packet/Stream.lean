import SqlWire.Error
import SqlWire.Packet.Frame

/-!
# Streams of packets

A byte stream on which payloads are exchanged in frames.  What its transport will deliver is a list
of `Arrival`s, and a `Stream` holds those together with the bytes that have been taken but not yet
used, the number that the next frame must have, and the bytes sent.  `Stream.read` gives the next
payload and `Stream.write` sends one; each gives the stream that it leaves, on failure as on
success.  Taking bytes from the transport never loses one: `Stream.ahead`, the bytes not yet used,
stays the same until a whole frame is split off.
-/

namespace SqlWire

/-- What the transport delivers next: bytes that come together, or a failure. -/
inductive Arrival where
  | chunk (bs : Bytes)
  | failure (reason : String)
  deriving DecidableEq, Repr

namespace Arrival

/-- The bytes that arrive. -/
def bytes : Arrival → Bytes
  | chunk bs => bs
  | failure _ => []

/-- The number of bytes asked for when `n` are needed, in requests of `size` bytes each. -/
def requested (size n : Nat) : Nat :=
  (n + size - 1) / size * size

/-- The bytes taken from the transport in requests of `size` bytes when `n` more are needed, and
what it will deliver after them.  A request gives bytes of one chunk only, and bytes beyond the
needed ones when they come with them; nothing more to come, or nothing in a chunk, is the end of the
stream. -/
def take (size : Nat) : Nat → List Arrival → Except Error Unit × Bytes × List Arrival
  | 0, arrivals => (.ok (), [], arrivals)
  | _ + 1, [] => (.error .connectionClosed, [], [])
  | _ + 1, .failure reason :: arrivals => (.error (.transport reason), [], arrivals)
  | _ + 1, .chunk [] :: arrivals => (.error .connectionClosed, [], arrivals)
  | n + 1, .chunk (b :: bs) :: arrivals =>
    match (b :: bs).drop (requested size (n + 1)) with
    | [] =>
      let (outcome, more, arrivals) := take size (n - bs.length) arrivals
      (outcome, b :: bs ++ more, arrivals)
    | left => (.ok (), (b :: bs).take (requested size (n + 1)), .chunk left :: arrivals)

/-- No fewer bytes are asked for than are needed. -/
theorem le_requested
    {size : Nat} (h : 0 < size) (n : Nat) :
  n ≤ requested size n
  := by
  have division := Nat.div_add_mod (n + size - 1) size
  have remainder := Nat.mod_lt (n + size - 1) h
  rw [requested, Nat.mul_comm]
  omega

/-- The bytes taken and those that will come after them are those that would have come. -/
theorem take_append
    (size n : Nat) (arrivals : List Arrival) :
  (take size n arrivals).2.1 ++ (take size n arrivals).2.2.flatMap bytes = arrivals.flatMap bytes
  := by
  fun_induction take size n arrivals with
  | case1 => rfl
  | case2 => rfl
  | case3 => rfl
  | case4 => rfl
  | case5 n b bs arrivals _ outcome more rest htake ih =>
    simp only [htake] at ih
    simp [ih, bytes]
  | case6 n b bs arrivals =>
    simp only [List.flatMap_cons, bytes, ← List.append_assoc, List.take_append_drop]

/-- When the taking succeeds, the bytes needed have been taken. -/
theorem le_length_take
    {size : Nat} (hsize : 0 < size) (n : Nat) (arrivals : List Arrival)
    (h : (take size n arrivals).1 = .ok ()) :
  n ≤ (take size n arrivals).2.1.length
  := by
  fun_induction take size n arrivals with
  | case1 => exact Nat.zero_le _
  | case2 => contradiction
  | case3 => contradiction
  | case4 => contradiction
  | case5 n b bs arrivals _ outcome more rest htake ih =>
    simp only [htake] at ih
    have enough := ih h
    simp only [List.length_append, List.length_cons]
    omega
  | case6 n b bs arrivals hleft =>
    have long : requested size (n + 1) < (b :: bs).length := by
      rw [← Nat.not_le, ← List.drop_eq_nil_iff]
      exact hleft
    have covered := le_requested hsize (n + 1)
    simp only [List.length_take]
    omega

end Arrival

/-- A stream of packets. -/
structure Stream where
  arrivals : List Arrival
  buffered : Bytes
  sequence : UInt8
  isSecure : Bool
  writeFault : Option String
  sent : Bytes
  deriving DecidableEq, Repr

namespace Stream

/-- The number of bytes that one request to the transport asks for. -/
def requestSize : Nat := 4096

/-- The stream on which nothing has been exchanged. -/
def ofArrivals (arrivals : List Arrival) (isSecure : Bool) (writeFault : Option String) : Stream :=
  ⟨arrivals, [], 0, isSecure, writeFault, []⟩

/-- The stream at the start of a new exchange. -/
def reset (s : Stream) : Stream :=
  { s with sequence := 0 }

/-- The bytes that are still to come. -/
def unread (s : Stream) : Bytes :=
  s.arrivals.flatMap Arrival.bytes

/-- The bytes not yet used: those taken from the transport, and those still to come. -/
def ahead (s : Stream) : Bytes :=
  s.buffered ++ s.unread

/-- The stream when it has been tried to take bytes until `n` are there. -/
def fill (n : Nat) (s : Stream) : Except Error Unit × Stream :=
  let (outcome, more, arrivals) := Arrival.take requestSize (n - s.buffered.length) s.arrivals
  (outcome, { s with buffered := s.buffered ++ more, arrivals })

/-- The content of the next frame.  The frame's number is looked at before its content has come, and
counts as used from then on. -/
def readFrame (s : Stream) : Except Error Bytes × Stream :=
  match s.fill Frame.headerLength with
  | (.error e, s) => (.error e, s)
  | (.ok (), s) =>
    let length := Bytes.littleEndian (s.buffered.take 3)
    let sequence := s.buffered.getD 3 0
    if sequence ≠ s.sequence then
      (.error (.protocol (.sequenceMismatch s.sequence sequence)), s)
    else
      match { s with sequence := sequence + 1 }.fill (Frame.headerLength + length) with
      | (.error e, s) => (.error e, s)
      | (.ok (), s) =>
        (.ok ((s.buffered.drop Frame.headerLength).take length),
          { s with buffered := s.buffered.drop (Frame.headerLength + length) })

/-! ### Nothing is lost -/

/-- Taking bytes leaves the bytes not yet used as they are. -/
theorem ahead_fill
    (n : Nat) (s : Stream) :
  (s.fill n).2.ahead = s.ahead
  := by
  simp only [fill, ahead, unread, List.append_assoc, Arrival.take_append]

/-- Bytes once taken stay where they are. -/
theorem buffered_fill
    (n : Nat) (s : Stream) :
  ∃ more, (s.fill n).2.buffered = s.buffered ++ more
  := ⟨_, rfl⟩

/-- When the taking of bytes succeeds, there are enough. -/
theorem le_length_buffered_fill
    (n : Nat) (s : Stream) (h : (s.fill n).1 = .ok ()) :
  n ≤ (s.fill n).2.buffered.length
  := by
  have enough :=
    Arrival.le_length_take (by decide : 0 < requestSize) (n - s.buffered.length) s.arrivals h
  unfold fill
  rw [List.length_append]
  exact Nat.sub_le_iff_le_add'.mp enough

/-- The bytes of a frame that has been read came next, and those behind them are left. -/
theorem ahead_readFrame
    {s s' : Stream} {content : Bytes} (h : s.readFrame = (.ok content, s')) :
  ∃ header : Bytes, header.length = Frame.headerLength ∧ header.getD 3 0 = s.sequence
    ∧ content.length = Bytes.littleEndian (header.take 3)
    ∧ s.ahead = header ++ content ++ s'.ahead
  := by
  unfold readFrame at h
  have ahead₁ := ahead_fill Frame.headerLength s
  have enough₁ := le_length_buffered_fill Frame.headerLength s
  have sequence₁ : (s.fill Frame.headerLength).2.sequence = s.sequence := rfl
  generalize s.fill Frame.headerLength = first at h ahead₁ enough₁ sequence₁
  obtain ⟨_ | ⟨⟩, s₁⟩ := first
  · simp at h
  · simp only [ne_eq, ite_not] at h ahead₁ enough₁ sequence₁
    split at h
    · rename_i hsequence
      generalize hlength : Bytes.littleEndian (s₁.buffered.take 3) = length at h
      have ahead₂ := ahead_fill (Frame.headerLength + length)
        { s₁ with sequence := s₁.buffered.getD 3 0 + 1 }
      have enough₂ := le_length_buffered_fill (Frame.headerLength + length)
        { s₁ with sequence := s₁.buffered.getD 3 0 + 1 }
      have start₂ := buffered_fill (Frame.headerLength + length)
        { s₁ with sequence := s₁.buffered.getD 3 0 + 1 }
      generalize fill (Frame.headerLength + length) _ = second at h ahead₂ enough₂ start₂
      obtain ⟨_ | ⟨⟩, s₂⟩ := second
      · simp at h
      · simp only [Prod.mk.injEq, Except.ok.injEq] at h ahead₂ enough₂ start₂
        obtain ⟨rfl, rfl⟩ := h
        obtain ⟨more, hmore⟩ := start₂
        replace enough₁ := enough₁ trivial
        replace enough₂ := enough₂ trivial
        refine ⟨s₁.buffered.take Frame.headerLength, ?_, ?_, ?_, ?_⟩
        · simp [enough₁]
        · rw [← sequence₁, ← hsequence]
          simp [List.getD_eq_getElem?_getD, Frame.headerLength]
        · rw [List.take_take]
          simp [Frame.headerLength, hlength] at enough₂ ⊢
          omega
        · have header : s₁.buffered.take Frame.headerLength
              = s₂.buffered.take Frame.headerLength := by
            rw [hmore, List.take_append_of_le_length enough₁]
          calc s.ahead
              = s₂.buffered ++ s₂.unread := ahead₁.symm.trans ahead₂.symm
            _ = _ := by
              rw [header, ahead, unread, unread, ← List.drop_drop]
              simp only [← List.append_assoc]
              rw [List.append_assoc (List.take _ _), List.take_append_drop,
                List.take_append_drop]
    · simp at h

/-- The bytes of a frame that has been read are used. -/
theorem length_ahead_readFrame_lt
    {s s' : Stream} {content : Bytes} (h : s.readFrame = (.ok content, s')) :
  s'.ahead.length < s.ahead.length
  := by
  obtain ⟨header, hlength, -, -, hahead⟩ := ahead_readFrame h
  simp only [hahead, List.length_append, hlength, Frame.headerLength]
  omega

/-! ### Payloads -/

/-- The next payload: the contents of frames up to the first that is not full. -/
def read (s : Stream) : Except Error Bytes × Stream :=
  match h : s.readFrame with
  | (.error e, s') => (.error e, s')
  | (.ok content, s') =>
    have _shorter := length_ahead_readFrame_lt h
    if content.length < Frame.maxLength then (.ok content, s')
    else
      match s'.read with
      | (.error e, s') => (.error e, s')
      | (.ok more, s') => (.ok (content ++ more), s')
termination_by s.ahead.length

/-- The sending of a payload.  Its frames take their numbers also when the transport fails. -/
def write (payload : Bytes) (s : Stream) : Except Error Unit × Stream :=
  let frames := Frame.split s.sequence payload
  let s := { s with sequence := s.sequence + UInt8.ofNat frames.length }
  match s.writeFault with
  | some reason => (.error (.transport reason), s)
  | none => (.ok (), { s with sent := s.sent ++ frames.flatMap Frame.toBytes })

end Stream

end SqlWire
