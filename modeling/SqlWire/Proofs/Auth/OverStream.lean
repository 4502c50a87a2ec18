import SqlWire.Proofs.Auth.Rounds
import SqlWire.Proofs.Packet.RoundTrip

/-!
# Authentication over a stream

An authentication over a script is the same over a stream on which the payloads of the script travel
in frames: `Registry.negotiate_stream`.  `Operation.frames` numbers the frames of all packets that
pass in the order in which they do, whichever way they go.  A stream that `Delivers` the frames of
what some operations receive `Follows` them, and is left with what comes behind these frames.
-/

namespace SqlWire

namespace Operation

/-- A packet is sent. -/
def isSent : Operation → Bool
  | sent _ => true
  | _ => false

/-- A packet is received. -/
def isReceived : Operation → Bool
  | received _ => true
  | _ => false

/-- The frames of the packet that passes, if there is one. -/
def split (sequence : UInt8) : Operation → List Frame
  | sent packet => Frame.split sequence packet
  | received packet => Frame.split sequence packet
  | closed => []

/-- The frames of those operations that are of the given way, when the frames of all are numbered
from the given number on. -/
def frames (way : Operation → Bool) (sequence : UInt8) : List Operation → List Frame
  | [] => []
  | op :: ops =>
    let passing := op.split sequence
    (if way op then passing else []) ++ frames way (sequence + UInt8.ofNat passing.length) ops

/-- The bytes of those frames. -/
def bytes (way : Operation → Bool) (sequence : UInt8) (ops : List Operation) : Bytes :=
  (frames way sequence ops).flatMap Frame.toBytes

/-- The number behind those of all frames. -/
def last (sequence : UInt8) (ops : List Operation) : UInt8 :=
  sequence + UInt8.ofNat (frames (fun _ => true) sequence ops).length

theorem last_nil
    (sequence : UInt8) :
  last sequence [] = sequence
  :=
  UInt8.add_zero sequence

theorem last_cons
    (sequence : UInt8) (op : Operation) (ops : List Operation) :
  last sequence (op :: ops) = last (sequence + UInt8.ofNat (op.split sequence).length) ops
  := by
  rw [last, frames, if_pos rfl, List.length_append, UInt8.ofNat_add, ← UInt8.add_assoc]
  rfl

theorem last_append
    (sequence : UInt8) (ops ops' : List Operation) :
  last sequence (ops ++ ops') = last (last sequence ops) ops'
  := by
  induction ops generalizing sequence with
  | nil => rw [List.nil_append, last_nil]
  | cons op ops ih => rw [List.cons_append, last_cons, last_cons, ih]

/-- Further operations are numbered on from where the first end. -/
theorem frames_append
    (way : Operation → Bool) (sequence : UInt8) (ops ops' : List Operation) :
  frames way sequence (ops ++ ops') =
    frames way sequence ops ++ frames way (last sequence ops) ops'
  := by
  induction ops generalizing sequence with
  | nil => rw [List.nil_append, last_nil]; rfl
  | cons op ops ih => rw [List.cons_append, frames, frames, ih, List.append_assoc, last_cons]

theorem bytes_append
    (way : Operation → Bool) (sequence : UInt8) (ops ops' : List Operation) :
  bytes way sequence (ops ++ ops') = bytes way sequence ops ++ bytes way (last sequence ops) ops'
  := by
  rw [bytes, frames_append, List.flatMap_append]
  rfl

theorem bytes_singleton
    (way : Operation → Bool) (sequence : UInt8) (op : Operation) :
  bytes way sequence [op] = if way op then (op.split sequence).flatMap Frame.toBytes else []
  := by
  rw [bytes, frames, frames, List.append_nil, apply_ite (List.flatMap Frame.toBytes)]
  rfl

/-- All frames together carry consecutive numbers. -/
theorem map_sequence_frames
    (sequence : UInt8) (ops : List Operation) :
  (frames (fun _ => true) sequence ops).map Frame.sequence =
    Frame.consecutive sequence (frames (fun _ => true) sequence ops).length
  := by
  induction ops generalizing sequence with
  | nil => rfl
  | cons op ops ih =>
    have first : (op.split sequence).map Frame.sequence =
        Frame.consecutive sequence (op.split sequence).length := by
      cases op with
      | sent packet => apply Frame.map_sequence_split
      | received packet => apply Frame.map_sequence_split
      | closed => rfl
    rw [frames, if_pos rfl, List.map_append, List.length_append, Frame.consecutive_add, first, ih]

/-- A packet that is received has bytes. -/
theorem length_bytes_pos
    {packet : Bytes} {ops : List Operation} (sequence : UInt8) (h : .received packet ∈ ops) :
  0 < (bytes isReceived sequence ops).length
  := by
  obtain ⟨before, after, rfl⟩ := List.append_of_mem h
  obtain ⟨f, hf⟩ := List.exists_mem_of_ne_nil _ (Frame.split_ne_nil (last sequence before) packet)
  apply List.length_pos_of_mem (a := f.sequence)
  rw [bytes, frames_append]
  apply List.mem_flatMap.mpr ⟨f, ?_, ?_⟩
  · apply List.mem_append_right
    apply List.mem_append_left _ hf
  · apply List.mem_append_right
    apply List.mem_cons_self

end Operation

/-! ### Streams -/

namespace Stream

/-- Ahead of the stream are the frames of what the operations receive, and then the given bytes; if
the operations await more than there is, the stream ends behind the frames. -/
structure Delivers (t : Stream) (ops : List Operation) (more : Bytes) : Prop where
  flow : Arrival.Flow t.arrivals
  fault : t.writeFault = none
  ahead : t.ahead = Operation.bytes Operation.isReceived t.sequence ops ++ more
  closed : .closed ∈ ops → more = []

/-- What is left of the stream when the operations have been carried out over it. -/
structure Follows (t : Stream) (ops : List Operation) (more : Bytes) (t' : Stream) : Prop where
  flow : Arrival.Flow t'.arrivals
  ahead : t'.ahead = more
  kept : t' = { t with
    arrivals := t'.arrivals, buffered := t'.buffered, sequence := Operation.last t.sequence ops
    sent := t.sent ++ Operation.bytes Operation.isSent t.sequence ops }

variable {t t' t'' : Stream} {ops ops' : List Operation} {more more' : Bytes}

theorem Follows.sequence
    (h : t.Follows ops more t') :
  t'.sequence = Operation.last t.sequence ops
  := by
  rw [h.kept]

theorem Delivers.follows_nil
    (h : t.Delivers [] more) :
  t.Follows [] more t
  := by
  refine ⟨h.flow, h.ahead, ?_⟩
  rw [Operation.last_nil, Operation.bytes, Operation.frames, List.flatMap_nil, List.append_nil]

theorem Follows.append
    (h : t.Follows ops more t') (h' : t'.Follows ops' more' t'') :
  t.Follows (ops ++ ops') more' t''
  := by
  refine ⟨h'.flow, h'.ahead, ?_⟩
  rw [h'.kept, h.sequence, Operation.last_append, Operation.bytes_append, ← List.append_assoc,
    h.kept]

/-- Behind what the first operations receive comes what the others do. -/
theorem Delivers.first
    (ops : List Operation) (h : t.Delivers (ops ++ ops') more) (hopen : .closed ∉ ops) :
  t.Delivers ops (Operation.bytes Operation.isReceived (Operation.last t.sequence ops) ops' ++ more)
  := by
  refine ⟨h.flow, h.fault, ?_, fun hclosed => absurd hclosed hopen⟩
  rw [h.ahead, Operation.bytes_append, List.append_assoc]

theorem Delivers.rest
    (h : t.Delivers (ops ++ ops') more)
    (hfirst : t.Follows ops
      (Operation.bytes Operation.isReceived (Operation.last t.sequence ops) ops' ++ more) t') :
  t'.Delivers ops' more
  := by
  constructor
  · apply hfirst.flow
  · rw [hfirst.kept]
    apply h.fault
  · rw [hfirst.ahead, hfirst.sequence]
  · intro hclosed
    apply h.closed (List.mem_append_right _ hclosed)

/-- When nothing is ahead, there is no payload, and the stream stays as it is. -/
theorem read_eq_closed
    (hflow : Arrival.Flow t.arrivals) (h : t.ahead = []) :
  t.read = (.error .connectionClosed, t)
  := by
  obtain ⟨hbuffered, hunread⟩ := List.append_eq_nil_iff.mp h
  have harrivals := Arrival.eq_nil_of_flow hflow hunread
  obtain ⟨arrivals, buffered, sequence, isSecure, writeFault, sent⟩ := t
  cases hbuffered
  cases harrivals
  apply read_eq_error
  rfl

/-- A packet that is sent over the stream. -/
theorem Delivers.write
    {packet : Bytes} (h : t.Delivers [.sent packet] more) :
  ∃ t', t.write packet = (.ok (), t') ∧ t.Follows [.sent packet] more t'
  := by
  refine ⟨_, write_eq_ok packet h.fault, h.flow, h.ahead, ?_⟩
  rw [Operation.bytes_singleton, Operation.last_cons, Operation.last_nil]
  rfl

/-- A packet that is received over the stream. -/
theorem Delivers.read
    {packet : Bytes} (h : t.Delivers [.received packet] more) :
  ∃ t', t.read = (.ok packet, t') ∧ t.Follows [.received packet] more t'
  := by
  have hahead := h.ahead
  rw [Operation.bytes_singleton] at hahead
  obtain ⟨t', hread, hafter⟩ := read_eq_ok packet h.flow hahead
  refine ⟨t', hread, hafter.flow, hafter.ahead, ?_⟩
  rw [Operation.bytes_singleton, Operation.last_cons, Operation.last_nil]
  refine hafter.kept.trans ?_
  simp only [Operation.split, Operation.isSent, Bool.false_eq_true, if_false, List.append_nil]

/-- A packet that is awaited over the stream in vain. -/
theorem Delivers.read_closed
    (h : t.Delivers [.closed] more) :
  t.read = (.error .connectionClosed, t) ∧ t.Follows [.closed] more t
  := by
  have hmore := h.closed (List.mem_singleton_self _)
  have hahead := h.ahead
  rw [Operation.bytes_singleton] at hahead
  constructor
  · apply read_eq_closed h.flow
    rw [hahead, hmore]
    rfl
  · refine ⟨h.flow, hahead, ?_⟩
    rw [Operation.bytes_singleton, Operation.last_cons, Operation.last_nil]
    simp [Operation.split, Operation.isSent]

/-- A packet that is received uses bytes of the stream. -/
theorem Follows.length_ahead_lt
    {packet : Bytes} (h : t.Follows ops more t') (ht : t.Delivers ops more)
    (hreceived : .received packet ∈ ops) :
  t'.ahead.length < t.ahead.length
  := by
  have some := Operation.length_bytes_pos t.sequence hreceived
  rw [h.ahead, ht.ahead, List.length_append]
  omega

end Stream

/-! ### Exchanges -/

namespace Exchange

variable {σ : Type} {link : Link σ} {s s' : σ}

theorem run_send_of_ok
    {packet : Bytes} (next : Exchange) (h : link.send packet s = (.ok (), s')) :
  (send packet next).run link s = next.run link s'
  := by
  rw [run, h]

theorem run_receive_of_ok
    {reply : Bytes} (next : Bytes → Exchange) (h : link.receive s = (.ok reply, s')) :
  (receive next).run link s = (next reply).run link s'
  := by
  rw [run, h]

theorem run_receive_of_error
    {e : Error} (next : Bytes → Exchange) (h : link.receive s = (.error e, s')) :
  (receive next).run link s = (.error e, s')
  := by
  rw [run, h]

/-- A course is taken over every stream that delivers what it receives. -/
theorem Course.run_stream
    {x : Exchange} {ops : List Operation} {outcome : Except Error Bytes} {t : Stream} {more : Bytes}
    (h : x.Course ops outcome) (ht : t.Delivers ops more) :
  ∃ t', x.run .stream t = (outcome, t') ∧ t.Follows ops more t'
  := by
  induction h generalizing t with
  | done reply => exact ⟨t, rfl, ht.follows_nil⟩
  | fail e => exact ⟨t, rfl, ht.follows_nil⟩
  | @send packet next ops outcome _ ih =>
    obtain ⟨t₁, hwrite, hfirst⟩ := (ht.first [.sent packet] (by simp)).write
    obtain ⟨t', hrun, hrest⟩ := ih (ht.rest hfirst)
    exact ⟨t', (run_send_of_ok next hwrite).trans hrun, hfirst.append hrest⟩
  | @receive next reply ops outcome _ ih =>
    obtain ⟨t₁, hread, hfirst⟩ := (ht.first [.received reply] (by simp)).read
    obtain ⟨t', hrun, hrest⟩ := ih (ht.rest hfirst)
    exact ⟨t', (run_receive_of_ok next hread).trans hrun, hfirst.append hrest⟩
  | closed next =>
    obtain ⟨hread, hfollows⟩ := ht.read_closed
    exact ⟨t, run_receive_of_error next hread, hfollows⟩

/-- A course that does not fail awaits nothing in vain. -/
theorem Course.closed_notMem
    {x : Exchange} {ops : List Operation} {reply : Bytes} (h : x.Course ops (.ok reply)) :
  .closed ∉ ops
  := by
  generalize houtcome : Except.ok reply = outcome at h
  induction h with
  | done reply => exact List.not_mem_nil
  | fail e => exact List.not_mem_nil
  | send rest ih => simpa using ih houtcome
  | receive rest ih => simpa using ih houtcome
  | closed next => cases houtcome

end Exchange

/-! ### Rounds -/

variable {r : Registry} {c : Connection} {w : Surroundings}

theorem Round.IsOf.closed_notMem
    {a : Round} {isSecure : Bool} {reply : Bytes} (h : a.IsOf r c w isSecure)
    (hreply : a.outcome = .ok reply) :
  .closed ∉ a.operations
  := by
  rw [IsOf] at h
  split at h
  · rw [hreply] at h
    cases h.2
  · rw [hreply] at h
    apply h.closed_notMem

namespace Registry

/-- Unless another plugin is asked for, nothing follows, whatever the link. -/
theorem proceed_of_settled
    (r : Registry) (c : Connection) (w : Surroundings) {verdict : Except Error Verdict}
    (h : ∀ request, verdict ≠ .ok (.switch request)) :
  ∃ answer, ∀ {σ : Type} (link : Link σ) (fuel number : Nat) (s : σ),
    r.proceed c w link fuel number verdict s = (answer, s)
  := by
  cases verdict with
  | error e => exact ⟨.error e, fun _ _ _ _ => rfl⟩
  | ok v =>
    cases v with
    | accepted answer => exact ⟨.ok answer, fun _ _ _ _ => rfl⟩
    | switch request => exact absurd rfl (h request)

/-- The first round over a script is recorded, and is the first over every stream that delivers what
it receives. -/
theorem exists_round_stream
    (r : Registry) (c : Connection) (w : Surroundings) (number : Nat) (request : AuthSwitch)
    (s : Script) :
  ∃ operations outcome s',
    let a : Round := ⟨number, request, operations, outcome⟩
    a.IsOf r c w s.isSecure ∧ s.After operations s' ∧
    (∀ fuel, r.rounds c w .script (fuel + 1) number request s =
      r.proceed c w .script fuel number a.verdict s') ∧
    (∀ fuel history, r.rounds c w .recorded (fuel + 1) number request (s, history) =
      r.proceed c w .recorded fuel number a.verdict (s', history ++ operations)) ∧
    ∀ t more, t.Delivers operations more → t.isSecure = s.isSecure →
      ∃ t', t.Follows operations more t' ∧
        ∀ fuel, r.rounds c w .stream (fuel + 1) number request t =
          r.proceed c w .stream fuel number a.verdict t'
  := by
  cases hbegin : r.begin c w s.isSecure number request with
  | error e =>
    refine ⟨[], .error e, s, ?_, s.after_nil, rounds_of_begin_eq_error hbegin, ?_, ?_⟩
    · rw [Round.IsOf, hbegin]
      exact ⟨rfl, rfl⟩
    · intro fuel history
      rw [List.append_nil]
      apply rounds_of_begin_eq_error hbegin
    · intro t more ht hsecure
      rw [← hsecure] at hbegin
      exact ⟨t, ht.follows_nil, rounds_of_begin_eq_error hbegin⟩
  | ok x =>
    obtain ⟨operations, hcourse, hafter, hrecorded⟩ := x.exists_course_recorded s
    refine ⟨operations, (x.run .script s).1, (x.run .script s).2, ?_, hafter,
      rounds_of_begin_eq_ok hbegin, ?_, ?_⟩
    · rw [Round.IsOf, hbegin]
      apply hcourse
    · intro fuel history
      rw [rounds_of_begin_eq_ok hbegin, hrecorded]
      rfl
    · intro t more ht hsecure
      rw [← hsecure] at hbegin
      obtain ⟨t', hrun, hfollows⟩ := hcourse.run_stream ht
      refine ⟨t', hfollows, fun fuel => ?_⟩
      rw [rounds_of_begin_eq_ok hbegin, hrun]
      rfl

/-- The rounds over a script are recorded, and are the same over every stream that delivers what
they receive, if there is fuel for all that is received. -/
theorem rounds_stream
    (hr : ∀ p ∈ r, p ∈ Plugin.builtIn) {fuel : Nat} (number : Nat) (request : AuthSwitch)
    {s : Script} (hfuel : s.incoming.length < fuel) :
  let result := r.rounds c w .script fuel number request s
  ∃ operations, s.After operations result.2 ∧
    (∀ history, r.rounds c w .recorded fuel number request (s, history) =
      (result.1, result.2, history ++ operations)) ∧
    ∀ t more fuel', t.Delivers operations more → t.isSecure = s.isSecure →
      t.ahead.length < fuel' →
      ∃ t', r.rounds c w .stream fuel' number request t = (result.1, t') ∧
        t.Follows operations more t'
  := by
  -- On the fuel: a round that leads to another has received a packet, so that the bounds on those
  -- left hold for the rest, over the script and over the stream.
  induction fuel generalizing number request s with
  | zero => contradiction
  | succ fuel ih =>
    obtain ⟨operations, outcome, s', hround, hafter, hscript, hrecorded, hstream⟩ :=
      r.exists_round_stream c w number request s
    intro result
    have hresult : result = _ := hscript fuel
    generalize hverdict : Round.verdict ⟨number, request, operations, outcome⟩ = verdict
      at hresult hrecorded hstream
    by_cases hswitch : ∃ request', verdict = .ok (.switch request')
    · obtain ⟨request', rfl⟩ := hswitch
      obtain ⟨reply, hreply, -⟩ := Round.outcome_of_verdict hverdict
      have shorter := hround.length_incoming_lt hr hreply hafter
      have hreceived := List.mem_of_getLast? (hround.getLast?_eq hr hreply)
      have hopen := hround.closed_notMem hreply
      obtain ⟨operations', hafter', hrecorded', hstream'⟩ :=
        ih (number + 1) request' (s := s') (by omega)
      rw [hresult]
      refine ⟨operations ++ operations', hafter.append hafter', ?_, ?_⟩
      · intro history
        rw [hrecorded, ← List.append_assoc]
        apply hrecorded'
      · intro t more fuel' ht hsecure hfuel'
        obtain ⟨t₁, hfirst, hrounds⟩ := hstream t _ (ht.first operations hopen) hsecure
        have shorter' := hfirst.length_ahead_lt (ht.first operations hopen) hreceived
        obtain ⟨fuel', rfl⟩ := Nat.exists_eq_succ_of_ne_zero (Nat.ne_zero_of_lt hfuel')
        have secure₁ : t₁.isSecure = s'.isSecure := by
          rw [hfirst.kept, hafter.isSecure]
          apply hsecure
        obtain ⟨t', hrest, hfollows⟩ :=
          hstream' t₁ more fuel' (ht.rest hfirst) secure₁ (by omega)
        exact ⟨t', (hrounds fuel').trans hrest, hfirst.append hfollows⟩
    · obtain ⟨answer, hends⟩ := r.proceed_of_settled c w fun request' h => hswitch ⟨request', h⟩
      rw [hends] at hresult
      rw [hresult]
      refine ⟨operations, hafter, ?_, ?_⟩
      · intro history
        rw [hrecorded, hends]
      · intro t more fuel' ht hsecure hfuel'
        obtain ⟨t', hfollows, hrounds⟩ := hstream t more ht hsecure
        obtain ⟨fuel', rfl⟩ := Nat.exists_eq_succ_of_ne_zero (Nat.ne_zero_of_lt hfuel')
        exact ⟨t', (hrounds fuel').trans (hends _ _ _ t'), hfollows⟩

/-- An authentication over a script is recorded as the operations that make it up, and is the same
over every stream on which the packets that these receive travel in frames: it has the same outcome,
sends the frames of the packets sent, and leaves what comes behind the frames received.  The frames
of all packets are numbered in the order in which they pass, whichever way they go, from the number
that the stream expects on; and where no packet is left on the script, the stream ends behind
them. -/
theorem negotiate_stream
    (hr : ∀ p ∈ r, p ∈ Plugin.builtIn) (c : Connection) (w : Surroundings) (plugin : String)
    (seed : Bytes) (incoming : List Bytes) (isSecure : Bool) :
  let start := Script.ofIncoming incoming isSecure
  let result := r.negotiate c w .script plugin seed start
  let recorded := r.negotiate c w .recorded plugin seed (start, [])
  let operations := recorded.2.2
  recorded.1 = result.1 ∧ recorded.2.1 = result.2 ∧ start.After operations result.2 ∧
  ∀ (t : Stream) (more : Bytes), Arrival.Flow t.arrivals → t.writeFault = none →
    t.isSecure = isSecure →
    t.ahead = Operation.bytes Operation.isReceived t.sequence operations ++ more →
    (result.2.incoming = [] → more = []) →
    let framed := r.negotiate c w .stream plugin seed t
    framed.1 = result.1 ∧
    framed.2.sent = t.sent ++ Operation.bytes Operation.isSent t.sequence operations ∧
    framed.2.ahead = more ∧ framed.2.sequence = Operation.last t.sequence operations ∧
    (Operation.frames (fun _ => true) t.sequence operations).map Frame.sequence =
      Frame.consecutive t.sequence
        (Operation.frames (fun _ => true) t.sequence operations).length
  := by
  intro start result recorded operations
  obtain ⟨operations', hafter, hrecorded, hstream⟩ :=
    rounds_stream (c := c) (w := w) hr 0 ⟨if plugin.isEmpty then defaultPlugin else plugin, seed⟩
      (s := start) (Nat.lt_succ_self _)
  have hrecord : recorded = (result.1, result.2, operations') := hrecorded []
  obtain rfl : operations = operations' := congrArg (fun p => p.2.2) hrecord
  refine ⟨congrArg (fun p => p.1) hrecord, congrArg (fun p => p.2.1) hrecord, hafter, ?_⟩
  intro t more hflow hfault hsecure hahead hmore framed
  have delivers : t.Delivers operations more :=
    ⟨hflow, hfault, hahead, fun hclosed => hmore (hafter.closed hclosed)⟩
  obtain ⟨t', hframed, hfollows⟩ :=
    hstream t more (t.ahead.length + 1) delivers hsecure (Nat.lt_succ_self _)
  obtain rfl : framed.2 = t' := congrArg (fun p => p.2) hframed
  refine ⟨congrArg (fun p => p.1) hframed, ?_, hfollows.ahead, hfollows.sequence, ?_⟩
  · rw [hfollows.kept]
  · apply Operation.map_sequence_frames

/-- The server asks for another plugin and accepts what that sends, in chunks that cut through both
headers, as the number goes around. -/
theorem negotiate_stream_around :
  let r : Registry := Plugin.builtIn
  let w : Surroundings := ⟨fun _ => .error "", fun _ => []⟩
  let incoming := [AuthSwitch.payload ⟨"dialog", []⟩, [0x00, 0x00, 0x00, 0x02, 0x00, 0x00, 0x00]]
  let chunks : List Bytes := [[9, 0], [0, 255, 254, 100, 105, 97, 108, 111, 103, 0, 0, 7],
    [0, 0, 1, 0, 0, 0, 2, 0, 0, 0]]
  let t : Stream :=
    { Stream.ofArrivals (chunks.map .chunk) false none with sequence := 254 }
  let operations := [.sent [], .received [254, 100, 105, 97, 108, 111, 103, 0, 0], .sent [0],
    .received [0, 0, 0, 2, 0, 0, 0]]
  (∀ p ∈ r, p ∈ Plugin.builtIn) ∧
  r.negotiate default w .recorded "" [] (.ofIncoming incoming false, []) =
    (.ok ⟨0, 0, 2, 0⟩, ⟨[], [[], [0]], false⟩, operations) ∧
  t.writeFault = none ∧ t.ahead = Operation.bytes Operation.isReceived 254 operations ∧
  (r.negotiate default w .stream "" [] t).1 = .ok ⟨0, 0, 2, 0⟩ ∧
  (r.negotiate default w .stream "" [] t).2.sent = [0, 0, 0, 254, 1, 0, 0, 0, 0] ∧
  (r.negotiate default w .stream "" [] t).2.sequence = 2
  := by
  intro r w incoming chunks t operations
  have hr : ∀ p ∈ r, p ∈ Plugin.builtIn := fun _ h => h
  have result : r.negotiate default w .script "" [] (.ofIncoming incoming false) =
      (.ok ⟨0, 0, 2, 0⟩, ⟨[], [[], [0]], false⟩) := by
    rfl
  have recorded : r.negotiate default w .recorded "" [] (.ofIncoming incoming false, []) =
      (.ok ⟨0, 0, 2, 0⟩, ⟨[], [[], [0]], false⟩, operations) := by
    rfl
  have received : Operation.bytes Operation.isReceived 254 operations = chunks.flatten := by
    simp (disch := decide) only [operations, Operation.bytes, Operation.frames, Operation.split,
      Frame.split_of_lt]
    rfl
  have sent : Operation.bytes Operation.isSent 254 operations = [0, 0, 0, 254, 1, 0, 0, 0, 0] := by
    simp (disch := decide) only [operations, Operation.bytes, Operation.frames, Operation.split,
      Frame.split_of_lt]
    rfl
  have last : Operation.last 254 operations = 2 := by
    simp (disch := decide) only [operations, Operation.last, Operation.frames, Operation.split,
      Frame.split_of_lt]
    rfl
  have ahead : t.ahead = Operation.bytes Operation.isReceived 254 operations := by
    rw [received]
    rfl
  have framed := (negotiate_stream hr default w "" [] incoming false).2.2.2 t []
    (Arrival.flow_map_chunk (by decide)) rfl rfl
  rw [recorded, result] at framed
  obtain ⟨outcome, written, -, next, -⟩ :=
    framed (by rw [List.append_nil]; exact ahead) fun _ => rfl
  exact ⟨hr, recorded, rfl, ahead, outcome, written.trans sent, next.trans last⟩

end Registry

end SqlWire
