import SqlWire.Proofs.Packet.FrameReading
import SqlWire.Proofs.Packet.RoundTrip

/-!
# Failures of a transport

A transport may fail and then go on.  `Stream.steady` is a stream as it would be without the
failures, and `Stream.FailsAt` says behind how many of the bytes ahead one is still to come.  Taking
bytes makes no difference to what comes without failures, unless it is interrupted, and after an
interruption the rest can be taken: `Stream.fill_steady`, `Stream.fill_steady_of_interrupted`.
`Stream.Leaves` says what a reading leaves of the failures.
-/

namespace SqlWire

/-- A failure of the transport, which does not keep it from going on. -/
def Error.isTransport : Error → Bool
  | transport _ => true
  | _ => false

/-- The transport has failed. -/
def interrupted {α : Type} : Except Error α → Bool
  | .ok _ => false
  | .error e => e.isTransport

/-! ### Arrivals -/

namespace Arrival

/-- A failure arrives. -/
def isFailure : Arrival → Bool
  | failure _ => true
  | chunk _ => false

/-- The number of failures. -/
def failures (arrivals : List Arrival) : Nat :=
  arrivals.countP isFailure

/-- What arrives when the failures are left out. -/
def steady (arrivals : List Arrival) : List Arrival :=
  arrivals.filter fun a => !a.isFailure

/-- A failure arrives behind just as many bytes. -/
inductive FailsAt : List Arrival → Nat → Prop where
  | here (reason : String) (arrivals : List Arrival) : FailsAt (.failure reason :: arrivals) 0
  | later (a : Arrival) {arrivals : List Arrival} {place : Nat} (h : FailsAt arrivals place) :
      FailsAt (a :: arrivals) (a.bytes.length + place)

theorem not_failsAt_nil
    (place : Nat) :
  ¬ FailsAt [] place
  :=
  nofun

theorem failsAt_failure
    (reason : String) (arrivals : List Arrival) (place : Nat) :
  FailsAt (.failure reason :: arrivals) place ↔ place = 0 ∨ FailsAt arrivals place
  := by
  constructor
  · rintro (_ | ⟨_, h⟩)
    · exact .inl rfl
    · right
      rw [bytes, List.length_nil, Nat.zero_add]
      exact h
  · rintro (rfl | h)
    · exact .here reason arrivals
    · rw [← Nat.zero_add place]
      exact h.later (.failure reason)

theorem failsAt_chunk
    (bs : Bytes) (arrivals : List Arrival) (place : Nat) :
  FailsAt (.chunk bs :: arrivals) place ↔
    ∃ behind, place = bs.length + behind ∧ FailsAt arrivals behind
  := by
  constructor
  · rintro (_ | ⟨_, h⟩)
    exact ⟨_, rfl, h⟩
  · rintro ⟨behind, rfl, h⟩
    exact h.later (.chunk bs)

theorem steady_chunk
    (bs : Bytes) (arrivals : List Arrival) :
  steady (.chunk bs :: arrivals) = .chunk bs :: steady arrivals
  :=
  rfl

theorem flatMap_bytes_steady
    (arrivals : List Arrival) :
  (steady arrivals).flatMap bytes = arrivals.flatMap bytes
  := by
  induction arrivals with
  | nil => rfl
  | cons a arrivals ih =>
    cases a with
    | chunk bs => exact congrArg (bs ++ ·) ih
    | failure reason => exact ih

theorem flow_steady
    {arrivals : List Arrival} (hopen : .chunk [] ∉ arrivals) :
  Flow (steady arrivals)
  := by
  intro a ha
  obtain ⟨hmem, hsteady⟩ := List.mem_filter.mp ha
  cases a with
  | failure reason => cases hsteady
  | chunk bs =>
    cases bs with
    | nil => contradiction
    | cons b bs => exact ⟨b, bs, rfl⟩

section Chunk

variable {size n : Nat} {b : UInt8} {bs : Bytes} {arrivals : List Arrival}

/-- A chunk of which all is asked for. -/
theorem take_chunk_of_eq_nil
    (h : (b :: bs).drop (requested size (n + 1)) = []) :
  take size (n + 1) (.chunk (b :: bs) :: arrivals) =
    ((take size (n - bs.length) arrivals).1, b :: bs ++ (take size (n - bs.length) arrivals).2.1,
      (take size (n - bs.length) arrivals).2.2)
  := by
  rw [take, h]

/-- A chunk of which some is left. -/
theorem take_chunk_of_ne_nil
    (h : (b :: bs).drop (requested size (n + 1)) ≠ []) :
  take size (n + 1) (.chunk (b :: bs) :: arrivals) =
    (.ok (), (b :: bs).take (requested size (n + 1)),
      .chunk ((b :: bs).drop (requested size (n + 1))) :: arrivals)
  := by
  rw [take]
  split
  next hnil => exact absurd hnil h
  next => rfl

end Chunk

/-- Without an interruption, the failures that are still to come make no difference. -/
theorem take_steady
    {size n : Nat} {arrivals : List Arrival}
    (h : interrupted (take size n arrivals).1 = false) :
  take size n (steady arrivals) =
    ((take size n arrivals).1, (take size n arrivals).2.1, steady (take size n arrivals).2.2)
  := by
  fun_induction take size n arrivals with
  | case1 => rw [take]
  | case2 => rfl
  | case3 => cases h
  | case4 => rfl
  | case5 n b bs arrivals hdrop outcome more rest htake ih =>
    rw [htake] at ih
    rw [steady_chunk, take_chunk_of_eq_nil hdrop, ih h]
  | case6 n b bs arrivals hdrop => exact take_chunk_of_ne_nil hdrop

/-- After an interruption, the rest of what is needed is taken as if there had been none. -/
theorem take_steady_of_interrupted
    {size n : Nat} {arrivals rest : List Arrival} {outcome : Except Error Unit} {more : Bytes}
    (htake : take size n arrivals = (outcome, more, rest)) (h : interrupted outcome = true) :
  take size n (steady arrivals) =
    ((take size (n - more.length) (steady rest)).1,
      more ++ (take size (n - more.length) (steady rest)).2.1,
      (take size (n - more.length) (steady rest)).2.2)
  := by
  fun_induction take size n arrivals generalizing outcome more rest with
  | case1 => cases htake; cases h
  | case2 => cases htake; cases h
  | case3 => cases htake; rfl
  | case4 => cases htake; cases h
  | case5 n b bs arrivals hdrop outcome' more' rest' htake' ih =>
    cases htake
    have left : n.succ - (b :: bs ++ more').length = n - bs.length - more'.length := by
      rw [List.length_append, List.length_cons]
      omega
    rw [steady_chunk, take_chunk_of_eq_nil hdrop, ih htake' h, left, List.append_assoc]
  | case6 n b bs arrivals hdrop => cases htake; cases h

/-- An interruption is a failure behind the bytes taken, which are fewer than are needed. -/
theorem failsAt_of_interrupted
    {size n : Nat} {arrivals : List Arrival} (h : interrupted (take size n arrivals).1 = true) :
  FailsAt arrivals (take size n arrivals).2.1.length ∧ (take size n arrivals).2.1.length < n
  := by
  fun_induction take size n arrivals with
  | case1 => cases h
  | case2 => cases h
  | case3 n reason arrivals => exact ⟨.here reason arrivals, Nat.succ_pos n⟩
  | case4 => cases h
  | case5 n b bs arrivals hdrop outcome more rest htake ih =>
    rw [htake] at ih
    obtain ⟨hfails, hless⟩ := ih h
    dsimp only at hless
    rw [List.length_append, List.length_cons]
    exact ⟨hfails.later _, by omega⟩
  | case6 => cases h

/-- When as many bytes as are needed have been taken, no failure came before them. -/
theorem le_of_failsAt
    {size n place : Nat} {arrivals : List Arrival} (hsize : 0 < size)
    (h : (take size n arrivals).1 = .ok ()) (hfails : FailsAt arrivals place) :
  n ≤ place
  := by
  fun_induction take size n arrivals generalizing place with
  | case1 => exact Nat.zero_le _
  | case2 => cases h
  | case3 => cases h
  | case4 => cases h
  | case5 n b bs arrivals hdrop outcome more rest htake ih =>
    rw [htake] at ih
    cases hfails with
    | later a hfails =>
      have behind := ih h hfails
      rw [bytes, List.length_cons]
      omega
  | case6 n b bs arrivals hdrop =>
    cases hfails with
    | later a hfails =>
      have long : requested size (n + 1) < (b :: bs).length := by
        rw [← Nat.not_le, ← List.drop_eq_nil_iff]
        exact hdrop
      have covered := le_requested hsize (n + 1)
      rw [bytes]
      omega

/-- A failure that has not been taken is still to come. -/
theorem FailsAt.kept
    {size n place : Nat} {arrivals : List Arrival} (h : FailsAt arrivals place)
    (hplace : interrupted (take size n arrivals).1 = true →
      (take size n arrivals).2.1.length < place) :
  ∃ behind, place = (take size n arrivals).2.1.length + behind ∧
    FailsAt (take size n arrivals).2.2 behind
  := by
  fun_induction take size n arrivals generalizing place with
  | case1 => exact ⟨place, (Nat.zero_add place).symm, h⟩
  | case2 => cases h
  | case3 n reason arrivals =>
    rcases (failsAt_failure _ _ _).mp h with rfl | h
    · exact absurd (hplace rfl) (Nat.lt_irrefl 0)
    · exact ⟨place, (Nat.zero_add place).symm, h⟩
  | case4 n arrivals => exact (failsAt_chunk _ _ _).mp h
  | case5 n b bs arrivals hdrop outcome more rest htake ih =>
    obtain ⟨behind, rfl, hbehind⟩ := (failsAt_chunk _ _ _).mp h
    rw [htake] at ih
    obtain ⟨behind', rfl, hbehind'⟩ := ih hbehind fun hinterrupted => by
      have less := hplace hinterrupted
      rw [List.length_append] at less
      exact Nat.lt_of_add_lt_add_left less
    refine ⟨behind', ?_, hbehind'⟩
    rw [List.length_append, Nat.add_assoc]
  | case6 n b bs arrivals hdrop =>
    obtain ⟨behind, rfl, hbehind⟩ := (failsAt_chunk _ _ _).mp h
    refine ⟨_, ?_, (failsAt_chunk _ _ _).mpr ⟨behind, rfl, hbehind⟩⟩
    rw [← Nat.add_assoc, ← List.length_append, List.take_append_drop]

/-- Failures that are still to come behind the bytes taken were to come behind those as well. -/
theorem FailsAt.of_take
    {size n place : Nat} {arrivals : List Arrival}
    (h : FailsAt (take size n arrivals).2.2 place) :
  FailsAt arrivals ((take size n arrivals).2.1.length + place)
  := by
  fun_induction take size n arrivals generalizing place with
  | case1 => rw [List.length_nil, Nat.zero_add]; exact h
  | case2 => cases h
  | case3 n reason arrivals => exact h.later (.failure reason)
  | case4 n arrivals => exact h.later (.chunk [])
  | case5 n b bs arrivals hdrop outcome more rest htake ih =>
    rw [htake] at ih
    rw [List.length_append, Nat.add_assoc]
    exact (ih h).later (.chunk (b :: bs))
  | case6 n b bs arrivals hdrop =>
    cases h with
    | @later _ _ place hfails =>
      have whole : ((b :: bs).take (requested size (n + 1))).length +
          (((b :: bs).drop (requested size (n + 1))).length + place) =
            (b :: bs).length + place := by
        rw [← Nat.add_assoc, ← List.length_append, List.take_append_drop]
      rw [bytes, whole]
      exact hfails.later (.chunk (b :: bs))

/-- An interruption takes one of the failures, and nothing else does. -/
theorem failures_take
    (size n : Nat) (arrivals : List Arrival) :
  failures (take size n arrivals).2.2 + (interrupted (take size n arrivals).1).toNat =
    failures arrivals
  := by
  fun_induction take size n arrivals with
  | case1 => rfl
  | case2 => rfl
  | case3 n reason arrivals => rw [failures, failures, List.countP_cons_of_pos rfl]; rfl
  | case4 n arrivals => rfl
  | case5 n b bs arrivals hdrop outcome more rest htake ih =>
    rw [htake] at ih
    exact ih
  | case6 n b bs arrivals hdrop => rfl

theorem mem_of_mem_take
    {size n : Nat} {arrivals : List Arrival} (h : .chunk [] ∈ (take size n arrivals).2.2) :
  .chunk [] ∈ arrivals
  := by
  fun_induction take size n arrivals with
  | case1 => exact h
  | case2 => exact h
  | case3 => exact List.mem_cons_of_mem _ h
  | case4 => exact List.mem_cons_of_mem _ h
  | case5 n b bs arrivals hdrop outcome more rest htake ih =>
    rw [htake] at ih
    exact List.mem_cons_of_mem _ (ih h)
  | case6 n b bs arrivals hdrop =>
    rcases List.mem_cons.mp h with hnil | hmem
    · exact absurd (Arrival.chunk.inj hnil).symm hdrop
    · exact List.mem_cons_of_mem _ hmem

end Arrival

namespace Stream

/-- The number of failures that are still to come. -/
def failures (s : Stream) : Nat :=
  Arrival.failures s.arrivals

/-- The stream when the failures are left out. -/
def steady (s : Stream) : Stream :=
  { s with arrivals := Arrival.steady s.arrivals }

/-- A failure is still to come behind just as many of the bytes ahead. -/
def FailsAt (s : Stream) (place : Nat) : Prop :=
  ∃ behind, Arrival.FailsAt s.arrivals behind ∧ place = s.buffered.length + behind

theorem ahead_steady
    (s : Stream) :
  s.steady.ahead = s.ahead
  :=
  congrArg (s.buffered ++ ·) (Arrival.flatMap_bytes_steady s.arrivals)

/-! ### What is left of a stream -/

/-- When some of the bytes ahead have been used, the failures that are still to come are behind
those. -/
structure Reaches (s s' : Stream) : Prop where
  isOpen : .chunk [] ∉ s.arrivals → .chunk [] ∉ s'.arrivals
  behind : ∃ used, s.ahead.length = used + s'.ahead.length ∧
    ∀ place, s'.FailsAt place → s.FailsAt (used + place)

/-- What a reading leaves of a stream: an interruption has taken one of the failures. -/
structure Leaves {α : Type} (s : Stream) (outcome : Except Error α) (s' : Stream) : Prop
    extends s.Reaches s' where
  failures : s'.failures + (interrupted outcome).toNat = s.failures

section Leaves

variable {α β : Type} {s s' s'' : Stream}

theorem Reaches.trans
    (h : s.Reaches s') (h' : s'.Reaches s'') :
  s.Reaches s''
  := by
  obtain ⟨used, hused, hfails⟩ := h.behind
  obtain ⟨used', hused', hfails'⟩ := h'.behind
  refine ⟨fun hopen => h'.isOpen (h.isOpen hopen), used + used', by omega, ?_⟩
  intro place hplace
  rw [Nat.add_assoc]
  apply hfails _ (hfails' place hplace)

theorem Leaves.trans
    {first : Except Error α} {outcome : Except Error β} (hfirst : interrupted first = false)
    (h : s.Leaves first s') (h' : s'.Leaves outcome s'') :
  s.Leaves outcome s''
  := by
  refine ⟨h.toReaches.trans h'.toReaches, ?_⟩
  have none := h.failures
  rw [hfirst] at none
  exact h'.failures.trans none

theorem Leaves.of_error
    {e : Error} (h : s.Leaves (.error e : Except Error α) s') :
  s.Leaves (.error e : Except Error β) s'
  :=
  ⟨h.toReaches, h.failures⟩

/-- The number expected makes no difference. -/
theorem leaves_renumber
    (s : Stream) (sequence : UInt8) {outcome : Except Error α} (h : interrupted outcome = false) :
  s.Leaves outcome { s with sequence }
  := by
  refine ⟨⟨id, 0, (Nat.zero_add _).symm, fun place hfails => ?_⟩, ?_⟩
  · rw [Nat.zero_add]
    apply hfails
  · rw [h]
    rfl

/-- What is used of the bytes taken is no longer ahead. -/
theorem leaves_drop
    {n : Nat} {outcome : Except Error α} (hn : n ≤ s.buffered.length)
    (h : interrupted outcome = false) :
  s.Leaves outcome { s with buffered := s.buffered.drop n }
  := by
  refine ⟨⟨id, n, ?_, ?_⟩, ?_⟩
  · rw [ahead, ahead, List.length_append, List.length_append, List.length_drop]
    change _ = n + (_ + s.unread.length)
    omega
  · rintro place ⟨behind, hfails, rfl⟩
    refine ⟨behind, hfails, ?_⟩
    rw [List.length_drop]
    omega
  · rw [h]
    rfl

end Leaves

/-- Of the failures behind as many bytes, none is in front of what the other stream has ahead, where
all of them are still to come. -/
def Keeps (s : Stream) (start : Nat) (s' : Stream) : Prop :=
  ∃ used, s.ahead.length = used + s'.ahead.length ∧
    ∀ place, start ≤ place → s.FailsAt place → ∃ behind, place = used + behind ∧ s'.FailsAt behind

theorem Keeps.trans
    {s s' s'' : Stream} {start : Nat} (h : s.Keeps start s') (h' : s'.Keeps 0 s'') :
  s.Keeps start s''
  := by
  obtain ⟨used, hused, hkept⟩ := h
  obtain ⟨used', hused', hkept'⟩ := h'
  refine ⟨used + used', by omega, ?_⟩
  intro place hstart hplace
  obtain ⟨behind, rfl, hbehind⟩ := hkept place hstart hplace
  obtain ⟨behind', rfl, hbehind'⟩ := hkept' behind (Nat.zero_le _) hbehind
  exact ⟨behind', (Nat.add_assoc _ _ _).symm, hbehind'⟩

theorem Keeps.mono
    {s s' : Stream} {start start' : Nat} (h : s.Keeps start s') (hstart : start ≤ start') :
  s.Keeps start' s'
  := by
  obtain ⟨used, hused, hkept⟩ := h
  exact ⟨used, hused, fun place hplace => hkept place (Nat.le_trans hstart hplace)⟩

theorem keeps_renumber
    (s : Stream) (sequence : UInt8) :
  s.Keeps 0 { s with sequence }
  :=
  ⟨0, (Nat.zero_add _).symm, fun place _ hplace => ⟨place, (Nat.zero_add _).symm, hplace⟩⟩

/-! ### Taking bytes -/

section Fill

variable {n place : Nat} {s s' : Stream} {outcome : Except Error Unit}

/-- Without an interruption, the failures that are still to come make no difference. -/
theorem fill_steady
    (hfill : s.fill n = (outcome, s')) (h : interrupted outcome = false) :
  s.steady.fill n = (outcome, s'.steady)
  := by
  rw [fill_eq] at hfill
  cases hfill
  rw [fill_eq, steady, Arrival.take_steady h]
  rfl

/-- After an interruption, bytes are taken as if there had been none. -/
theorem fill_steady_of_interrupted
    (hfill : s.fill n = (outcome, s')) (h : interrupted outcome = true) :
  s.steady.fill n = s'.steady.fill n
  := by
  rw [fill_eq] at hfill
  cases hfill
  rw [fill_eq n s.steady, steady, Arrival.take_steady_of_interrupted (Prod.ext rfl rfl) h]
  rw [fill_eq n (steady _), steady, List.length_append, Nat.sub_sub, List.append_assoc]

/-- Failures that are still to come were to come before. -/
theorem FailsAt.of_fill
    (hfails : s'.FailsAt place) (hfill : s.fill n = (outcome, s')) :
  s.FailsAt place
  := by
  rw [fill_eq] at hfill
  cases hfill
  obtain ⟨behind, hbehind, rfl⟩ := hfails
  refine ⟨_, hbehind.of_take, ?_⟩
  rw [List.length_append, Nat.add_assoc]

theorem fill_leaves
    (hfill : s.fill n = (outcome, s')) :
  s.Leaves outcome s'
  := by
  refine ⟨⟨?_, 0, ?_, ?_⟩, ?_⟩
  · rw [fill_eq] at hfill
    cases hfill
    apply mt Arrival.mem_of_mem_take
  · rw [Nat.zero_add, fill_ahead hfill]
  · intro place hplace
    rw [Nat.zero_add]
    apply hplace.of_fill hfill
  · rw [fill_eq] at hfill
    cases hfill
    apply Arrival.failures_take

/-- An interruption is a failure behind the bytes taken, which are fewer than are needed. -/
theorem failsAt_of_fill
    (hfill : s.fill n = (outcome, s')) (h : interrupted outcome = true) :
  s.FailsAt s'.buffered.length ∧ s'.buffered.length < n
  := by
  rw [fill_eq] at hfill
  cases hfill
  obtain ⟨hfails, hless⟩ := Arrival.failsAt_of_interrupted h
  rw [List.length_append]
  exact ⟨⟨_, hfails, rfl⟩, by omega⟩

/-- A failure that has not been taken is still to come. -/
theorem FailsAt.kept
    (hfails : s.FailsAt place) (hfill : s.fill n = (outcome, s'))
    (hplace : interrupted outcome = true → s'.buffered.length < place) :
  s'.FailsAt place
  := by
  rw [fill_eq] at hfill
  cases hfill
  obtain ⟨behind, hbehind, rfl⟩ := hfails
  obtain ⟨behind', rfl, hfails'⟩ := hbehind.kept fun hinterrupted => by
    have less := hplace hinterrupted
    rw [List.length_append] at less
    exact Nat.lt_of_add_lt_add_left less
  refine ⟨behind', hfails', ?_⟩
  rw [List.length_append, Nat.add_assoc]

/-- When the bytes needed are there, no failure came in front of them. -/
theorem le_of_failsAt
    (hfill : s.fill n = (.ok (), s')) (hfails : s.FailsAt place) :
  n ≤ place
  := by
  obtain ⟨behind, hbehind, rfl⟩ := hfails
  have enough := Arrival.le_of_failsAt (by decide : 0 < requestSize)
    (congrArg Prod.fst hfill) hbehind
  omega

/-- Bytes that have been taken are used. -/
theorem length_ahead_drop
    (hfill : s.fill n = (.ok (), s')) :
  s.ahead.length = n + ({ s' with buffered := s'.buffered.drop n } : Stream).ahead.length
  := by
  have enough := fill_enough hfill
  rw [← fill_ahead hfill, ahead, ahead, List.length_append, List.length_append, List.length_drop]
  change _ = _ + (_ + s'.unread.length)
  omega

theorem keeps_fill
    (hfill : s.fill n = (.ok (), s')) :
  s.Keeps 0 s'
  := by
  refine ⟨0, ?_, fun place _ hplace => ⟨place, (Nat.zero_add _).symm, hplace.kept hfill nofun⟩⟩
  rw [fill_ahead hfill, Nat.zero_add]

/-- Bytes that have been taken are used, and no failure came in front of them. -/
theorem keeps_drop
    (hfill : s.fill n = (.ok (), s')) :
  s.Keeps 0 { s' with buffered := s'.buffered.drop n }
  := by
  refine ⟨n, length_ahead_drop hfill, ?_⟩
  intro place _ hplace
  have covered := le_of_failsAt hfill hplace
  have enough := fill_enough hfill
  obtain ⟨behind, hbehind, rfl⟩ := hplace.kept hfill nofun
  refine ⟨s'.buffered.length - n + behind, by omega, behind, hbehind, ?_⟩
  rw [List.length_drop]

/-- After an interruption, all failures are still to come but those in front of the bytes needed. -/
theorem keeps_of_interrupted
    {s'' : Stream} (hfill : s.fill n = (outcome, s')) (h : interrupted outcome = true)
    (h' : s'.Keeps n s'') :
  s.Keeps n s''
  := by
  obtain ⟨used, hused, hkept⟩ := h'
  refine ⟨used, by rw [← fill_ahead hfill, hused], ?_⟩
  intro place hstart hplace
  have less := (failsAt_of_fill hfill h).2
  exact hkept place hstart (hplace.kept hfill fun _ => Nat.lt_of_lt_of_le less hstart)

end Fill

end Stream

end SqlWire
