import Mathlib.Data.List.Chain
import SqlWire.Auth.Negotiation
import SqlWire.Proofs.Auth.Course

/-!
# Rounds of an authentication

What a client does to authenticate is told round by round.  A `Round` has the request that it
answers, the operations of the client and the end of the plugin's exchange; `Registry.Run` says
which rounds follow each other from a request to an answer, without a bound on their number.  The
plugins that are built in receive a packet in every round but the last, so that the rounds of
`Registry.negotiate` are those of such a run, of which `Registry.negotiate_run` tells what is safe.
-/

namespace SqlWire

/-- A round: its number, the plugin and the seed that the server asks for, what the client does, and
the reply or the failure with which the plugin's exchange ends. -/
structure Round where
  number : Nat
  request : AuthSwitch
  operations : List Operation
  outcome : Except Error Bytes

/-- The meaning of the end of a round. -/
def Round.verdict (a : Round) : Except Error Verdict :=
  a.outcome >>= Verdict.ofReply a.request.plugin

/-- The round of a request that is refused does nothing; any other is a course of an exchange. -/
def Round.IsOf (r : Registry) (c : Connection) (w : Surroundings) (isSecure : Bool) (a : Round) :
    Prop :=
  match r.begin c w isSecure a.number a.request with
  | .error e => a.operations = [] ∧ a.outcome = .error e
  | .ok exchange => exchange.Course a.operations a.outcome

/-- The rounds from a request to an answer: each but the last ends with the request of the next. -/
inductive Registry.Run (r : Registry) (c : Connection) (w : Surroundings) (isSecure : Bool) :
    Nat → AuthSwitch → List Round → Except Error Ok → Prop where
  | last {a : Round} {answer : Except Error Ok} (ha : a.IsOf r c w isSecure)
      (hanswer : a.verdict = answer.map .accepted) :
      Run r c w isSecure a.number a.request [a] answer
  | switch {a : Round} {request : AuthSwitch} {rounds : List Round} {answer : Except Error Ok}
      (ha : a.IsOf r c w isSecure) (hrequest : a.verdict = .ok (.switch request))
      (rest : Run r c w isSecure (a.number + 1) request rounds answer) :
      Run r c w isSecure a.number a.request (a :: rounds) answer

variable {r : Registry} {c : Connection} {w : Surroundings} {isSecure : Bool}

/-! ### Meanings of replies -/

theorem Except.map_eq_ok
    {ε α β : Type} {f : α → β} {outcome : Except ε α} {b : β} (h : outcome.map f = .ok b) :
  ∃ a, outcome = .ok a ∧ f a = b
  := by
  cases outcome with
  | error e => cases h
  | ok a => exact ⟨a, rfl, Except.ok.inj h⟩

theorem Verdict.ofReply_eq_accepted
    {plugin : String} {reply : Bytes} {answer : Ok}
    (h : ofReply plugin reply = .ok (.accepted answer)) :
  reply.head? = some okMarker ∧ Ok.ofPayload reply = .ok answer
  := by
  cases reply with
  | nil => cases h
  | cons marker rest =>
    rw [ofReply] at h
    split at h
    next hmarker =>
      obtain ⟨answer', hanswer, hsame⟩ := Except.map_eq_ok h
      cases hsame
      exact ⟨congrArg some hmarker, hanswer⟩
    split at h
    · cases h
    split at h
    · obtain ⟨_, _, hsame⟩ := Except.map_eq_ok h
      cases hsame
    split at h <;> cases h

theorem Verdict.ofReply_eq_switch
    {plugin : String} {reply : Bytes} {request : AuthSwitch}
    (h : ofReply plugin reply = .ok (.switch request)) :
  reply.head? = some authSwitchMarker ∧ AuthSwitch.ofPayload reply = .ok request
  := by
  cases reply with
  | nil => cases h
  | cons marker rest =>
    rw [ofReply] at h
    split at h
    · obtain ⟨_, _, hsame⟩ := Except.map_eq_ok h
      cases hsame
    split at h
    · cases h
    split at h
    next hmarker =>
      obtain ⟨request', hrequest, hsame⟩ := Except.map_eq_ok h
      cases hsame
      exact ⟨congrArg some hmarker, hrequest⟩
    split at h <;> cases h

theorem Round.outcome_of_verdict
    {a : Round} {v : Verdict} (h : a.verdict = .ok v) :
  ∃ reply, a.outcome = .ok reply ∧ Verdict.ofReply a.request.plugin reply = .ok v
  := by
  rw [verdict] at h
  cases houtcome : a.outcome with
  | error e => rw [houtcome] at h; cases h
  | ok reply =>
    rw [houtcome] at h
    exact ⟨reply, rfl, h⟩

/-! ### Choice of plugins -/

/-- The client may use the plugin: it is listed when there is a list, or else needs no leave. -/
def Connection.Permits (c : Connection) (p : Plugin) : Prop :=
  match c.allowedPlugins with
  | some allowed => p.name ∈ allowed
  | none => p.isActiveByDefault

namespace Registry

theorem find?_eq_some
    {name : String} {p : Plugin} (h : r.find? name = some p) :
  p ∈ r ∧ p.name = name
  :=
  ⟨List.mem_of_find?_eq_some h, by simpa using List.find?_some h⟩

/-- The plugin that is chosen is the one that is found, if it may be used. -/
theorem select_eq_ok_iff
    {name : String} {p : Plugin} :
  r.select name c = .ok p ↔ r.find? name = some p ∧ c.Permits p
  := by
  rw [select]
  cases hp : r.find? name with
  | none => simp
  | some q =>
    obtain rfl := (find?_eq_some hp).2
    have permitted : q = p ∧ c.Permits p ↔ c.Permits q ∧ q = p := by
      rw [and_comm]
      exact and_congr_left fun hsame => by rw [hsame]
    rw [Option.some_inj, permitted, Connection.Permits]
    cases c.allowedPlugins with
    | some allowed =>
      dsimp only
      split
      next hlisted => simp [hlisted]
      next hmissing => simp [hmissing]
    | none =>
      dsimp only
      split
      next hactive => simp [hactive]
      next hpassive => simp [hpassive]

theorem select_eq_ok
    {name : String} {p : Plugin} (h : r.select name c = .ok p) :
  p ∈ r ∧ p.name = name ∧ c.Permits p
  := by
  obtain ⟨hfound, hpermits⟩ := select_eq_ok_iff.mp h
  obtain ⟨hmem, hname⟩ := find?_eq_some hfound
  exact ⟨hmem, hname, hpermits⟩

theorem begin_eq_ok
    {round : Nat} {request : AuthSwitch} {x : Exchange}
    (h : r.begin c w isSecure round request = .ok x) :
  ∃ p ∈ r, p.name = request.plugin ∧ c.Permits p ∧
    p.start ⟨c.secret, request.seed, c, isSecure, w.keyFile, w.padding round⟩ = .ok x
  := by
  rw [begin] at h
  cases hselect : r.select request.plugin c with
  | error e => rw [hselect] at h; cases h
  | ok p =>
    rw [hselect] at h
    obtain ⟨hmem, hname, hpermits⟩ := select_eq_ok hselect
    exact ⟨p, hmem, hname, hpermits, h⟩

end Registry

/-! ### One round -/

/-- The round is a course of the exchange of a permitted plugin of exactly the name that is asked
for, which is given the seed that comes with it. -/
def Round.IsPermitted (r : Registry) (c : Connection) (w : Surroundings) (isSecure : Bool)
    (a : Round) : Prop :=
  ∃ p ∈ r, p.name = a.request.plugin ∧ c.Permits p ∧ ∃ x,
    p.start ⟨c.secret, a.request.seed, c, isSecure, w.keyFile, w.padding a.number⟩ = .ok x ∧
      x.Course a.operations a.outcome

/-- The round ends with the receipt of a packet that asks for the plugin and the seed of the
next. -/
def Round.LeadsTo (a b : Round) : Prop :=
  ∃ packet, a.outcome = .ok packet ∧ a.operations.getLast? = some (.received packet) ∧
    packet.head? = some authSwitchMarker ∧ AuthSwitch.ofPayload packet = .ok b.request

theorem Round.IsOf.isPermitted
    {a : Round} (h : a.IsOf r c w isSecure) (hoperations : a.operations ≠ []) :
  a.IsPermitted r c w isSecure
  := by
  rw [IsOf] at h
  split at h
  · exact absurd h.1 hoperations
  next x hx =>
    obtain ⟨p, hmem, hname, hpermits, hstart⟩ := Registry.begin_eq_ok hx
    exact ⟨p, hmem, hname, hpermits, x, hstart, h⟩

theorem Round.IsOf.refused
    {a : Round} {e : Error} (h : a.IsOf r c w isSecure)
    (he : r.begin c w isSecure a.number a.request = .error e) :
  a.operations = []
  := by
  rw [IsOf, he] at h
  apply h.1

/-- A round that does not fail does nothing behind the reply that it ends with. -/
theorem Round.IsOf.getLast?_eq
    {a : Round} {reply : Bytes} (hr : ∀ p ∈ r, p ∈ Plugin.builtIn) (h : a.IsOf r c w isSecure)
    (hreply : a.outcome = .ok reply) :
  a.operations.getLast? = some (.received reply)
  := by
  rw [IsOf] at h
  split at h
  · rw [hreply] at h
    cases h.2
  next x hx =>
    obtain ⟨p, hmem, -, -, hstart⟩ := Registry.begin_eq_ok hx
    rw [hreply] at h
    apply h.getLast?_eq (Plugin.endsOnReply_start (hr p hmem) hstart)

/-- A round that does not fail takes a packet from the script. -/
theorem Round.IsOf.length_incoming_lt
    {a : Round} {reply : Bytes} {s s' : Script} (hr : ∀ p ∈ r, p ∈ Plugin.builtIn)
    (h : a.IsOf r c w isSecure) (hreply : a.outcome = .ok reply) (hs : s.After a.operations s') :
  s'.incoming.length < s.incoming.length
  := by
  have received : reply ∈ a.operations.filterMap Operation.received? :=
    List.mem_filterMap.mpr
      ⟨.received reply, List.mem_of_getLast? (h.getLast?_eq hr hreply), rfl⟩
  have some := List.length_pos_of_mem received
  rw [hs.incoming, List.length_append]
  omega

/-! ### All rounds -/

namespace Registry

/-- What follows over a link when a round has ended with the given verdict. -/
def proceed {σ : Type} (r : Registry) (c : Connection) (w : Surroundings) (link : Link σ)
    (fuel number : Nat) (verdict : Except Error Verdict) (s : σ) : Except Error Ok × σ :=
  match verdict with
  | .error e => (.error e, s)
  | .ok (.accepted answer) => (.ok answer, s)
  | .ok (.switch request) => r.rounds c w link fuel (number + 1) request s

theorem rounds_of_begin_eq_error
    {σ : Type} {link : Link σ} {number : Nat} {request : AuthSwitch} {s : σ} {e : Error}
    (h : r.begin c w (link.isSecure s) number request = .error e) (fuel : Nat) :
  r.rounds c w link (fuel + 1) number request s = (.error e, s)
  := by
  rw [rounds, h]

theorem rounds_of_begin_eq_ok
    {σ : Type} {link : Link σ} {number : Nat} {request : AuthSwitch} {s : σ} {x : Exchange}
    (h : r.begin c w (link.isSecure s) number request = .ok x) (fuel : Nat) :
  r.rounds c w link (fuel + 1) number request s =
    r.proceed c w link fuel number ((x.run link s).1 >>= Verdict.ofReply request.plugin)
      (x.run link s).2
  := by
  rw [rounds, h]
  dsimp only
  obtain ⟨_ | reply, s'⟩ := x.run link s
  · rfl
  · rfl

/-- The first round, which decides whether there are more. -/
theorem exists_round
    (r : Registry) (c : Connection) (w : Surroundings) (number : Nat) (request : AuthSwitch)
    (s : Script) :
  ∃ operations outcome s',
    let a : Round := ⟨number, request, operations, outcome⟩
    a.IsOf r c w s.isSecure ∧ s.After operations s' ∧
    ∀ fuel, r.rounds c w .script (fuel + 1) number request s =
      match a.verdict with
      | .error e => (.error e, s')
      | .ok (.accepted answer) => (.ok answer, s')
      | .ok (.switch next) => r.rounds c w .script fuel (number + 1) next s'
  := by
  cases hbegin : r.begin c w s.isSecure number request with
  | error e =>
    refine ⟨[], .error e, s, ?_, s.after_nil, rounds_of_begin_eq_error hbegin⟩
    rw [Round.IsOf, hbegin]
    exact ⟨rfl, rfl⟩
  | ok x =>
    obtain ⟨operations, hcourse, hafter⟩ := x.exists_course s
    refine ⟨operations, (x.run .script s).1, (x.run .script s).2, ?_, hafter,
      rounds_of_begin_eq_ok hbegin⟩
    rw [Round.IsOf, hbegin]
    apply hcourse

/-- The rounds of a client over a script are those of a run, if there is fuel for all packets. -/
theorem rounds_run
    (hr : ∀ p ∈ r, p ∈ Plugin.builtIn) (c : Connection) (w : Surroundings) {fuel : Nat}
    (number : Nat) (request : AuthSwitch) {s : Script} (hfuel : s.incoming.length < fuel) :
  ∃ rounds, r.Run c w s.isSecure number request rounds
      (r.rounds c w .script fuel number request s).1 ∧
    s.After (rounds.flatMap Round.operations) (r.rounds c w .script fuel number request s).2
  := by
  -- On the fuel: a round that leads to another has taken a packet, so that the bound on those left
  -- holds for the rest.
  induction fuel generalizing number request s with
  | zero => contradiction
  | succ fuel ih =>
    obtain ⟨operations, outcome, s', hround, hafter, hstep⟩ := r.exists_round c w number request s
    rw [hstep]
    cases hverdict : Round.verdict ⟨number, request, operations, outcome⟩ with
    | error e =>
      refine ⟨_, .last hround hverdict, ?_⟩
      rw [List.flatMap_singleton]
      apply hafter
    | ok v =>
      cases v with
      | accepted answer =>
        refine ⟨_, .last hround hverdict, ?_⟩
        rw [List.flatMap_singleton]
        apply hafter
      | switch request' =>
        obtain ⟨reply, hreply, -⟩ := Round.outcome_of_verdict hverdict
        have shorter := hround.length_incoming_lt hr hreply hafter
        obtain ⟨rounds, hrun, hrest⟩ := ih (number + 1) request' (s := s') (by omega)
        rw [hafter.isSecure] at hrun
        exact ⟨_, .switch hround hverdict hrun, hafter.append hrest⟩

theorem Run.head?_eq
    {number : Nat} {request : AuthSwitch} {rounds : List Round} {answer : Except Error Ok}
    (h : r.Run c w isSecure number request rounds answer) :
  rounds.head?.map Round.request = some request
  := by
  cases h <;> rfl

theorem Run.isOf
    {number : Nat} {request : AuthSwitch} {rounds : List Round} {answer : Except Error Ok}
    (h : r.Run c w isSecure number request rounds answer) :
  ∀ a ∈ rounds, a.IsOf r c w isSecure
  := by
  induction h with
  | last ha _ => exact List.forall_mem_singleton.mpr ha
  | switch ha _ _ ih => exact List.forall_mem_cons.mpr ⟨ha, ih⟩

/-- Each round asks for the next. -/
theorem Run.isChain
    {number : Nat} {request : AuthSwitch} {rounds : List Round} {answer : Except Error Ok}
    (hr : ∀ p ∈ r, p ∈ Plugin.builtIn) (h : r.Run c w isSecure number request rounds answer) :
  rounds.IsChain Round.LeadsTo
  := by
  induction h with
  | last ha _ => exact .singleton _
  | @switch a request rounds answer ha hrequest rest ih =>
    obtain ⟨packet, hpacket, hmeaning⟩ := Round.outcome_of_verdict hrequest
    obtain ⟨hmarker, hswitch⟩ := Verdict.ofReply_eq_switch hmeaning
    have first := rest.head?_eq
    cases rounds with
    | nil => cases first
    | cons b rounds =>
      cases Option.some.inj first
      exact .cons_cons ⟨packet, hpacket, ha.getLast?_eq hr hpacket, hmarker, hswitch⟩ ih

/-- An acceptance is the meaning of the packet that is received last. -/
theorem Run.accepted
    {number : Nat} {request : AuthSwitch} {rounds : List Round} {answer : Ok}
    (hr : ∀ p ∈ r, p ∈ Plugin.builtIn)
    (h : r.Run c w isSecure number request rounds (.ok answer)) :
  ∃ packet, (rounds.flatMap Round.operations).getLast? = some (.received packet) ∧
    packet.head? = some okMarker ∧ Ok.ofPayload packet = .ok answer
  := by
  generalize hanswer : Except.ok answer = outcome at h
  induction h with
  | last ha hverdict =>
    subst hanswer
    obtain ⟨packet, hpacket, hmeaning⟩ := Round.outcome_of_verdict hverdict
    refine ⟨packet, ?_, Verdict.ofReply_eq_accepted hmeaning⟩
    rw [List.flatMap_singleton]
    apply ha.getLast?_eq hr hpacket
  | switch ha _ _ ih =>
    obtain ⟨packet, hlast, hmeaning⟩ := ih hanswer
    refine ⟨packet, ?_, hmeaning⟩
    rw [List.flatMap_cons, List.getLast?_append, hlast]
    rfl

/-- A reply that asks for no other plugin is the end of the run. -/
theorem Run.eq_nil
    {number : Nat} {request : AuthSwitch} {answer : Except Error Ok} {earlier later : List Round}
    {a : Round} {reply : Bytes} (hr : ∀ p ∈ r, p ∈ Plugin.builtIn)
    (h : r.Run c w isSecure number request (earlier ++ a :: later) answer)
    (hreply : a.outcome = .ok reply) (hmarker : reply.head? ≠ some authSwitchMarker) :
  later = []
  := by
  cases later with
  | nil => rfl
  | cons b later =>
    have chain := h.isChain hr
    rw [List.isChain_append, List.isChain_cons_cons] at chain
    obtain ⟨-, ⟨⟨packet, hpacket, -, hswitch, -⟩, -⟩, -⟩ := chain
    rw [hreply] at hpacket
    cases hpacket
    contradiction

/-- The authentication over a script, with plugins that are built in, ends after a run of rounds
that make up all that is done.  It receives no more packets than there are; something is sent or
received only by the permitted plugin of exactly the name that is asked for; the first round has the
plugin and the seed given, and every other those of the packet that ended the one before; a refused
round does nothing; and an acceptance is the meaning of the last packet received, while a reply that
asks for no other plugin ends everything. -/
theorem negotiate_run
    (hr : ∀ p ∈ r, p ∈ Plugin.builtIn) (c : Connection) (w : Surroundings) (plugin : String)
    (seed : Bytes) (incoming : List Bytes) (isSecure : Bool) :
  let start := Script.ofIncoming incoming isSecure
  let result := r.negotiate c w .script plugin seed start
  let first : AuthSwitch := ⟨if plugin.isEmpty then defaultPlugin else plugin, seed⟩
  ∃ rounds : List Round,
    let operations := rounds.flatMap Round.operations
    r.Run c w isSecure 0 first rounds result.1 ∧ start.After operations result.2 ∧
    (operations.filterMap Operation.received?).length ≤ incoming.length ∧
    (∀ a ∈ rounds, a.operations ≠ [] → a.IsPermitted r c w isSecure) ∧
    (rounds.head?.map Round.request = some first ∧ rounds.IsChain Round.LeadsTo) ∧
    (∀ a ∈ rounds, ∀ e, r.begin c w isSecure a.number a.request = .error e →
      a.operations = []) ∧
    (∀ answer, result.1 = .ok answer → ∃ packet,
      operations.getLast? = some (.received packet) ∧ packet.head? = some okMarker ∧
        Ok.ofPayload packet = .ok answer) ∧
    ∀ earlier a later reply, rounds = earlier ++ a :: later → a.outcome = .ok reply →
      reply.head? ≠ some authSwitchMarker → later = []
  := by
  intro start result first
  obtain ⟨rounds, hrun, hafter⟩ := rounds_run hr c w 0 first (s := start) (Nat.lt_succ_self _)
  refine ⟨rounds, hrun, hafter, ?_, ?_, ⟨hrun.head?_eq, hrun.isChain hr⟩, ?_, ?_, ?_⟩
  · have whole : incoming = _ := hafter.incoming
    rw [whole, List.length_append]
    apply Nat.le_add_right
  · intro a ha
    apply (hrun.isOf a ha).isPermitted
  · intro a ha e
    apply (hrun.isOf a ha).refused
  · intro answer hanswer
    apply Run.accepted hr (hanswer ▸ hrun)
  · rintro earlier a later reply rfl
    apply hrun.eq_nil hr

/-- Two rounds: the server asks for another plugin, whose scramble it then accepts. -/
theorem negotiate_run_switch :
  let r : Registry := Plugin.builtIn
  let w : Surroundings := ⟨fun _ => .error "", fun _ => []⟩
  let incoming := [AuthSwitch.payload ⟨"caching_sha2_password", [5]⟩, [0x01, 0x03],
    [0x00, 0x00, 0x00, 0x02, 0x00, 0x00, 0x00]]
  (∀ p ∈ r, p ∈ Plugin.builtIn) ∧
    ∃ rounds, r.Run default w false 0 ⟨"mysql_native_password", []⟩ rounds (.ok ⟨0, 0, 2, 0⟩) ∧
      (rounds.flatMap Round.operations).filterMap Operation.received? = incoming
  := by
  intro r w incoming
  have hr : ∀ p ∈ r, p ∈ Plugin.builtIn := fun _ h => h
  have result : r.negotiate default w .script "" [] (.ofIncoming incoming false) =
      (.ok ⟨0, 0, 2, 0⟩, ⟨[], [[], []], false⟩) := by
    rfl
  obtain ⟨rounds, hrun, hafter, -⟩ := negotiate_run hr default w "" [] incoming false
  rw [result] at hrun hafter
  have whole : incoming = _ := hafter.incoming
  rw [List.append_nil] at whole
  exact ⟨hr, rounds, hrun, whole.symm⟩

end Registry

end SqlWire
