import SqlWire.Auth.Plugin

/-!
# Courses of exchanges

The operations of a client on a link, and the relation `Exchange.Course` of an exchange to the
operations and the outcome of one of its courses, whatever the link.  Over a script every exchange
takes one of its courses, `Exchange.exists_course`, which is the one that `Link.recorded` keeps.
What an exchange may send behind what has been done, `Exchange.SendsBehind`, is all that its courses
send.  The exchanges of the plugins that are built in end, if they do not fail, right behind the
reply that they end with: `Plugin.endsOnReply_start`.
-/

namespace SqlWire

/-- What a client does on a link: it sends a packet, it receives one, or it awaits one in vain. -/
inductive Operation where
  | sent (packet : Bytes)
  | received (packet : Bytes)
  | closed
  deriving DecidableEq, Repr

namespace Operation

/-- The packet that is sent. -/
def sent? : Operation → Option Bytes
  | sent packet => some packet
  | _ => none

/-- The packet that is received. -/
def received? : Operation → Option Bytes
  | received packet => some packet
  | _ => none

end Operation

/-- What has been done when a payload was awaited with the given outcome. -/
def Operation.ofReceipt : Except Error Bytes → Operation
  | .ok packet => received packet
  | .error _ => closed

/-- The link on which payloads are laid down, and what is done on it is recorded. -/
def Link.recorded : Link (Script × List Operation) where
  receive s :=
    let (outcome, script) := s.1.receive
    (outcome, script, s.2 ++ [.ofReceipt outcome])
  send packet s :=
    let (outcome, script) := s.1.send packet
    (outcome, script, s.2 ++ [.sent packet])
  isSecure s := s.1.isSecure
  pending s := s.1.incoming.length

/-- The script as some operations leave it. -/
structure Script.After (s : Script) (ops : List Operation) (s' : Script) : Prop where
  outgoing : s'.outgoing = s.outgoing ++ ops.filterMap Operation.sent?
  incoming : s.incoming = ops.filterMap Operation.received? ++ s'.incoming
  isSecure : s'.isSecure = s.isSecure
  closed : .closed ∈ ops → s'.incoming = []

namespace Script

theorem after_nil
    (s : Script) :
  s.After [] s
  :=
  ⟨(List.append_nil _).symm, rfl, rfl, nofun⟩

theorem After.append
    {s s' s'' : Script} {ops ops' : List Operation} (h : s.After ops s') (h' : s'.After ops' s'') :
  s.After (ops ++ ops') s''
  := by
  constructor
  · rw [h'.outgoing, h.outgoing, List.filterMap_append, List.append_assoc]
  · rw [h.incoming, h'.incoming, List.filterMap_append, List.append_assoc]
  · rw [h'.isSecure, h.isSecure]
  · intro hclosed
    rcases List.mem_append.mp hclosed with hclosed | hclosed
    · have none := h.closed hclosed
      rw [h'.incoming, List.append_eq_nil_iff] at none
      apply none.2
    · apply h'.closed hclosed

end Script

namespace Exchange

/-- The exchange takes a course of the given operations, which ends with the outcome. -/
inductive Course : Exchange → List Operation → Except Error Bytes → Prop where
  | done (reply : Bytes) : Course (done reply) [] (.ok reply)
  | fail (e : Error) : Course (fail e) [] (.error e)
  | send {packet : Bytes} {next : Exchange} {ops : List Operation} {outcome : Except Error Bytes}
      (rest : Course next ops outcome) : Course (send packet next) (.sent packet :: ops) outcome
  | receive {next : Bytes → Exchange} {reply : Bytes} {ops : List Operation}
      {outcome : Except Error Bytes} (rest : Course (next reply) ops outcome) :
      Course (receive next) (.received reply :: ops) outcome
  | closed (next : Bytes → Exchange) :
      Course (receive next) [.closed] (.error .connectionClosed)

/-- Over a script the exchange takes one of its courses, which is the one recorded. -/
theorem exists_course_recorded
    (x : Exchange) (s : Script) :
  ∃ ops, x.Course ops (x.run .script s).1 ∧ s.After ops (x.run .script s).2 ∧
    ∀ history, x.run .recorded (s, history) =
      ((x.run .script s).1, (x.run .script s).2, history ++ ops)
  := by
  induction x generalizing s with
  | done reply => exact ⟨[], .done reply, s.after_nil, fun _ => by rw [List.append_nil]; rfl⟩
  | fail e => exact ⟨[], .fail e, s.after_nil, fun _ => by rw [List.append_nil]; rfl⟩
  | send packet next ih =>
    obtain ⟨ops, hcourse, hafter, hrecorded⟩ := ih (s.send packet).2
    have sent : s.After [.sent packet] (s.send packet).2 := ⟨rfl, rfl, rfl, by simp⟩
    refine ⟨.sent packet :: ops, .send hcourse, sent.append hafter, fun history => ?_⟩
    rw [List.append_cons]
    exact hrecorded (history ++ [.sent packet])
  | receive next ih =>
    obtain ⟨incoming, outgoing, isSecure⟩ := s
    cases incoming with
    | nil =>
      exact ⟨[.closed], .closed next, ⟨(List.append_nil _).symm, rfl, rfl, fun _ => rfl⟩,
        fun _ => rfl⟩
    | cons reply incoming =>
      obtain ⟨ops, hcourse, hafter, hrecorded⟩ := ih reply ⟨incoming, outgoing, isSecure⟩
      have received : Script.After ⟨reply :: incoming, outgoing, isSecure⟩ [.received reply]
          ⟨incoming, outgoing, isSecure⟩ :=
        ⟨(List.append_nil _).symm, rfl, rfl, by simp⟩
      refine ⟨.received reply :: ops, .receive hcourse, received.append hafter, fun history => ?_⟩
      rw [List.append_cons]
      exact hrecorded (history ++ [.received reply])

/-- Over a script the exchange takes one of its courses. -/
theorem exists_course
    (x : Exchange) (s : Script) :
  ∃ ops, x.Course ops (x.run .script s).1 ∧ s.After ops (x.run .script s).2
  := by
  obtain ⟨ops, hcourse, hafter, -⟩ := x.exists_course_recorded s
  exact ⟨ops, hcourse, hafter⟩

/-! ### Packets -/

/-- Every packet that the exchange may send when the given operations are done has the property,
which also looks at all operations before the packet. -/
def SendsBehind (P : List Operation → Bytes → Prop) (before : List Operation) : Exchange → Prop
  | done _ => True
  | fail _ => True
  | send packet next => P before packet ∧ next.SendsBehind P (before ++ [.sent packet])
  | receive next => ∀ reply, (next reply).SendsBehind P (before ++ [.received reply])

/-- In each course of the exchange every packet has the property. -/
theorem Course.of_sendsBehind
    {P : List Operation → Bytes → Prop} {x : Exchange} {history ops : List Operation}
    {outcome : Except Error Bytes} (hx : x.SendsBehind P history) (h : x.Course ops outcome) :
  ∀ before packet after, ops = before ++ .sent packet :: after → P (history ++ before) packet
  := by
  -- on the course: its first operation is the packet, or else it joins the history
  induction h generalizing history with
  | done reply => simp
  | fail e => simp
  | closed next =>
    intro before packet after hops
    cases before <;> simp at hops
  | @send sent next ops outcome rest ih =>
    intro before packet after hops
    cases before with
    | nil =>
      cases hops
      rw [List.append_nil]
      apply hx.1
    | cons op before =>
      obtain ⟨rfl, hrest⟩ := List.cons.inj hops
      rw [List.append_cons]
      apply ih hx.2 before packet after hrest
  | @receive next reply ops outcome rest ih =>
    intro before packet after hops
    cases before with
    | nil => cases hops
    | cons op before =>
      obtain ⟨rfl, hrest⟩ := List.cons.inj hops
      rw [List.append_cons]
      apply ih (hx reply) before packet after hrest

theorem sendsBehind_single
    {P : List Operation → Bytes → Prop} {before : List Operation} {packet : Bytes}
    (h : P before packet) :
  (single packet).SendsBehind P before
  :=
  ⟨h, fun _ => trivial⟩

/-! ### The last reply -/

/-- The exchange ends, if it does not fail, with the reply that it has received last. -/
def EndsOnReply : Exchange → Prop
  | done _ => False
  | fail _ => True
  | send _ next => next.EndsOnReply
  | receive next => ∀ reply, next reply = .done reply ∨ (next reply).EndsOnReply

theorem Course.getLast?_eq
    {x : Exchange} {ops : List Operation} {reply : Bytes} (hx : x.EndsOnReply)
    (h : x.Course ops (.ok reply)) :
  ops.getLast? = some (.received reply)
  := by
  generalize houtcome : Except.ok reply = outcome at h
  induction h with
  | done reply => cases hx
  | fail e => cases houtcome
  | closed next => cases houtcome
  | send rest ih =>
    rw [List.getLast?_cons, ih hx houtcome]
    rfl
  | @receive next reply' ops outcome rest ih =>
    rcases hx reply' with hdone | hends
    · rw [hdone] at rest
      subst houtcome
      cases rest
      rfl
    · rw [List.getLast?_cons, ih hends houtcome]
      rfl

theorem endsOnReply_single
    (packet : Bytes) :
  (single packet).EndsOnReply
  :=
  fun _ => .inl rfl

end Exchange

/-! ### The plugins that are built in -/

namespace Session

theorem endsOnReply_sendEncrypted
    (s : Session) (key : PublicKey) :
  (s.sendEncrypted key).EndsOnReply
  := by
  rw [sendEncrypted]
  split
  · apply Exchange.endsOnReply_single
  · trivial

theorem endsOnReply_sendPassword
    (s : Session) (key : Option PublicKey) (request : UInt8) :
  (s.sendPassword key request).EndsOnReply
  := by
  unfold sendPassword
  split
  · apply Exchange.endsOnReply_single
  cases key with
  | some key => apply endsOnReply_sendEncrypted
  | none =>
    dsimp only
    split
    · intro reply
      right
      dsimp only
      split
      · apply endsOnReply_sendEncrypted
      · trivial
    · trivial

end Session

namespace Plugin

theorem endsOnReply_afterScramble
    (s : Session) (key : Option PublicKey) (reply : Bytes) :
  afterScramble s key reply = .done reply ∨ (afterScramble s key reply).EndsOnReply
  := by
  rw [afterScramble]
  split
  · left
    rfl
  right
  split
  · intro reply
    left
    rfl
  split
  · apply Session.endsOnReply_sendPassword
  · trivial

theorem endsOnReply_answerPrompts
    (prompt : Nat) (answers : List String) :
  (answerPrompts prompt answers).EndsOnReply
  := by
  induction answers generalizing prompt with
  | nil => trivial
  | cons answer answers ih =>
    intro reply
    dsimp only
    split
    · left
      rfl
    · right
      apply ih

/-- The exchanges of the plugins that are built in. -/
theorem start_eq_ok
    {p : Plugin} {s : Session} {x : Exchange} (hp : p ∈ builtIn) (hx : p.start s = .ok x) :
  (p = nativePassword ∧ x = .single (Scramble.sha1 s.secret s.seed)) ∨
  (p = clearPassword ∧ x = .single s.cleartext) ∨
  (p = cachingSha2Password ∧ ∃ key, s.configuredKey = .ok key ∧
    x = .send (Scramble.sha256 s.secret s.seed) (.receive (afterScramble s key))) ∨
  (p = sha256Password ∧ ∃ key, s.configuredKey = .ok key ∧
    x = if s.password.isEmpty then .single [0] else s.sendPassword key 0x01) ∨
  (p = dialog ∧ x = answerPrompts 1 (s.password :: s.connection.extraPasswords))
  := by
  have keyed {next : Option PublicKey → Exchange}
      (h : (do let key ← s.configuredKey; return next key) = Except.ok x) :
      ∃ key, s.configuredKey = .ok key ∧ x = next key := by
    cases hkey : s.configuredKey with
    | error e => rw [hkey] at h; cases h
    | ok key => rw [hkey] at h; cases h; exact ⟨key, rfl, rfl⟩
  simp only [builtIn, List.mem_cons, List.not_mem_nil, or_false] at hp
  rcases hp with rfl | rfl | rfl | rfl | rfl
  · cases hx
    exact .inl ⟨rfl, rfl⟩
  · cases hx
    exact .inr (.inl ⟨rfl, rfl⟩)
  · exact .inr (.inr (.inl ⟨rfl, keyed hx⟩))
  · exact .inr (.inr (.inr (.inl ⟨rfl, keyed hx⟩)))
  · cases hx
    exact .inr (.inr (.inr (.inr ⟨rfl, rfl⟩)))

theorem endsOnReply_start
    {p : Plugin} {s : Session} {x : Exchange} (hp : p ∈ builtIn) (hx : p.start s = .ok x) :
  x.EndsOnReply
  := by
  rcases start_eq_ok hp hx with ⟨-, rfl⟩ | ⟨-, rfl⟩ | ⟨-, key, -, rfl⟩ | ⟨-, key, -, rfl⟩ | ⟨-, rfl⟩
  · apply Exchange.endsOnReply_single
  · apply Exchange.endsOnReply_single
  · apply endsOnReply_afterScramble
  · split
    · apply Exchange.endsOnReply_single
    · apply Session.endsOnReply_sendPassword
  · apply endsOnReply_answerPrompts

end Plugin

end SqlWire
