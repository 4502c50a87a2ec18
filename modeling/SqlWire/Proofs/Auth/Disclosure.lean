import SqlWire.Proofs.Auth.Course

/-!
# What the plugins of SHA-256 disclose

The two plugins that prove a password by SHA-256 send nothing but what `Session.MaySend` lists,
whatever the server replies: the password as it is only if no one else can read along, and encrypted
under a key of the server's only if the server was allowed to be asked for it,
`Plugin.start_discloses`.
-/

namespace SqlWire

/-- The plugin proves a password by SHA-256, and asks a server for its key by the given byte. -/
inductive Plugin.RequestsKeyBy : Plugin → UInt8 → Prop where
  | cachingSha2 : RequestsKeyBy cachingSha2Password 0x02
  | sha256 : RequestsKeyBy sha256Password 0x01

namespace Session

/-- The password is encrypted under the key: under the one that the connection's parameters give or
name, and if there is none, under the one of the server's reply to a request for it. -/
inductive EncryptsUnder (s : Session) (request : UInt8) : List Operation → PublicKey → Prop where
  | configured {before : List Operation} {given text : String} {key : PublicKey}
      (hgiven : s.connection.serverKey = some given) (htext : s.keyText given = .ok text)
      (hkey : keyOfText text = .ok key) : EncryptsUnder s request before key
  | requested {before : List Operation} {reply : Bytes} {key : PublicKey}
      (hgiven : s.connection.serverKey = none) (hkey : keyOfText (repliedKeyText reply) = .ok key) :
      EncryptsUnder s request (before ++ [.sent [request], .received reply]) key

/-- The packet may be sent by a plugin that proves a password by SHA-256, behind the given
operations: first the scramble, or a NUL in the place of an empty password; and then the password as
it is if no one else can read along, or else a request for a key or the password encrypted. -/
inductive MaySend (s : Session) (p : Plugin) (request : UInt8) :
    List Operation → Bytes → Prop where
  | scramble (hp : p = .cachingSha2Password) :
      MaySend s p request [] (Scramble.sha256 s.secret s.seed)
  | nothing (hp : p = .sha256Password) (hpassword : s.password = "") : MaySend s p request [] [0]
  | cleartext {before : List Operation} (hsecure : s.isSecure = true) :
      MaySend s p request before (s.secret ++ [0])
  | request {before : List Operation} (hinsecure : s.isSecure = false)
      (hgiven : s.connection.serverKey = none) (hallowed : s.connection.allowsKeyRetrieval = true) :
      MaySend s p request before [request]
  | encrypted {before : List Operation} {key : PublicKey} {packet : Bytes}
      (hinsecure : s.isSecure = false) (hkey : s.EncryptsUnder request before key)
      (hpacket : key.encrypt? s.padding (Scramble.masked s.secret s.seed) = some packet) :
      MaySend s p request before packet

/-- A plugin that proves a password by SHA-256 goes on with the password itself: from the start, or
when the reply to its scramble asks for it. -/
inductive OpensFull (s : Session) : Plugin → List Operation → Prop where
  | sha256 (hpassword : s.password ≠ "") : OpensFull s .sha256Password []
  | cachingSha2 {reply : Bytes} (hreply : reply.take 2 = [moreDataMarker, Plugin.passwordWanted]) :
      OpensFull s .cachingSha2Password
        [.sent (Scramble.sha256 s.secret s.seed), .received reply]

variable {s : Session} {p : Plugin} {request : UInt8} {before : List Operation}

/-- The key that the connection's parameters give or name, if they do. -/
theorem configuredKey_eq_ok
    {key : Option PublicKey} (h : s.configuredKey = .ok key) :
  (key = none ∧ s.connection.serverKey = none) ∨
  ∃ k given text, key = some k ∧ s.connection.serverKey = some given ∧
    s.keyText given = .ok text ∧ keyOfText text = .ok k
  := by
  rw [configuredKey] at h
  cases hgiven : s.connection.serverKey with
  | none =>
    rw [hgiven] at h
    cases h
    exact .inl ⟨rfl, rfl⟩
  | some given =>
    rw [hgiven] at h
    dsimp only at h
    cases htext : s.keyText given with
    | error e => rw [htext] at h; cases h
    | ok text =>
      rw [htext] at h
      change (keyOfText text >>= fun k => pure (some k)) = _ at h
      cases hkey : keyOfText text with
      | error e => rw [hkey] at h; cases h
      | ok k =>
        rw [hkey] at h
        cases h
        exact .inr ⟨k, given, text, rfl, rfl, htext, hkey⟩

theorem sendsBehind_sendEncrypted
    {key : PublicKey} (hinsecure : s.isSecure = false) (hkey : s.EncryptsUnder request before key) :
  (s.sendEncrypted key).SendsBehind (s.MaySend p request) before
  := by
  rw [sendEncrypted]
  split
  next packet hpacket => exact Exchange.sendsBehind_single (.encrypted hinsecure hkey hpacket)
  next => trivial

/-- The password is protected in the way that is open. -/
theorem sendsBehind_sendPassword
    {key : Option PublicKey} (hkey : s.configuredKey = .ok key) :
  (s.sendPassword key request).SendsBehind (s.MaySend p request) before
  := by
  unfold sendPassword
  split
  next hsecure => exact Exchange.sendsBehind_single (.cleartext hsecure)
  next hopen =>
    have hinsecure : s.isSecure = false := Bool.eq_false_iff.mpr hopen
    obtain ⟨rfl, hgiven⟩ | ⟨k, given, text, rfl, hgiven, htext, hk⟩ := configuredKey_eq_ok hkey
    · dsimp only
      split
      next hallowed =>
        refine ⟨.request hinsecure hgiven hallowed, fun reply => ?_⟩
        dsimp only
        split
        next k hk =>
          rw [List.append_assoc]
          exact sendsBehind_sendEncrypted hinsecure (.requested hgiven hk)
        next => trivial
      next => trivial
    · exact sendsBehind_sendEncrypted hinsecure (.configured hgiven htext hk)

/-- Without a key and without leave to ask for one, the password is not sent. -/
theorem sendPassword_eq_fail
    (hinsecure : s.isSecure = false) (hallowed : s.connection.allowsKeyRetrieval = false) :
  s.sendPassword none request = .fail (.authentication .keyUnavailable)
  := by
  simp [sendPassword, hinsecure, hallowed]

end Session

namespace Plugin

variable {p : Plugin} {request : UInt8} {s : Session} {x : Exchange}

theorem sendsBehind_afterScramble
    {before : List Operation} {key : Option PublicKey} (hkey : s.configuredKey = .ok key)
    (reply : Bytes) :
  (afterScramble s key reply).SendsBehind (s.MaySend cachingSha2Password 0x02) before
  := by
  rw [afterScramble]
  split
  · trivial
  split
  · intro _
    trivial
  split
  · exact Session.sendsBehind_sendPassword hkey
  · trivial

/-- The exchange of a plugin that proves a password by SHA-256, and the key that it works with. -/
theorem RequestsKeyBy.start_eq_ok
    (hp : p.RequestsKeyBy request) (hx : p.start s = .ok x) :
  ∃ key, s.configuredKey = .ok key ∧
    ((p = cachingSha2Password ∧ request = 0x02 ∧
      x = .send (Scramble.sha256 s.secret s.seed) (.receive (afterScramble s key))) ∨
    (p = sha256Password ∧ request = 0x01 ∧
      x = if s.password.isEmpty then .single [0] else s.sendPassword key 0x01))
  := by
  cases hp with
  | cachingSha2 =>
    simp only [cachingSha2Password] at hx
    cases hkey : s.configuredKey with
    | error e => rw [hkey] at hx; cases hx
    | ok key => rw [hkey] at hx; cases hx; exact ⟨key, rfl, .inl ⟨rfl, rfl, rfl⟩⟩
  | sha256 =>
    simp only [sha256Password] at hx
    cases hkey : s.configuredKey with
    | error e => rw [hkey] at hx; cases hx
    | ok key => rw [hkey] at hx; cases hx; exact ⟨key, rfl, .inr ⟨rfl, rfl, rfl⟩⟩

theorem RequestsKeyBy.sendsBehind
    (hp : p.RequestsKeyBy request) (hx : p.start s = .ok x) :
  x.SendsBehind (s.MaySend p request) []
  := by
  obtain ⟨key, hkey, ⟨rfl, rfl, rfl⟩ | ⟨rfl, rfl, rfl⟩⟩ := hp.start_eq_ok hx
  · exact ⟨.scramble rfl, fun reply => sendsBehind_afterScramble hkey reply⟩
  · split
    next hempty =>
      exact Exchange.sendsBehind_single (.nothing rfl (String.isEmpty_iff.mp hempty))
    next => apply Session.sendsBehind_sendPassword hkey

theorem afterScramble_of_passwordWanted
    {key : Option PublicKey} {reply : Bytes}
    (hreply : reply.take 2 = [moreDataMarker, passwordWanted]) :
  afterScramble s key reply = s.sendPassword key 0x02
  := by
  have notFinal : isFinal reply = false := by
    cases reply with
    | nil => rfl
    | cons b reply =>
      obtain ⟨rfl, -⟩ := List.cons.inj hreply
      rfl
  simp [afterScramble, notFinal, hreply, scrambleAccepted, passwordWanted]

/-- On a link that others can read along, without a key and without leave to ask for one, a full
authentication fails where it begins. -/
theorem RequestsKeyBy.fails_of_no_key
    (hp : p.RequestsKeyBy request) (hx : p.start s = .ok x) (hinsecure : s.isSecure = false)
    (hgiven : s.connection.serverKey = none) (hallowed : s.connection.allowsKeyRetrieval = false)
    {opening ops : List Operation} {outcome : Except Error Bytes} (h : x.Course ops outcome)
    (hopening : s.OpensFull p opening) (hstart : opening <+: ops) :
  ops = opening ∧ outcome = .error (.authentication .keyUnavailable)
  := by
  obtain ⟨key, hkey, hexchange⟩ := hp.start_eq_ok hx
  obtain rfl : key = none := by
    obtain ⟨hnone, -⟩ | ⟨_, _, _, -, hsome, -⟩ := Session.configuredKey_eq_ok hkey
    · apply hnone
    · rw [hgiven] at hsome
      cases hsome
  cases hopening with
  | sha256 hpassword =>
    obtain ⟨hname, -, -⟩ | ⟨-, -, rfl⟩ := hexchange
    · exact absurd (congrArg Plugin.name hname) (by decide)
    · rw [if_neg (by simpa using hpassword), Session.sendPassword_eq_fail hinsecure hallowed] at h
      cases h
      exact ⟨rfl, rfl⟩
  | @cachingSha2 reply hreply =>
    obtain ⟨-, -, rfl⟩ | ⟨hname, -, -⟩ := hexchange
    · obtain ⟨_, hops⟩ := hstart
      cases h with
      | send rest =>
        cases rest with
        | closed => cases hops
        | receive rest =>
          cases hops
          rw [afterScramble_of_passwordWanted hreply,
            Session.sendPassword_eq_fail hinsecure hallowed] at rest
          cases rest
          exact ⟨rfl, rfl⟩
    · exact absurd (congrArg Plugin.name hname) (by decide)

/-- Whatever a server replies, a plugin that proves a password by SHA-256 sends only what it may;
and on a link that others can read along, without a key and without leave to ask for one, a full
authentication fails where it begins. -/
theorem start_discloses
    (hp : p.RequestsKeyBy request) (hx : p.start s = .ok x) (incoming : List Bytes) :
  let result := x.run .recorded (.ofIncoming incoming s.isSecure, [])
  let operations := result.2.2
  (∀ before packet after, operations = before ++ .sent packet :: after →
    s.MaySend p request before packet) ∧
  (s.isSecure = false → s.connection.serverKey = none → s.connection.allowsKeyRetrieval = false →
    ∀ opening, s.OpensFull p opening → opening <+: operations →
      operations = opening ∧ result.1 = .error (.authentication .keyUnavailable))
  := by
  intro result operations
  obtain ⟨ops, hcourse, -, hrecorded⟩ :=
    x.exists_course_recorded (.ofIncoming incoming s.isSecure)
  have hoperations : operations = ops := by
    simp only [operations, result, hrecorded, List.nil_append]
  have houtcome : result.1 = (x.run .script (.ofIncoming incoming s.isSecure)).1 := by
    simp only [result, hrecorded]
  rw [hoperations, houtcome]
  constructor
  · apply hcourse.of_sendsBehind (hp.sendsBehind hx)
  · intro hinsecure hgiven hallowed opening
    apply hp.fails_of_no_key hx hinsecure hgiven hallowed hcourse

/-- The server asks for the password, which the client has no way to send. -/
theorem start_discloses_scramble :
  let s : Session :=
    ⟨"secret", [7], default, false, fun _ => .error "", []⟩
  let reply : Bytes := [0x01, 0x04]
  let x : Exchange := .send (Scramble.sha256 s.secret s.seed) (.receive (afterScramble s none))
  let result := x.run .recorded (.ofIncoming [reply] s.isSecure, [])
  let operations := result.2.2
  cachingSha2Password.RequestsKeyBy 0x02 ∧ cachingSha2Password.start s = .ok x ∧
    (∀ before packet after, operations = before ++ .sent packet :: after →
      s.MaySend cachingSha2Password 0x02 before packet) ∧
    operations = [.sent (Scramble.sha256 s.secret s.seed), .received reply] ∧
    result.1 = .error (.authentication .keyUnavailable)
  := by
  intro s reply x result operations
  have hx : cachingSha2Password.start s = .ok x := rfl
  obtain ⟨hsent, hfails⟩ := start_discloses .cachingSha2 hx [reply]
  exact ⟨.cachingSha2, hx, hsent, hfails rfl rfl rfl _ (.cachingSha2 rfl) ⟨[], rfl⟩⟩

end Plugin

end SqlWire
