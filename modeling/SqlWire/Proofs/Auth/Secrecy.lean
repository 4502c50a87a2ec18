import SqlWire.Proofs.Auth.Rounds
import SqlWire.Proofs.Text.Utf8

/-!
# Who sends the password in clear

On a link that others can read along, and without a list of allowed plugins, the only plugin that
sends the password as it is, `Connection.cleartext`, is the dialogue: whatever another one sends is
something else, `Registry.negotiate_guarded`, unless a digest happens to be the password.  The
dialogue does send it, `Registry.negotiate_dialog_cleartext`.
-/

namespace SqlWire

namespace Exchange

/-- Every packet that the exchange may send has the property. -/
def SendsOnly (P : Bytes → Prop) : Exchange → Prop
  | done _ => True
  | fail _ => True
  | send packet next => P packet ∧ next.SendsOnly P
  | receive next => ∀ reply, (next reply).SendsOnly P

theorem SendsOnly.sendsBehind
    {P : Bytes → Prop} {x : Exchange} (h : x.SendsOnly P) (before : List Operation) :
  x.SendsBehind (fun _ => P) before
  := by
  induction x generalizing before with
  | done reply => trivial
  | fail e => trivial
  | send packet next ih => exact ⟨h.1, ih h.2 _⟩
  | receive next ih => exact fun reply => ih reply (h reply) _

theorem Course.of_sendsOnly
    {P : Bytes → Prop} {x : Exchange} {ops : List Operation} {outcome : Except Error Bytes}
    (hx : x.SendsOnly P) (h : x.Course ops outcome) :
  ∀ packet, .sent packet ∈ ops → P packet
  := by
  intro packet hpacket
  obtain ⟨before, after, hops⟩ := List.append_of_mem hpacket
  exact h.of_sendsBehind (hx.sendsBehind []) before packet after hops

theorem sendsOnly_single
    {P : Bytes → Prop} {packet : Bytes} (h : P packet) :
  (single packet).SendsOnly P
  :=
  ⟨h, fun _ => trivial⟩

end Exchange

/-! ### Lengths -/

theorem Bytes.length_xorFrom
    (whole mask bs : Bytes) :
  (xorFrom whole mask bs).length = bs.length
  := by
  fun_induction xorFrom whole mask bs <;> simp_all

theorem Scramble.length_masked
    (password seed : Bytes) :
  (masked password seed).length = password.length + 1
  := by
  rw [masked, Bytes.xorCyclic, Bytes.length_xorFrom, List.length_append, List.length_singleton]

/-- A ciphertext is longer than its message, by the padding. -/
theorem PublicKey.length_lt_of_encrypt?
    {key : PublicKey} {seed message packet : Bytes} (h : key.encrypt? seed message = some packet) :
  message.length < packet.length
  := by
  rw [encrypt?, Option.map_eq_some_iff] at h
  obtain ⟨padded, hpadded, rfl⟩ := h
  rw [Oaep.pad?] at hpadded
  split at hpadded
  next => cases hpadded
  next hfits =>
    rw [Bytes.length_ofNatBE]
    omega

theorem Utf8.encode_ne_nil
    {s : String} (h : s ≠ "") :
  encode s ≠ []
  := by
  intro hnil
  apply h
  rw [← decode_encode s, hnil]
  rfl

/-! ### Plugins that hide the password -/

namespace Session

/-- The packet is not the password as it is, unless it is a digest that happens to be the same. -/
def Hides (s : Session) (packet : Bytes) : Prop :=
  packet ≠ s.cleartext ∨ packet = Scramble.sha1 s.secret s.seed ∨
    packet = Scramble.sha256 s.secret s.seed

variable {s : Session}

theorem length_cleartext
    (s : Session) :
  s.cleartext.length = s.secret.length + 1
  := by
  rw [cleartext, Layout.nulTerminated, List.length_append, List.length_singleton]

theorem hides_of_length_ne
    {packet : Bytes} (h : packet.length ≠ s.secret.length + 1) :
  s.Hides packet
  := by
  left
  rintro rfl
  apply h s.length_cleartext

theorem sendsOnly_sendEncrypted
    (s : Session) (key : PublicKey) :
  (s.sendEncrypted key).SendsOnly s.Hides
  := by
  rw [sendEncrypted]
  split
  next packet hpacket =>
    have longer := PublicKey.length_lt_of_encrypt? hpacket
    rw [Scramble.length_masked] at longer
    exact Exchange.sendsOnly_single (hides_of_length_ne (by omega))
  next => trivial

theorem hides_singleton
    (hpassword : s.password ≠ "") (b : UInt8) :
  s.Hides [b]
  := by
  apply hides_of_length_ne
  have some := List.length_pos_of_ne_nil (Utf8.encode_ne_nil hpassword)
  rw [List.length_singleton, secret]
  omega

theorem sendsOnly_sendPassword
    (hsecure : s.isSecure = false) (hpassword : s.password ≠ "") (key : Option PublicKey)
    (request : UInt8) :
  (s.sendPassword key request).SendsOnly s.Hides
  := by
  unfold sendPassword
  rw [if_neg (by simp [hsecure])]
  cases key with
  | some key => apply sendsOnly_sendEncrypted
  | none =>
    dsimp only
    split
    · refine ⟨hides_singleton hpassword request, fun reply => ?_⟩
      dsimp only
      split
      · apply sendsOnly_sendEncrypted
      · trivial
    · trivial

end Session

theorem Plugin.sendsOnly_afterScramble
    {s : Session} (hsecure : s.isSecure = false) (hpassword : s.password ≠ "")
    (key : Option PublicKey) (reply : Bytes) :
  (afterScramble s key reply).SendsOnly s.Hides
  := by
  rw [afterScramble]
  split
  · trivial
  split
  · intro _
    trivial
  split
  · apply Session.sendsOnly_sendPassword hsecure hpassword
  · trivial

/-- The plugins that need no leave, but for the dialogue, hide a password. -/
theorem Plugin.sendsOnly_start
    {p : Plugin} {s : Session} {x : Exchange} (hp : p ∈ builtIn) (hactive : p.isActiveByDefault)
    (hname : p.name ≠ "dialog") (hsecure : s.isSecure = false) (hpassword : s.password ≠ "")
    (hx : p.start s = .ok x) :
  x.SendsOnly s.Hides
  := by
  rcases start_eq_ok hp hx with
    ⟨-, rfl⟩ | ⟨rfl, -⟩ | ⟨-, key, -, rfl⟩ | ⟨-, key, -, rfl⟩ | ⟨rfl, -⟩
  · exact Exchange.sendsOnly_single (.inr (.inl rfl))
  · cases hactive
  · exact ⟨.inr (.inr rfl), sendsOnly_afterScramble hsecure hpassword key⟩
  · split
    · exact Exchange.sendsOnly_single (Session.hides_singleton hpassword 0)
    · apply Session.sendsOnly_sendPassword hsecure hpassword
  · contradiction

/-- The password as it is, as a packet. -/
def Connection.cleartext (c : Connection) : Bytes :=
  Layout.nulTerminated (Utf8.encode c.secret)

/-- A round without the dialogue hides a password from those who read along. -/
theorem Round.IsOf.hides
    {r : Registry} {c : Connection} {w : Surroundings} {a : Round}
    (hr : ∀ p ∈ r, p ∈ Plugin.builtIn) (hallowed : c.allowedPlugins = none)
    (hsecret : c.secret ≠ "") (h : a.IsOf r c w false) (hname : a.request.plugin ≠ "dialog")
    (hsent : .sent c.cleartext ∈ a.operations) :
  c.cleartext = Scramble.sha1 (Utf8.encode c.secret) a.request.seed ∨
    c.cleartext = Scramble.sha256 (Utf8.encode c.secret) a.request.seed
  := by
  obtain ⟨p, hmem, hplugin, hpermits, x, hstart, hcourse⟩ :=
    h.isPermitted (List.ne_nil_of_mem hsent)
  rw [Connection.Permits, hallowed] at hpermits
  rw [← hplugin] at hname
  have hides := Plugin.sendsOnly_start (hr p hmem) hpermits hname rfl hsecret hstart
  rcases hcourse.of_sendsOnly hides _ hsent with hother | hscramble
  · exact absurd rfl hother
  · apply hscramble

namespace Registry

/-- On a link that others can read along, and without a list of allowed plugins, a password is sent
as it is in rounds of the dialogue only, unless it happens to be the scramble that is sent. -/
theorem negotiate_guarded
    {r : Registry} {c : Connection} (hr : ∀ p ∈ r, p ∈ Plugin.builtIn)
    (hallowed : c.allowedPlugins = none) (hsecret : c.secret ≠ "") (w : Surroundings)
    (plugin : String) (seed : Bytes) (incoming : List Bytes) :
  let start := Script.ofIncoming incoming false
  let result := r.negotiate c w .script plugin seed start
  let first : AuthSwitch := ⟨if plugin.isEmpty then defaultPlugin else plugin, seed⟩
  ∃ rounds : List Round,
    r.Run c w false 0 first rounds result.1 ∧
    start.After (rounds.flatMap Round.operations) result.2 ∧
    ∀ a ∈ rounds, .sent c.cleartext ∈ a.operations →
      a.request.plugin = "dialog" ∨
        c.cleartext = Scramble.sha1 (Utf8.encode c.secret) a.request.seed ∨
        c.cleartext = Scramble.sha256 (Utf8.encode c.secret) a.request.seed
  := by
  intro start result first
  obtain ⟨rounds, hrun, hafter⟩ := rounds_run hr c w 0 first (s := start) (Nat.lt_succ_self _)
  refine ⟨rounds, hrun, hafter, fun a ha hsent => ?_⟩
  by_cases hname : a.request.plugin = "dialog"
  · left
    apply hname
  · right
    apply (hrun.isOf a ha).hides hr hallowed hsecret hname hsent

/-- The dialogue is named by the server, and answers with the password. -/
theorem negotiate_guarded_dialog :
  let r : Registry := Plugin.builtIn
  let c : Connection := (default : Connection).withCredentials "app" "secret"
  let w : Surroundings := ⟨fun _ => .error "", fun _ => []⟩
  ((∀ p ∈ r, p ∈ Plugin.builtIn) ∧ c.allowedPlugins = none ∧ c.secret ≠ "") ∧
    ∃ rounds, r.Run c w false 0 ⟨"dialog", []⟩ rounds (.ok ⟨0, 0, 2, 0⟩) ∧
      (rounds.flatMap Round.operations).filterMap Operation.sent? = [c.cleartext]
  := by
  intro r c w
  have hr : ∀ p ∈ r, p ∈ Plugin.builtIn := fun _ h => h
  have hsecret : c.secret ≠ "" := by decide
  have result : r.negotiate c w .script "dialog" []
      (.ofIncoming [[0x00, 0x00, 0x00, 0x02, 0x00, 0x00, 0x00]] false) =
        (.ok ⟨0, 0, 2, 0⟩, ⟨[], [c.cleartext], false⟩) := by
    rfl
  obtain ⟨rounds, hrun, hafter, -⟩ := negotiate_guarded hr rfl hsecret w "dialog" []
    [[0x00, 0x00, 0x00, 0x02, 0x00, 0x00, 0x00]]
  rw [result] at hrun hafter
  exact ⟨⟨hr, rfl, hsecret⟩, rounds, hrun, hafter.outgoing.symm⟩

/-- The dialogue needs no leave and no privacy. -/
theorem negotiate_dialog_cleartext :
  ¬ ∀ (c : Connection) (w : Surroundings) (plugin : String) (seed : Bytes) (incoming : List Bytes),
    c.allowedPlugins = none → c.secret ≠ "" →
      c.cleartext ∉ (Registry.negotiate Plugin.builtIn c w .script plugin seed
        (.ofIncoming incoming false)).2.outgoing
  := by
  intro h
  apply h ((default : Connection).withCredentials "app" "secret")
    ⟨fun _ => .error "", fun _ => []⟩ "dialog" [] [[0x00, 0x00, 0x00, 0x02, 0x00, 0x00, 0x00]]
    rfl (by decide)
  exact List.mem_singleton.mpr rfl

end Registry

end SqlWire
