import SqlWire.Auth.Registry

/-!
# Negotiation

The authentication `Registry.negotiate` of a client: it starts with the plugin and the seed of the
server's greeting, and goes on with those of each request for another plugin, until the server
accepts or something fails.
-/

namespace SqlWire

/-- What a reply that ends a plugin's exchange means. -/
inductive Verdict where
  | accepted (answer : Ok)
  | switch (request : AuthSwitch)
  deriving DecidableEq, Repr

/-- The meaning of the reply that ends the exchange of the plugin of a name. -/
def Verdict.ofReply (plugin : String) (reply : Bytes) : Except Error Verdict :=
  match reply with
  | [] => .error (.protocol .emptyAuthResponse)
  | marker :: _ =>
    if marker = okMarker then (Ok.ofPayload reply).map accepted
    else if marker = errMarker then .error (ServerError.ofPayload reply)
    else if marker = authSwitchMarker then (AuthSwitch.ofPayload reply).map switch
    else if marker = moreDataMarker then .error (.protocol (.moreDataAfter plugin))
    else .error (.protocol (.authResponse marker))

/-- What a client takes from its surroundings: the texts of files that hold keys, and the random
bytes of the encryption in each round. -/
structure Surroundings where
  keyFile : String → Except String String
  padding : Nat → Bytes

namespace Registry

variable {σ : Type}

/-- The plugin that is used when a server names none. -/
def defaultPlugin : String := "mysql_native_password"

/-- The exchange of a round with the plugin and the seed that a server asks for. -/
def begin (r : Registry) (c : Connection) (w : Surroundings) (isSecure : Bool) (round : Nat)
    (request : AuthSwitch) : Except Error Exchange := do
  let plugin ← r.select request.plugin c
  plugin.start ⟨c.secret, request.seed, c, isSecure, w.keyFile, w.padding round⟩

/-- The outcome of the rounds from the given one on.  Every round but the last receives a packet, so
that fuel above the number of packets to be received is never used up. -/
def rounds (r : Registry) (c : Connection) (w : Surroundings) (link : Link σ) :
    Nat → Nat → AuthSwitch → σ → Except Error Ok × σ
  | 0, _, _, s => (.error .connectionClosed, s)
  | fuel + 1, round, request, s =>
    match r.begin c w (link.isSecure s) round request with
    | .error e => (.error e, s)
    | .ok exchange =>
      match exchange.run link s with
      | (.error e, s) => (.error e, s)
      | (.ok reply, s) =>
        match Verdict.ofReply request.plugin reply with
        | .error e => (.error e, s)
        | .ok (.accepted answer) => (.ok answer, s)
        | .ok (.switch request) => rounds r c w link fuel (round + 1) request s

/-- The outcome of authenticating over a link, from the plugin and the seed of a greeting on. -/
def negotiate (r : Registry) (c : Connection) (w : Surroundings) (link : Link σ)
    (plugin : String) (seed : Bytes) (s : σ) : Except Error Ok × σ :=
  let first := if plugin.isEmpty then defaultPlugin else plugin
  r.rounds c w link (link.pending s + 1) 0 ⟨first, seed⟩ s

end Registry

end SqlWire
