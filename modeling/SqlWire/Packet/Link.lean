import SqlWire.Packet.Stream

/-!
# Links

The type `Link` of what two parties exchange payloads over, and its two kinds: `Link.script`, on
which the payloads to be received are laid down and those sent are kept, and `Link.stream`, on which
they travel in frames.
-/

namespace SqlWire

/-- A way to exchange payloads over states of a type: the next payload received, the sending of one,
whether no one else can read along, and a number that every payload received makes smaller. -/
structure Link (σ : Type) where
  receive : σ → Except Error Bytes × σ
  send : Bytes → σ → Except Error Unit × σ
  isSecure : σ → Bool
  pending : σ → Nat

/-- Payloads that will be received, and those that have been sent. -/
structure Script where
  incoming : List Bytes
  outgoing : List Bytes
  isSecure : Bool
  deriving DecidableEq, Repr

namespace Script

/-- The script on which nothing has been sent. -/
def ofIncoming (incoming : List Bytes) (isSecure : Bool) : Script :=
  ⟨incoming, [], isSecure⟩

/-- The next payload; behind the last one the connection is closed. -/
def receive (s : Script) : Except Error Bytes × Script :=
  match s.incoming with
  | [] => (.error .connectionClosed, s)
  | payload :: incoming => (.ok payload, { s with incoming })

/-- The sending of a payload, which always succeeds. -/
def send (payload : Bytes) (s : Script) : Except Error Unit × Script :=
  (.ok (), { s with outgoing := s.outgoing ++ [payload] })

end Script

namespace Link

/-- The link on which payloads are laid down. -/
def script : Link Script where
  receive := Script.receive
  send := Script.send
  isSecure := Script.isSecure
  pending s := s.incoming.length

/-- The link on which payloads travel in frames. -/
def stream : Link Stream where
  receive := Stream.read
  send := Stream.write
  isSecure := Stream.isSecure
  pending s := s.ahead.length

end Link

end SqlWire
