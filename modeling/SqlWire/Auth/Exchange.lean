import SqlWire.Packet.Link

/-!
# Exchanges

The type `Exchange` of what a plugin does to authenticate: a finite tree of packets sent and replies
awaited, on which what follows depends.  `Exchange.run` carries one out over a link.
-/

namespace SqlWire

/-- The course of an authentication: it ends with the reply that ends it or with a failure, or a
packet is sent, or a reply is awaited. -/
inductive Exchange where
  | done (reply : Bytes)
  | fail (e : Error)
  | send (packet : Bytes) (next : Exchange)
  | receive (next : Bytes → Exchange)

namespace Exchange

variable {σ : Type}

/-- The outcome of an exchange over a link, and the state that it leaves. -/
def run (link : Link σ) : Exchange → σ → Except Error Bytes × σ
  | done reply, s => (.ok reply, s)
  | fail e, s => (.error e, s)
  | send packet next, s =>
    match link.send packet s with
    | (.error e, s) => (.error e, s)
    | (.ok (), s) => next.run link s
  | receive next, s =>
    match link.receive s with
    | (.error e, s) => (.error e, s)
    | (.ok reply, s) => (next reply).run link s

/-- The outcomes of carrying out an exchange several times, one after the other. -/
def runTimes (link : Link σ) (exchange : Exchange) : Nat → σ → List (Except Error Bytes) × σ
  | 0, s => ([], s)
  | n + 1, s =>
    let (outcome, s) := exchange.run link s
    let (outcomes, s) := runTimes link exchange n s
    (outcome :: outcomes, s)

/-- One packet, and the reply to it. -/
def single (packet : Bytes) : Exchange :=
  send packet (receive done)

end Exchange

end SqlWire
