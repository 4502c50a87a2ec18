import SqlWire.Handshake.Reply
import SqlWire.Text.Quoted

/-!
# Greetings

The type `Greeting` of what a server says when a connection opens, its reading `Greeting.ofPayload`,
and the payload `Greeting.Parts.payload` of given parts.  What a server can do is a word of 64 bits;
its upper half is there only when the lowest bit is not set.
-/

namespace SqlWire

/-! ### Capabilities -/

/-- What a server can do, a bit for each ability. -/
abbrev Capabilities := UInt64

namespace Capabilities

/-- The bit that is not set when the upper half is there. -/
def longPassword : Capabilities := 0x1

/-- The bit of a second part of the seed. -/
def secureConnection : Capabilities := 0x8000

/-- The bit of the name of a plugin. -/
def pluginAuth : Capabilities := 0x80000

/-- The ability of the given bit is there. -/
def includes (c bit : Capabilities) : Bool :=
  c &&& bit != 0

/-- The word of the two quarters of the lower half, and of the upper half. -/
def ofParts (low high extended : Nat) : Capabilities :=
  let standard : Capabilities := UInt64.ofNat (low + 0x10000 * high)
  if standard.includes longPassword then standard
  else UInt64.ofNat (low + 0x10000 * high + 0x100000000 * extended)

/-- The places of the bits that are set. -/
def places (c : Capabilities) : List Nat :=
  (List.range 64).filter c.toNat.testBit

end Capabilities

/-! ### Greetings -/

/-- What a server says when a connection opens. -/
structure Greeting where
  version : String
  connection : UInt32
  seed : Bytes
  capabilities : Capabilities
  collation : UInt8
  status : UInt16
  plugin : String
  deriving DecidableEq, Repr

namespace Greeting

/-- The version of the protocol. -/
def protocolVersion : UInt8 := 10

/-- The number of bytes of the first part of the seed. -/
def seedStartLength : Nat := 8

/-- The number of bytes of the second part of a seed of the announced length, with the NUL behind
it. -/
def seedRestLength (announced : Nat) : Nat :=
  max (announced - seedStartLength) 13

/-- The second part of the seed, of which what is missing at the end of the packet is left out. -/
def seedRest (announced : Nat) : Reader Bytes := do
  let left ← Reader.remaining
  return withoutFinalNul (← Reader.bytes (min (seedRestLength announced) left))

/-- The greeting behind the version of the protocol. -/
def body : Reader Greeting := do
  let version ← Reader.untilNul
  let connection ← Reader.uint 4
  let seedStart ← Reader.bytes seedStartLength
  Reader.skip 1
  let low ← Reader.uint 2
  let collation ← Reader.byte
  let status ← Reader.uint 2
  let high ← Reader.uint 2
  let seedLength ← Reader.byte
  Reader.skip 6
  let extended ← Reader.uint 4
  let capabilities := Capabilities.ofParts low high extended
  let seedRest ←
    if capabilities.includes Capabilities.secureConnection then seedRest seedLength.toNat
    else pure []
  let plugin ←
    if capabilities.includes Capabilities.pluginAuth then Reader.untilNul else pure []
  return ⟨Utf8.decode version, UInt32.ofNat connection, seedStart ++ seedRest, capabilities,
    collation, UInt16.ofNat status, Utf8.decode plugin⟩

/-- The greeting of a packet, in the place of which a server may send an error. -/
def reader : Reader Greeting := do
  let version ← Reader.byte
  if version = errMarker then Reader.fail (← ServerError.body)
  else if version ≠ protocolVersion then Reader.fail (.protocol (.greetingVersion version))
  else body

/-- The greeting that a payload is. -/
def ofPayload (payload : Bytes) : Except Error Greeting :=
  reader.run payload

/-- The name of the kind of server that its version may hold. -/
def mariaDb : List Char := "MariaDB".toList

/-- The part occurs in the text. -/
def occurs (part : List Char) : List Char → Bool
  | [] => part.isEmpty
  | c :: cs => part.isPrefixOf (c :: cs) || occurs part cs

/-- The server's version says that it is MariaDB. -/
def isMariaDb (g : Greeting) : Bool :=
  occurs mariaDb g.version.toList

/-! ### Payloads -/

/-- The parts of a greeting's payload, in order.  The second part of the seed is there if the
capabilities have it, and so is the plugin. -/
structure Parts where
  version : String
  connection : UInt32
  seedStart : Bytes
  filler : UInt8
  low : UInt16
  collation : UInt8
  status : UInt16
  high : UInt16
  seedLength : UInt8
  reserved : Bytes
  extended : UInt32
  seedRest : Bytes
  plugin : String
  deriving DecidableEq, Repr

namespace Parts

/-- The capabilities that the parts announce. -/
def capabilities (p : Parts) : Capabilities :=
  .ofParts p.low.toNat p.high.toNat p.extended.toNat

/-- The payload with the given parts. -/
def payload (p : Parts) : Bytes :=
  protocolVersion :: Layout.nulTerminated (Utf8.encode p.version)
    ++ Bytes.ofNatLE 4 p.connection.toNat ++ p.seedStart ++ p.filler
      :: Bytes.ofNatLE 2 p.low.toNat ++ p.collation
      :: Bytes.ofNatLE 2 p.status.toNat ++ Bytes.ofNatLE 2 p.high.toNat ++ p.seedLength
      :: p.reserved ++ Bytes.ofNatLE 4 p.extended.toNat
    ++ (if p.capabilities.includes Capabilities.secureConnection then
        Layout.nulTerminated p.seedRest else [])
    ++ (if p.capabilities.includes Capabilities.pluginAuth then
        Layout.nulTerminated (Utf8.encode p.plugin) else [])

/-- The greeting with the given parts. -/
def greeting (p : Parts) : Greeting where
  version := p.version
  connection := p.connection
  seed := p.seedStart
    ++ (if p.capabilities.includes Capabilities.secureConnection then p.seedRest else [])
  capabilities := p.capabilities
  collation := p.collation
  status := p.status
  plugin := if p.capabilities.includes Capabilities.pluginAuth then p.plugin else ""

end Parts

end Greeting

end SqlWire
