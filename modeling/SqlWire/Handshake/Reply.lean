import SqlWire.Cursor
import SqlWire.Layout

/-!
# Replies

The packets with which a server ends a step of the handshake, told apart by their first byte: `Ok`,
which accepts the client; the packet of an error, read by `ServerError.ofPayload`; and `AuthSwitch`,
which asks for another plugin.  Each comes with the payload of given parts.
-/

namespace SqlWire

/-- The first byte of a packet that accepts. -/
def okMarker : UInt8 := 0x00

/-- The first byte of a packet with more data for the plugin at work. -/
def moreDataMarker : UInt8 := 0x01

/-- The first byte of a request for another plugin. -/
def authSwitchMarker : UInt8 := 0xFE

/-- The first byte of an error's packet. -/
def errMarker : UInt8 := 0xFF

/-- The bytes without the NUL at their end, if there is one. -/
def withoutFinalNul (bs : Bytes) : Bytes :=
  if bs.getLast? = some 0 then bs.dropLast else bs

/-- Only the NUL behind the bytes is left out, whichever they are. -/
theorem withoutFinalNul_nulTerminated
    (bs : Bytes) :
  withoutFinalNul (Layout.nulTerminated bs) = bs
  := by
  rw [withoutFinalNul, Layout.nulTerminated, if_pos List.getLast?_concat, List.dropLast_concat]

/-! ### Acceptance -/

/-- What a server says when it accepts. -/
structure Ok where
  affectedRows : UInt64
  lastInsertId : UInt64
  status : UInt16
  warnings : UInt16
  deriving DecidableEq, Repr

namespace Ok

/-- The parts of a packet that accepts; a number marked NULL is zero. -/
def reader : Reader Ok := do
  let marker ← Reader.byte
  if marker ≠ okMarker then Reader.fail (.protocol (.notOk marker))
  let rows ← Reader.lengthEncoded
  let id ← Reader.lengthEncoded
  let status ← Reader.uint 2
  let warnings ← Reader.uint 2
  return ⟨UInt64.ofNat (rows.getD 0), UInt64.ofNat (id.getD 0), UInt16.ofNat status,
    UInt16.ofNat warnings⟩

/-- The acceptance that a payload is. -/
def ofPayload (payload : Bytes) : Except Error Ok :=
  reader.run payload

/-- The payload of an acceptance. -/
def payload (r : Ok) : Bytes :=
  okMarker :: Layout.lengthEncoded r.affectedRows.toNat
    ++ Layout.lengthEncoded r.lastInsertId.toNat
    ++ Bytes.ofNatLE 2 r.status.toNat ++ Bytes.ofNatLE 2 r.warnings.toNat

end Ok

/-! ### Errors -/

namespace ServerError

/-- The byte in front of the state of an error. -/
def stateMark : UInt8 := 0x23

/-- The state of an error, if its mark and five bytes at least are there. -/
def state? : Reader (Option String) := fun c =>
  if c.rest.head? = some stateMark && c.has 6 then
    (do Reader.skip 1; return some (← Reader.text 5) : Reader (Option String)) c
  else (.ok none, c)

/-- The error behind the first byte of its packet. -/
def body : Reader Error := do
  let code ← Reader.uint 2
  let state ← state?
  let text ← Reader.allBytes
  return .server (UInt16.ofNat code) state (Utf8.decode text)

/-- The error of a packet. -/
def reader : Reader Error := do
  let marker ← Reader.byte
  if marker = errMarker then body else Reader.fail (.protocol (.notErr marker))

/-- The error of a payload; one that is no error's packet is an error itself. -/
def ofPayload (payload : Bytes) : Error :=
  match reader.run payload with
  | .ok e => e
  | .error e => e

/-- The payload of an error. -/
def payload (code : UInt16) (state : Option String) (text : String) : Bytes :=
  errMarker :: Bytes.ofNatLE 2 code.toNat
    ++ (match state with
      | none => []
      | some s => stateMark :: Utf8.encode s)
    ++ Utf8.encode text

end ServerError

/-! ### Requests for another plugin -/

/-- A server's request to go on with a plugin and a seed. -/
structure AuthSwitch where
  plugin : String
  seed : Bytes
  deriving DecidableEq, Repr

namespace AuthSwitch

/-- The parts of a request for another plugin. -/
def reader : Reader AuthSwitch := do
  let marker ← Reader.byte
  if marker ≠ authSwitchMarker then Reader.fail (.protocol (.notAuthSwitch marker))
  let plugin ← Reader.untilNul
  let seed ← Reader.allBytes
  return ⟨Utf8.decode plugin, withoutFinalNul seed⟩

/-- The request that a payload is. -/
def ofPayload (payload : Bytes) : Except Error AuthSwitch :=
  reader.run payload

/-- The payload of a request. -/
def payload (r : AuthSwitch) : Bytes :=
  authSwitchMarker :: Layout.nulTerminated (Utf8.encode r.plugin) ++ Layout.nulTerminated r.seed

end AuthSwitch

end SqlWire
