import SqlWire.Bytes
import SqlWire.Geometry.Shape
import SqlWire.WireType

/-!
# Failures

The causes `Error` for which reading, writing, or an exchange with the server fails, grouped by
where they arise, the wording `Error.message` of each and its coarse class `Error.kind`.
-/

namespace SqlWire

/-- A packet or field that breaks the protocol. -/
inductive ProtocolFault where
  | rowHeader (found : UInt8)
  | nullLength
  | noColumn (name : String)
  | columnOutOfRange (index count : Nat)
  | greetingVersion (found : UInt8)
  | notAuthSwitch (found : UInt8)
  | notOk (found : UInt8)
  | notErr (found : UInt8)
  | sequenceMismatch (expected found : UInt8)
  | moreDataAfter (plugin : String)
  | authResponse (found : UInt8)
  | emptyAuthResponse
  | cachingSha2Response (start : Bytes)
  | geometryTooDeep (limit : Nat)
  | byteOrder (found : UInt8)
  | shapeCode (found : Nat)
  | memberShape (outer member : Shape)
  | geometryOverrun (excess length : Nat)
  deriving DecidableEq, Repr

/-- A failure of the client's side of authentication. -/
inductive AuthFault where
  | keyUnavailable
  | keyUnreadable (path reason : String)
  | keyMalformed
  | passwordTooLong
  | noAnswer (prompt : Nat)
  deriving DecidableEq, Repr

/-- A connection string or option that is not understood. -/
inductive ConnectFault where
  | format
  | tcpPort (text : String)
  | sslMode (text : String)
  | boolean (option text : String)
  | zeroDatePolicy (text : String)
  deriving DecidableEq, Repr

/-- The cause of a failure. -/
inductive Error where
  | transport (reason : String)
  | connectionClosed
  | protocol (fault : ProtocolFault)
  | shortBuffer (needed available : Nat)
  | typeMismatch (type : WireType) (target : String)
  | overflow (value target : String)
  | malformed (value target : String)
  | unsupportedValue (typeName : String)
  | unsupportedType (code : UInt8)
  | authentication (fault : AuthFault)
  | unsupportedPlugin (plugin : String)
  | restrictedPlugin (plugin : String) (allowed : List String)
  | server (code : UInt16) (state : Option String) (text : String)
  | connectString (fault : ConnectFault)
  deriving DecidableEq, Repr

/-- The coarse class of a failure. -/
inductive ErrorKind where
  | typeMismatch | overflow | malformedLiteral | unsupportedEncodeType | authenticationFailure
  | transport | protocol
  deriving DecidableEq, Repr

/-- The wording of a protocol fault. -/
def ProtocolFault.message : ProtocolFault → String
  | rowHeader b => "Unexpected binary row header 0x" ++ Bytes.hexByte b
  | nullLength => "NULL length inside a binary row"
  | noColumn name => "No column named '" ++ name ++ "'"
  | columnOutOfRange i n =>
    "Column index " ++ toString i ++ " out of range (" ++ toString n ++ " columns)"
  | greetingVersion b => "Unexpected handshake protocol version " ++ toString b.toNat
  | notAuthSwitch b => "Expected auth switch request, got 0x" ++ Bytes.hexByte b
  | notOk b => "Expected OK packet, got 0x" ++ Bytes.hexByte b
  | notErr b => "Expected ERR packet, got 0x" ++ Bytes.hexByte b
  | sequenceMismatch e g =>
    "Packet sequence mismatch: expected " ++ toString e.toNat ++ ", got " ++ toString g.toNat
  | moreDataAfter plugin => "Unexpected auth more-data packet after plugin " ++ plugin
  | authResponse b => "Unexpected authentication response 0x" ++ Bytes.hexByte b
  | emptyAuthResponse => "Empty authentication response"
  | cachingSha2Response bs => "Unexpected caching_sha2_password response " ++ Bytes.hexList bs
  | geometryTooDeep n => "Geometry nests deeper than " ++ toString n ++ " levels"
  | byteOrder b => "Invalid WKB byte order 0x" ++ Bytes.hexByte b
  | shapeCode n => "Unknown WKB geometry type " ++ toString n
  | memberShape c m => c.name ++ " cannot contain a " ++ m.name
  | geometryOverrun n l =>
    "Geometry body ran " ++ toString n ++ " bytes past its field length " ++ toString l

/-- The wording of an authentication fault. -/
def AuthFault.message : AuthFault → String
  | keyUnavailable =>
    "RSA public key is not available client side (option serverRsaPublicKeyFile not set)"
  | keyUnreadable path reason =>
    "Could not read server RSA public key from " ++ path ++ ": " ++ reason
  | keyMalformed => "Could not parse RSA public key"
  | passwordTooLong => "Could not encrypt password: message too long"
  | noAnswer n => "No password available for PAM prompt " ++ toString n

/-- The wording of a connection fault. -/
def ConnectFault.message : ConnectFault → String
  | format => "Expected format: host[:port]/database"
  | tcpPort text => "Invalid port: " ++ text
  | sslMode text => "Invalid sslMode: " ++ text
  | boolean option text => "Invalid boolean for " ++ option ++ ": " ++ text
  | zeroDatePolicy text => "Invalid zeroDatePolicy: " ++ text

namespace Error

/-- The wording of a failure. -/
def message : Error → String
  | transport reason => "I/O error: " ++ reason
  | connectionClosed => "Connection closed"
  | protocol fault => "Protocol error: " ++ fault.message
  | shortBuffer needed available =>
    "Buffer too small: need " ++ toString needed ++ " bytes, have " ++ toString available
  | typeMismatch type target => "Data type " ++ type.name ++ " cannot be decoded as " ++ target
  | overflow value target => "value '" ++ value ++ "' overflows " ++ target
  | malformed value target => "value '" ++ value ++ "' cannot be decoded as " ++ target
  | unsupportedValue typeName => "Type " ++ typeName ++ " is not supported as a parameter"
  | unsupportedType code => "Unsupported MariaDB data type: " ++ toString code.toNat
  | authentication fault => "Authentication failed: " ++ fault.message
  | unsupportedPlugin plugin =>
    "Client does not support authentication protocol requested by server. plugin type was = '"
      ++ plugin ++ "'"
  | restrictedPlugin plugin allowed =>
    "Client restricts authentication plugins and doesn't permit requested plugin ('" ++ plugin
      ++ "'). Current list is `restrictedAuth=" ++ ",".intercalate allowed ++ "`"
  | server code _ text => "(" ++ toString code.toNat ++ ") " ++ text
  | connectString fault => "Invalid connect string: " ++ fault.message

/-- The class of a failure: what the server or its plugins refuse is an authentication failure, and
every breach of a format is a protocol failure. -/
def kind : Error → ErrorKind
  | typeMismatch .. => .typeMismatch
  | overflow .. => .overflow
  | malformed .. => .malformedLiteral
  | unsupportedValue .. => .unsupportedEncodeType
  | authentication .. | unsupportedPlugin .. | restrictedPlugin .. | server .. =>
    .authenticationFailure
  | transport .. | connectionClosed => .transport
  | protocol .. | shortBuffer .. | unsupportedType .. | connectString .. => .protocol

end Error

/-- The name of a class of failures. -/
def ErrorKind.name : ErrorKind → String
  | typeMismatch => "TypeMismatch"
  | overflow => "Overflow"
  | malformedLiteral => "MalformedLiteral"
  | unsupportedEncodeType => "UnsupportedEncodeType"
  | authenticationFailure => "AuthenticationFailure"
  | transport => "Transport"
  | protocol => "Protocol"

end SqlWire
