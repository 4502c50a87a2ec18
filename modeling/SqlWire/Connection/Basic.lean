import SqlWire.Calendar.DateTimeField
import SqlWire.Text.Ascii
import SqlWire.Text.Digits

/-!
# Connections

The type `Connection` of the parameters of a connection; the two kinds of text that they are read
from, the address `host:tcpPort/database` of `Connection.ofAddress`, and the mode of encryption of
`SslMode.ofText`; and the address `Connection.address` of given parameters.
-/

namespace SqlWire

/-- The encryption that a connection asks for: none, without a look at the server's certificate,
with a certificate of a known authority, or with one that names the host as well. -/
inductive SslMode where
  | disable
  | trust
  | verifyAuthority
  | verifyFull
  deriving DecidableEq, Repr, Inhabited

/-- The mode of a text, without regard to the case of ASCII letters. -/
def SslMode.ofText (s : String) : Except Error SslMode :=
  let word := Ascii.lowerText s
  if word ∈ ["disable", "false", "0"] then .ok .disable
  else if word = "trust" then .ok .trust
  else if word ∈ ["verify-ca", "verify_ca"] then .ok .verifyAuthority
  else if word ∈ ["verify-full", "verify_full", "true", "1", ""] then .ok .verifyFull
  else .error (.connectString (.sslMode word))

/-- The parameters of a connection.  Without a list of allowed plugins the ones that need no leave
are allowed. -/
structure Connection where
  host : String
  tcpPort : UInt16
  database : String
  user : String
  password : Option String
  allowedPlugins : Option (List String)
  serverKey : Option String
  allowsKeyRetrieval : Bool
  extraPasswords : List String
  sslMode : SslMode
  cipherSuites : Option String
  zeroDates : ZeroDatePolicy
  deriving DecidableEq, Repr

namespace Connection

/-- The `tcpPort` of a server when no other is given. -/
def defaultTcpPort : UInt16 := 3306

/-- The parameters with the given address, and nothing else known. -/
def ofHost (host : String) (tcpPort : UInt16) (database : String) : Connection :=
  { host, tcpPort, database, user := "", password := none, allowedPlugins := none,
    serverKey := none, allowsKeyRetrieval := false, extraPasswords := [], sslMode := .disable,
    cipherSuites := none, zeroDates := .literal }

instance : Inhabited Connection where
  default := ofHost "localhost" defaultTcpPort ""

/-- The password, which is empty if there is none. -/
def secret (c : Connection) : String :=
  c.password.getD ""

/-- The parameters with a user and a password. -/
def withCredentials (user password : String) (c : Connection) : Connection :=
  { c with user, password := some password }

/-! ### Addresses -/

/-- The parts before and behind the first occurrence of a character. -/
def splitFirst? (c : Char) (cs : List Char) : Option (List Char × List Char) :=
  match cs.dropWhile (· != c) with
  | [] => none
  | _ :: after => some (cs.takeWhile (· != c), after)

/-- The parts before and behind the last occurrence of a character. -/
def splitLast? (c : Char) (cs : List Char) : Option (List Char × List Char) :=
  (splitFirst? c cs.reverse).map fun (after, before) => (before.reverse, after.reverse)

/-- The `tcpPort` of a text: digits, perhaps behind a plus sign, of a number below `2 ^ 16`. -/
def tcpPort? (cs : List Char) : Option UInt16 :=
  let ds := match cs with
    | '+' :: ds => ds
    | ds => ds
  if Digits.isNumber ds then (Digits.below? (2 ^ 16) ds).map UInt16.ofNat else none

/-- The parameters of an address: a host, perhaps a `tcpPort` behind the last colon, and perhaps a
database behind the first slash. -/
def ofAddress (s : String) : Except Error Connection := do
  let (server, database) := (splitFirst? '/' s.toList).getD (s.toList, [])
  if server.isEmpty then throw (.connectString .format)
  let database := String.ofList database
  match splitLast? ':' server with
  | none => return ofHost (String.ofList server) defaultTcpPort database
  | some (host, digits) =>
    match tcpPort? digits with
    | none => throw (.connectString (.tcpPort (String.ofList digits)))
    | some tcpPort => return ofHost (String.ofList host) tcpPort database

/-- The address with a host, a `tcpPort` and a database. -/
def address (host : String) (tcpPort : UInt16) (database : String) : String :=
  host ++ ":" ++ toString tcpPort.toNat ++ "/" ++ database

end Connection

end SqlWire
