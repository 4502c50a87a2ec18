import SqlWire.Auth.Exchange
import SqlWire.Auth.Scramble
import SqlWire.Connection.Basic
import SqlWire.Handshake.Reply
import SqlWire.Key.Rsa

/-!
# Plugins

The type `Plugin` of ways to authenticate, and the five that are built in, `Plugin.builtIn`: a
scramble by SHA-1, the password itself, a scramble by SHA-256 that falls back to the password, the
password alone with its means of protection, and a dialogue of several passwords.  A plugin turns a
`Session` into an `Exchange`, or fails before anything is sent.
-/

namespace SqlWire

/-- What a plugin works with: the password and the seed, the connection's parameters, whether no one
else can read along, the texts of files that hold keys, and the random bytes of an encryption. -/
structure Session where
  password : String
  seed : Bytes
  connection : Connection
  isSecure : Bool
  keyFile : String → Except String String
  padding : Bytes

namespace Session

/-- The bytes of the password. -/
def secret (s : Session) : Bytes :=
  Utf8.encode s.password

/-- The packet of the password itself. -/
def cleartext (s : Session) : Bytes :=
  Layout.nulTerminated s.secret

/-! ### Keys -/

/-- The start of a key that is given as it is, rather than as the name of a file. -/
def keyStart : List Char := "-----BEGIN".toList

/-- The text of the key that a connection's parameter gives or names. -/
def keyText (s : Session) (key : String) : Except Error String :=
  if keyStart.isPrefixOf (Blank.trimStart key.toList) then .ok key
  else
    match s.keyFile key with
    | .ok text => .ok text
    | .error reason => .error (.authentication (.keyUnreadable key reason))

/-- The key of a text. -/
def keyOfText (text : String) : Except Error PublicKey :=
  match PublicKey.ofText? text with
  | some key => .ok key
  | none => .error (.authentication .keyMalformed)

/-- The key of the connection's parameters, if there is one. -/
def configuredKey (s : Session) : Except Error (Option PublicKey) := do
  match s.connection.serverKey with
  | none => return none
  | some key => return some (← keyOfText (← s.keyText key))

/-- The text of the key in a server's reply, which may begin with a mark. -/
def repliedKeyText (reply : Bytes) : String :=
  Utf8.decode (if reply.head? = some moreDataMarker then reply.tail else reply)

/-! ### Full passwords -/

/-- The password, masked and encrypted, and the reply to it. -/
def sendEncrypted (s : Session) (key : PublicKey) : Exchange :=
  match key.encrypt? s.padding (Scramble.masked s.secret s.seed) with
  | some packet => .single packet
  | none => .fail (.authentication .passwordTooLong)

/-- The password, protected in the way that is open, and the reply to it: as it is if no one else
can read along, or else encrypted under the given key, or under the one that the server is asked for
if that is allowed. -/
def sendPassword (s : Session) (key : Option PublicKey) (request : UInt8) : Exchange :=
  if s.isSecure then .single s.cleartext
  else
    match key with
    | some key => s.sendEncrypted key
    | none =>
      if s.connection.allowsKeyRetrieval then
        .send [request] <| .receive fun reply =>
          match keyOfText (repliedKeyText reply) with
          | .ok key => s.sendEncrypted key
          | .error e => .fail e
      else .fail (.authentication .keyUnavailable)

end Session

/-- A way to authenticate: its name, whether it may be used without leave, and its exchange. -/
structure Plugin where
  name : String
  isActiveByDefault : Bool
  start : Session → Except Error Exchange

namespace Plugin

/-- The reply ends the authentication or asks for another plugin. -/
def isFinal (reply : Bytes) : Bool :=
  match reply with
  | b :: _ => b = okMarker || b = errMarker || b = authSwitchMarker
  | [] => false

/-! ### The plugins that are built in -/

/-- The plugin that sends a scramble by SHA-1. -/
def nativePassword : Plugin where
  name := "mysql_native_password"
  isActiveByDefault := true
  start s := .ok (.single (Scramble.sha1 s.secret s.seed))

/-- The plugin that sends the password itself. -/
def clearPassword : Plugin where
  name := "mysql_clear_password"
  isActiveByDefault := false
  start s := .ok (.single s.cleartext)

/-- The byte that says that the scramble was enough. -/
def scrambleAccepted : UInt8 := 0x03

/-- The byte that asks for the password. -/
def passwordWanted : UInt8 := 0x04

/-- What follows the reply to a scramble by SHA-256. -/
def afterScramble (s : Session) (key : Option PublicKey) (reply : Bytes) : Exchange :=
  if isFinal reply then .done reply
  else if reply.take 2 = [moreDataMarker, scrambleAccepted] then .receive .done
  else if reply.take 2 = [moreDataMarker, passwordWanted] then s.sendPassword key 0x02
  else .fail (.protocol (.cachingSha2Response (reply.take 2)))

/-- The plugin that sends a scramble by SHA-256, and the password if the server wants it. -/
def cachingSha2Password : Plugin where
  name := "caching_sha2_password"
  isActiveByDefault := true
  start s := do
    let key ← s.configuredKey
    return .send (Scramble.sha256 s.secret s.seed) (.receive (afterScramble s key))

/-- The plugin that sends the password; an empty one is a single NUL. -/
def sha256Password : Plugin where
  name := "sha256_password"
  isActiveByDefault := true
  start s := do
    let key ← s.configuredKey
    return if s.password.isEmpty then .single [0] else s.sendPassword key 0x01

/-- The dialogue that answers the prompts of the server with the given passwords, the first of which
is the answer to the prompt of the given number. -/
def answerPrompts (prompt : Nat) : List String → Exchange
  | [] => .fail (.authentication (.noAnswer prompt))
  | answer :: answers =>
    .send (Layout.nulTerminated (Utf8.encode answer)) <| .receive fun reply =>
      if reply.isEmpty || isFinal reply then .done reply else answerPrompts (prompt + 1) answers

/-- The plugin that answers prompts with the password and the extra passwords. -/
def dialog : Plugin where
  name := "dialog"
  isActiveByDefault := true
  start s := .ok (answerPrompts 1 (s.password :: s.connection.extraPasswords))

/-- The plugins that are built in. -/
def builtIn : List Plugin :=
  [nativePassword, clearPassword, cachingSha2Password, sha256Password, dialog]

end Plugin

end SqlWire
