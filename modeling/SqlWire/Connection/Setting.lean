import SqlWire.Connection.Basic
import SqlWire.Text.Blank

/-!
# Settings

A connection's parameters are also given as options, each with a key and a value.  Some keys have an
older name beside the present one, `Setting.currentName`; an option whose key is known makes a
`Setting`, and `Connection.withOptions` applies those of a list in order.
-/

namespace SqlWire

/-- One parameter, and what it is set to. -/
inductive Setting where
  | user (name : String)
  | password (text : String)
  | extraPassword (text : String)
  | database (name : String)
  | allowedPlugins (names : List String)
  | serverKey (key : String)
  | keyRetrieval (isAllowed : Bool)
  | sslMode (mode : SslMode)
  | cipherSuites (names : String)
  | zeroDates (policy : ZeroDatePolicy)
  deriving DecidableEq, Repr

namespace Setting

/-- The older names of keys, and the present ones. -/
def olderNames : List (String × String) :=
  [("enabledSSLCipherSuites", "enabledSslCipherSuites"),
    ("serverRSAPublicKeyFile", "serverRsaPublicKeyFile"),
    ("useSsl", "sslMode"),
    ("useSSL", "sslMode")]

/-- The present name of a key. -/
def currentName (key : String) : String :=
  (olderNames.lookup key).getD key

/-- The truth value of a text, without regard to the case of ASCII letters. -/
def truthOf (option s : String) : Except Error Bool :=
  let word := Ascii.lowerText s
  if word ∈ ["true", "1", ""] then .ok true
  else if word ∈ ["false", "0"] then .ok false
  else .error (.connectString (.boolean option s))

/-- The policy for zero dates of a text. -/
def zeroDatesOf (s : String) : Except Error ZeroDatePolicy :=
  if s = "zeroLiteral" then .ok .literal
  else if s = "reject" then .ok .reject
  else .error (.connectString (.zeroDatePolicy s))

/-- The parts of a list between commas. -/
def commaParts : List Char → List (List Char)
  | [] => [[]]
  | c :: cs =>
    match commaParts cs with
    | [] => [[c]]
    | part :: parts => if c = ',' then [] :: part :: parts else (c :: part) :: parts

/-- The names in a list with commas between them, without the blanks around them and without the
empty ones. -/
def namesOf (s : String) : List String :=
  (((commaParts s.toList).map Blank.trim).filter (!·.isEmpty)).map String.ofList

/-- The setting of an option, if its key is known. -/
def ofOption (key value : String) : Except Error (Option Setting) := do
  match currentName key with
  | "user" => return some (user value)
  | "password" => return some (password value)
  | "password2" => return some (extraPassword value)
  | "password3" => return some (extraPassword value)
  | "database" => return some (database value)
  | "restrictedAuth" => return some (allowedPlugins (namesOf value))
  | "serverRsaPublicKeyFile" => return some (serverKey value)
  | "allowPublicKeyRetrieval" =>
    return some (keyRetrieval (← truthOf "allowPublicKeyRetrieval" value))
  | "sslMode" => return some (sslMode (← SslMode.ofText value))
  | "enabledSslCipherSuites" => return some (cipherSuites value)
  | "zeroDatePolicy" => return some (zeroDates (← zeroDatesOf value))
  | _ => return none

end Setting

namespace Connection

/-- The parameters with one set; an extra password joins those before it. -/
def set (c : Connection) : Setting → Connection
  | .user name => { c with user := name }
  | .password text => { c with password := some text }
  | .extraPassword text => { c with extraPasswords := c.extraPasswords ++ [text] }
  | .database name => { c with database := name }
  | .allowedPlugins names => { c with allowedPlugins := some names }
  | .serverKey key => { c with serverKey := some key }
  | .keyRetrieval isAllowed => { c with allowsKeyRetrieval := isAllowed }
  | .sslMode mode => { c with sslMode := mode }
  | .cipherSuites names => { c with cipherSuites := some names }
  | .zeroDates policy => { c with zeroDates := policy }

/-- The parameters after an option; one whose key is not known changes nothing. -/
def withOption (c : Connection) (option : String × String) : Except Error Connection := do
  match ← Setting.ofOption option.1 option.2 with
  | none => return c
  | some setting => return c.set setting

/-- The parameters after options in order, up to the first that is not understood. -/
def withOptions (c : Connection) (options : List (String × String)) : Except Error Connection :=
  options.foldlM withOption c

end Connection

end SqlWire
