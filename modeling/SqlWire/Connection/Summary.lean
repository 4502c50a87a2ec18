import SqlWire.Connection.Basic
import SqlWire.Text.Escaped

/-!
# Summaries

The text `Connection.summary` that shows a connection's parameters for a log: no password, no key
and no name of a cipher, and texts in escaped form.
-/

namespace SqlWire

/-- The word for a mode of encryption. -/
def SslMode.name : SslMode → String
  | disable => "Disable"
  | trust => "Trust"
  | verifyAuthority => "VerifyCa"
  | verifyFull => "VerifyFull"

/-- The word for a policy on zero dates. -/
def ZeroDatePolicy.name : ZeroDatePolicy → String
  | literal => "RenderAsZeroLiteral"
  | reject => "Reject"

namespace Summary

/-- The text of something that may be there. -/
def optional : Option String → String
  | none => "None"
  | some s => "Some(" ++ s ++ ")"

/-- The text of a list. -/
def list (parts : List String) : String :=
  "[" ++ ", ".intercalate parts ++ "]"

/-- The text of a truth value. -/
def truth (b : Bool) : String :=
  if b then "true" else "false"

end Summary

namespace Connection

/-- The names of the parameters that are shown, and their texts. -/
def summaryParts (c : Connection) : List (String × String) :=
  [("host", Escaped.quoted c.host),
    ("port", toString c.tcpPort.toNat),
    ("database", Escaped.quoted c.database),
    ("user", Escaped.quoted c.user),
    ("password", Summary.optional (c.password.map fun _ => Escaped.quoted "***")),
    ("restricted_auth",
      Summary.optional (c.allowedPlugins.map fun names =>
        Summary.list (names.map Escaped.quoted))),
    ("allow_public_key_retrieval", Summary.truth c.allowsKeyRetrieval),
    ("extra_passwords", toString c.extraPasswords.length),
    ("ssl_mode", c.sslMode.name),
    ("zero_date_policy", c.zeroDates.name)]

/-- The text that shows the parameters, which says that there are more than it shows. -/
def summary (c : Connection) : String :=
  "ConnectParams \x7b "
    ++ String.join (c.summaryParts.map fun (name, text) => name ++ ": " ++ text ++ ", ")
    ++ ".. \x7d"

end Connection

end SqlWire
