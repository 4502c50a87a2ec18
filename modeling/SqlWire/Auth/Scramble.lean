import SqlWire.Digest.Sha1
import SqlWire.Digest.Sha256

/-!
# Scrambles

The proofs of a password that hide it from whoever reads along: `Scramble.sha1` and
`Scramble.sha256`, which a server checks with the twice digested password that it keeps, and
`Scramble.masked`, the form in which a password is encrypted.
-/

namespace SqlWire.Scramble

/-- The scramble by SHA-1: the digest of the password, hidden by the digest of the seed and the
twice digested password.  An empty password has an empty scramble. -/
def sha1 (password seed : Bytes) : Bytes :=
  if password.isEmpty then []
  else
    let once := Sha1.digest password
    Bytes.xor once (Sha1.digest (seed ++ Sha1.digest once))

/-- The scramble by SHA-256: the digest of the password, hidden by the digest of the twice digested
password and the seed.  An empty password has an empty scramble. -/
def sha256 (password seed : Bytes) : Bytes :=
  if password.isEmpty then []
  else
    let once := Sha256.digest password
    Bytes.xor once (Sha256.digest (Sha256.digest once ++ seed))

/-- The password with a NUL behind it, hidden by the seed repeated. -/
def masked (password seed : Bytes) : Bytes :=
  Bytes.xorCyclic seed (password ++ [0])

end SqlWire.Scramble
