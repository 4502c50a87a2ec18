import SqlWire.Error

/-!
# Writing to a buffer

`Writer`s write behind the bytes of a buffer and give an outcome together with the bytes that the
buffer then holds, on failure as on success: a writer that fails after it has written leaves what it
wrote.
-/

namespace SqlWire

/-- A way to write to a buffer: the outcome, and the bytes of the buffer afterwards. -/
def Writer (α : Type) : Type :=
  Bytes → Except Error α × Bytes

namespace Writer

variable {α β : Type}

/-- The writer that writes nothing and gives a value. -/
protected def pure (a : α) : Writer α :=
  fun out => (.ok a, out)

/-- One writer after another; the second is not run when the first fails. -/
protected def bind (w : Writer α) (next : α → Writer β) : Writer β :=
  fun out =>
    match w out with
    | (.ok a, out') => next a out'
    | (.error e, out') => (.error e, out')

instance : Monad Writer where
  pure := Writer.pure
  bind := Writer.bind

/-- The writer of the given bytes. -/
def put (bs : Bytes) : Writer Unit :=
  fun out => (.ok (), out ++ bs)

/-- The writer that writes nothing and gives an outcome. -/
def lift (r : Except Error α) : Writer α :=
  fun out => (r, out)

end Writer

end SqlWire
