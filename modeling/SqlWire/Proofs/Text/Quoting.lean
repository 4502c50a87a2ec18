import Mathlib.Data.Nat.Bitwise
import Mathlib.Tactic.Use
import SqlWire.Parameter

/-!
# Quoted literals are closed

A server that scans the literal of a text or a byte string, whatever its content, finds the closing
quote where it was written, and reads the content that was meant: `Quoted.scan_literal` says so of
any content, and `Value.scan_textBytes` of the literals of values, cut to any length, under any
status of the server.
-/

namespace SqlWire

namespace Quoted

/-! ### One byte -/

theorem scanContent_plain
    {mode : Escaping} {b : UInt8} (hquote : b ≠ quote) (hslash : ¬ (b = slash ∧ mode = .backslash))
    (after : Bytes) :
  scanContent mode (b :: after) = (scanContent mode after).map fun (c, r) => (b :: c, r)
  := by
  cases after with
  | nil => simp [scanContent, hquote]
  | cons b' after => rw [scanContent, if_neg hquote, if_neg hslash]

theorem scanContent_backslash
    (b : UInt8) (after : Bytes) :
  scanContent .backslash (slash :: b :: after) =
    (scanContent .backslash after).map fun (c, r) => (unescapeByte b :: c, r)
  := by
  rw [scanContent, if_neg (by decide), if_pos ⟨rfl, rfl⟩]

theorem scanContent_quotes
    (mode : Escaping) (after : Bytes) :
  scanContent mode (quote :: quote :: after) =
    (scanContent mode after).map fun (c, r) => (quote :: c, r)
  := by
  rw [scanContent, if_pos rfl, if_pos rfl]

/-- What stands for one byte of content is scanned as that byte, whatever comes after it: the
scanner is between two bytes of content again. -/
theorem scanContent_escapeByte
    (mode : Escaping) (b : UInt8) (after : Bytes) :
  scanContent mode (escapeByte mode b ++ after) =
    (scanContent mode after).map fun (c, r) => (b :: c, r)
  := by
  cases mode with
  | quotesOnly =>
    rw [escapeByte]
    split
    next hb =>
      subst hb
      apply scanContent_quotes
    next hb =>
      apply scanContent_plain hb
      simp
  | backslash =>
    rw [escapeByte]
    split
    next hb =>
      subst hb
      apply scanContent_backslash
    next =>
      split
      next hspecial =>
        have itself : unescapeByte b = b := by
          rcases hspecial with rfl | rfl | rfl <;> rfl
        have scanned := scanContent_backslash b after
        rw [itself] at scanned
        apply scanned
      next hspecial =>
        apply scanContent_plain
        · intro hb
          apply hspecial (.inl hb)
        · rintro ⟨hb, -⟩
          apply hspecial (.inr (.inr hb))

/-! ### Whole literals -/

/-- A quote that no other quote follows ends the literal. -/
theorem scanContent_quote
    (mode : Escaping) {rest : Bytes} (hrest : rest.head? ≠ some quote) :
  scanContent mode (quote :: rest) = some ([], rest)
  := by
  cases rest with
  | nil => rfl
  | cons b rest =>
    have hb : b ≠ quote := by
      intro hb
      apply hrest (congrArg some hb)
    rw [scanContent, if_pos rfl, if_neg hb]

/-- From any place in the content on, the rest of the content is scanned, and the literal ends at
its closing quote. -/
theorem scanContent_escape
    (mode : Escaping) (content : Bytes) {rest : Bytes} (hrest : rest.head? ≠ some quote) :
  scanContent mode (escape mode content ++ quote :: rest) = some (content, rest)
  := by
  induction content with
  | nil => exact scanContent_quote mode hrest
  | cons b content ih =>
    rw [escape, List.flatMap_cons, List.append_assoc, scanContent_escapeByte, ← escape, ih]
    rfl

/-- A literal is scanned as its content, up to its closing quote and no further. -/
theorem scan_literal
    (mode : Escaping) (content : Bytes) {rest : Bytes} (hrest : rest.head? ≠ some quote) :
  scan mode (literal mode content ++ rest) = some (content, rest)
  := by
  rw [literal, List.cons_append, List.cons_append, scan, if_pos rfl, List.append_assoc]
  apply scanContent_escape mode content hrest

/-- The escaping that a server asks for is told by the tenth bit of its status. -/
theorem Escaping.ofStatus_eq
    (status : UInt16) :
  ofStatus status = if status.toNat.testBit 9 then .quotesOnly else .backslash
  := by
  have flag : (status &&& 0x0200 != 0) = status.toNat.testBit 9 := by
    have masked := Nat.and_two_pow status.toNat 9
    rw [Bool.eq_iff_iff, bne_iff_ne, ne_eq, ← UInt16.toNat_inj, UInt16.toNat_and]
    change ¬ status.toNat &&& 2 ^ 9 = 0 ↔ _
    rw [masked]
    cases status.toNat.testBit 9 <;> simp
  rw [ofStatus, flag]

end Quoted

namespace Value

/-- For every status of the server and every limit, the literal of a text is scanned by the rules
of that status as its first characters, and the literal of a byte string, behind its introducer, as
its first bytes; the scan ends where the literal does, unless a quote follows. -/
theorem scan_textBytes
    (status : UInt16) (max : Option Nat) {rest : Bytes} (hrest : rest.head? ≠ some Quoted.quote) :
  (∀ s : String, ∃ out,
    (text s).textBytes (.ofStatus status) max = .ok out ∧
      Quoted.scan (if status.toNat.testBit 9 then .quotesOnly else .backslash) (out ++ rest) =
        some (Utf8.encode (String.ofList (truncated max s.toList)), rest)) ∧
  (∀ bs : Bytes, ∃ out,
    (bytes bs).textBytes (.ofStatus status) max = .ok (plain "_binary " ++ out) ∧
      Quoted.scan (if status.toNat.testBit 9 then .quotesOnly else .backslash) (out ++ rest) =
        some (truncated max bs, rest))
  := by
  rw [← Quoted.Escaping.ofStatus_eq]
  constructor
  · intro s
    use quoted (.ofStatus status) (String.ofList (truncated max s.toList))
    constructor
    · rfl
    · apply Quoted.scan_literal _ _ hrest
  · intro bs
    use Quoted.literal (.ofStatus status) (truncated max bs)
    constructor
    · rfl
    · apply Quoted.scan_literal _ _ hrest

/-- A byte string that a limit cuts behind a backslash, before a comma and a quote. -/
theorem scan_textBytes_cut :
  ([0x2C, 0x27] : Bytes).head? ≠ some Quoted.quote ∧
  ∃ out, (bytes [0x61, 0x27, 0x5C, 0x62]).textBytes (.ofStatus 2) (some 3) =
      .ok (plain "_binary " ++ out) ∧
    Quoted.scan .backslash (out ++ [0x2C, 0x27]) = some ([0x61, 0x27, 0x5C], [0x2C, 0x27])
  := by
  have hrest : ([0x2C, 0x27] : Bytes).head? ≠ some Quoted.quote := by decide
  refine ⟨hrest, ?_⟩
  apply (scan_textBytes 2 (some 3) hrest).2 [0x61, 0x27, 0x5C, 0x62]

end Value

end SqlWire
