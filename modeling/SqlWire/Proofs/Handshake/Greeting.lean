import Mathlib.Data.Nat.Bitwise
import SqlWire.Handshake.Greeting
import SqlWire.Proofs.Layout

/-!
# Greetings are read back

The payload of a greeting's parts is read as the greeting that they make up,
`Greeting.ofPayload_payload`: the two parts of the seed are put together without the NUL behind the
second, whatever bytes it has itself, and what the capabilities leave out is left out of both.
Which parts those are is told by the bits of the two quarters of the capabilities' lower half.
-/

namespace SqlWire

/-! ### Capabilities -/

namespace Capabilities

/-- An ability is there when the bit at its place is set. -/
theorem includes_eq_testBit
    (c : Capabilities) {bit : Capabilities} (place : Nat) (h : bit.toNat = 2 ^ place) :
  c.includes bit = c.toNat.testBit place
  := by
  have masked : (c &&& bit).toNat = (c.toNat.testBit place).toNat * 2 ^ place := by
    rw [UInt64.toNat_and, h, Nat.and_two_pow]
  have zero : (c &&& bit = 0) ↔ (c.toNat.testBit place).toNat * 2 ^ place = 0 := by
    rw [← masked, ← UInt64.toNat_inj]
    rfl
  rw [includes, Bool.eq_iff_iff, bne_iff_ne, ne_eq, zero, Nat.mul_eq_zero, not_or]
  cases c.toNat.testBit place <;> simp

variable {low high extended : Nat}

/-- The upper half is there when the lowest bit is not set. -/
theorem toNat_ofParts
    (hlow : low < 2 ^ 16) (hhigh : high < 2 ^ 16) (hextended : extended < 2 ^ 32) :
  (ofParts low high extended).toNat =
    low + 2 ^ 16 * high + (if low.testBit 0 then 0 else 2 ^ 32 * extended)
  := by
  have standard : (UInt64.ofNat (low + 0x10000 * high)).toNat = low + 0x10000 * high :=
    UInt64.toNat_ofNat_of_lt' (Nat.lt_of_lt_of_le (by omega : _ < 2 ^ 32) (by decide))
  have lowest : includes (UInt64.ofNat (low + 0x10000 * high)) longPassword = low.testBit 0 := by
    have even : (low + 0x10000 * high) % 2 = low % 2 := by omega
    rw [includes_eq_testBit _ 0 rfl, standard, Nat.testBit_zero, Nat.testBit_zero, even]
  rw [ofParts, lowest]
  split
  · rw [standard]
    omega
  · apply UInt64.toNat_ofNat_of_lt'
    exact Nat.lt_of_lt_of_le (by omega : _ < 2 ^ 64) (by decide)

/-- The places of the lower half are those of its quarters, one behind the other. -/
theorem testBit_toNat_ofParts
    (hlow : low < 2 ^ 16) (hhigh : high < 2 ^ 16) (hextended : extended < 2 ^ 32) {place : Nat}
    (hplace : place < 32) :
  (ofParts low high extended).toNat.testBit place =
    if place < 16 then low.testBit place else high.testBit (place - 16)
  := by
  obtain ⟨upper, hupper⟩ : ∃ upper, (ofParts low high extended).toNat =
      2 ^ 16 * (2 ^ 16 * upper + high) + low := by
    use if low.testBit 0 then 0 else extended
    rw [toNat_ofParts hlow hhigh hextended]
    split <;> omega
  have inside : place - 16 < 16 := by omega
  rw [hupper, Nat.testBit_two_pow_mul_add _ hlow, Nat.testBit_two_pow_mul_add _ hhigh,
    if_pos inside]

end Capabilities

/-! ### Greetings -/

namespace Greeting

/-- The second part of a seed of the announced length is read without the NUL behind it only. -/
theorem reads_seedRest
    {announced : Nat} {rest : Bytes} (h : rest.length + 1 = seedRestLength announced) :
  (seedRest announced).Reads (Layout.nulTerminated rest) rest
  := by
  have length : (Layout.nulTerminated rest).length = seedRestLength announced := by
    rw [Layout.nulTerminated, List.length_append, List.length_singleton, h]
  intro position more
  have enough : min (seedRestLength announced) (Layout.nulTerminated rest ++ more).length =
      seedRestLength announced := by
    rw [List.length_append]
    omega
  have read := (Reader.reads_bytes length).map withoutFinalNul position more
  rw [withoutFinalNul_nulTerminated, ← enough] at read
  exact read

namespace Parts

/-- The parts as they come one after another. -/
theorem payload_eq
    (p : Parts) :
  p.payload = [protocolVersion] ++ (Layout.nulTerminated (Utf8.encode p.version) ++
    (Bytes.ofNatLE 4 p.connection.toNat ++ (p.seedStart ++ ([p.filler] ++
    (Bytes.ofNatLE 2 p.low.toNat ++ ([p.collation] ++ (Bytes.ofNatLE 2 p.status.toNat ++
    (Bytes.ofNatLE 2 p.high.toNat ++ ([p.seedLength] ++ (p.reserved ++
    (Bytes.ofNatLE 4 p.extended.toNat ++
    ((if p.capabilities.includes Capabilities.secureConnection then
        Layout.nulTerminated p.seedRest else []) ++
      (if p.capabilities.includes Capabilities.pluginAuth then
        Layout.nulTerminated (Utf8.encode p.plugin) else [])))))))))))))
  := by
  simp only [payload, List.append_assoc, List.cons_append, List.nil_append]

/-- What is read when the capabilities have the ability, and is empty when they do not. -/
theorem reads_optional
    {α : Type} {r : Reader Bytes} {next : Bytes → Reader α} {present : Bool}
    {bs value more : Bytes} {a : α} (hr : present = true → r.Reads bs value)
    (hnext : (next (if present then value else [])).Reads more a) :
  (if present then r >>= next else pure [] >>= next).Reads ((if present then bs else []) ++ more) a
  := by
  cases present with
  | true => exact (hr rfl).bind hnext
  | false => exact (Reader.reads_pure []).bind hnext

theorem reads_payload
    {p : Parts} (hversion : '\x00' ∉ p.version.toList) (hplugin : '\x00' ∉ p.plugin.toList)
    (hseedStart : p.seedStart.length = 8)
    (hseedRest : p.seedRest.length = max 13 (p.seedLength.toNat - 8) - 1)
    (hreserved : p.reserved.length = 6) :
  reader.Reads p.payload p.greeting
  := by
  have plugin := Utf8.zero_not_mem_encode hplugin
  have rest : p.seedRest.length + 1 = seedRestLength p.seedLength.toNat := by
    rw [hseedRest, seedRestLength, seedStartLength]
    omega
  rw [payload_eq]
  apply (Reader.reads_byte protocolVersion).bind
  rw [if_neg (by decide), if_neg (by decide)]
  apply (Reader.reads_untilNul (Utf8.zero_not_mem_encode hversion)).bind
  apply (Reader.reads_uint_of_lt p.connection.toNat_lt).bind
  apply (Reader.reads_bytes hseedStart).bind
  apply (Reader.reads_skip (List.length_singleton : [p.filler].length = 1)).bind
  apply (Reader.reads_uint_of_lt (w := 2) p.low.toNat_lt).bind
  apply (Reader.reads_byte p.collation).bind
  apply (Reader.reads_uint_of_lt p.status.toNat_lt).bind
  apply (Reader.reads_uint_of_lt p.high.toNat_lt).bind
  apply (Reader.reads_byte p.seedLength).bind
  apply (Reader.reads_skip hreserved).bind
  apply (Reader.reads_uint_of_lt p.extended.toNat_lt).bind
  apply reads_optional fun _ => reads_seedRest rest
  rw [← List.append_nil (if p.capabilities.includes Capabilities.pluginAuth then _ else _)]
  apply reads_optional fun _ => Reader.reads_untilNul plugin
  have name : Utf8.decode (if p.capabilities.includes Capabilities.pluginAuth then
      Utf8.encode p.plugin else []) =
        if p.capabilities.includes Capabilities.pluginAuth then p.plugin else "" := by
    split
    · apply Utf8.decode_encode
    · rfl
  rw [greeting, ← name]
  dsimp only
  rw [Utf8.decode_encode, UInt32.ofNat_toNat, UInt16.ofNat_toNat]
  apply Reader.reads_pure

end Parts

/-- A greeting's payload is read as the greeting of its parts.  The second part of the seed and the
plugin are there when the bits at the places 15 and 19 of the capabilities are set, and the
capabilities have an upper half when the one at the place 0 is not. -/
theorem ofPayload_parts
    {p : Parts} (hversion : '\x00' ∉ p.version.toList) (hplugin : '\x00' ∉ p.plugin.toList)
    (hseedStart : p.seedStart.length = 8)
    (hseedRest : p.seedRest.length = max 13 (p.seedLength.toNat - 8) - 1)
    (hreserved : p.reserved.length = 6) :
  ofPayload p.payload = .ok p.greeting ∧
  p.capabilities.toNat = p.low.toNat + 2 ^ 16 * p.high.toNat +
    (if p.low.toNat.testBit 0 then 0 else 2 ^ 32 * p.extended.toNat) ∧
  p.capabilities.includes Capabilities.secureConnection = p.low.toNat.testBit 15 ∧
  p.capabilities.includes Capabilities.pluginAuth = p.high.toNat.testBit 3
  := by
  have hlow := p.low.toNat_lt
  have hhigh := p.high.toNat_lt
  have hextended := p.extended.toNat_lt
  refine ⟨?_, ?_, ?_, ?_⟩
  · apply (Parts.reads_payload hversion hplugin hseedStart hseedRest hreserved).run
  · apply Capabilities.toNat_ofParts hlow hhigh hextended
  · rw [Capabilities.includes_eq_testBit _ 15 rfl]
    apply Capabilities.testBit_toNat_ofParts hlow hhigh hextended (by decide)
  · rw [Capabilities.includes_eq_testBit _ 19 rfl]
    apply Capabilities.testBit_toNat_ofParts hlow hhigh hextended (by decide)

/-- A seed whose second part has zeros inside and at its end, from a server with an upper half. -/
theorem ofPayload_parts_zeros :
  let p : Parts := ⟨"11.4", 7, [1, 2, 3, 4, 5, 6, 7, 8], 9, 0x8000, 45, 2, 0x8, 21,
    [0, 0, 0, 0, 0, 0], 3, [9, 0, 10, 11, 12, 13, 14, 15, 16, 17, 18, 0], "dialog"⟩
  ('\x00' ∉ p.version.toList ∧ '\x00' ∉ p.plugin.toList ∧ p.seedStart.length = 8 ∧
    p.seedRest.length = max 13 (p.seedLength.toNat - 8) - 1 ∧ p.reserved.length = 6) ∧
  ofPayload p.payload = .ok ⟨"11.4", 7, [1, 2, 3, 4, 5, 6, 7, 8, 9, 0, 10, 11, 12, 13, 14, 15, 16,
    17, 18, 0], 0x300088000, 45, 2, "dialog"⟩
  := by
  intro p
  have hversion : '\x00' ∉ p.version.toList := by decide
  have hplugin : '\x00' ∉ p.plugin.toList := by decide
  refine ⟨⟨hversion, hplugin, rfl, rfl, rfl⟩, ?_⟩
  rw [(ofPayload_parts hversion hplugin rfl rfl rfl).1]
  decide

end Greeting

end SqlWire
