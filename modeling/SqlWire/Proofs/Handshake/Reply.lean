import SqlWire.Handshake.Reply
import SqlWire.Proofs.Layout

/-!
# Replies are read back

The packets with which a server ends a step of the handshake are read as what they were written
from: a request for another plugin, with any seed; an acceptance, whatever is behind it; and an
error, with the state behind its mark and without one.  The texts of requests and errors go on to
the end of the packet, so that what is behind them is settled first, by `Reader.ReadsBefore`.
-/

namespace SqlWire

/-! ### Acceptance -/

namespace Ok

theorem reads_payload
    (r : Ok) :
  reader.Reads r.payload r
  := by
  have parts : r.payload = [okMarker] ++ (Layout.lengthEncoded r.affectedRows.toNat ++
      (Layout.lengthEncoded r.lastInsertId.toNat ++ (Bytes.ofNatLE 2 r.status.toNat ++
      (Bytes.ofNatLE 2 r.warnings.toNat ++ [])))) := by
    simp only [payload, List.append_assoc, List.cons_append, List.nil_append, List.append_nil]
  rw [parts]
  apply (Reader.reads_byte okMarker).bind
  rw [if_neg (by decide)]
  apply (Reader.reads_lengthEncoded r.affectedRows.toNat_lt).bind
  apply (Reader.reads_lengthEncoded r.lastInsertId.toNat_lt).bind
  apply (Reader.reads_uint_of_lt (w := 2) r.status.toNat_lt).bind
  apply (Reader.reads_uint_of_lt (w := 2) r.warnings.toNat_lt).bind
  rw [Option.getD_some, Option.getD_some, UInt64.ofNat_toNat, UInt64.ofNat_toNat,
    UInt16.ofNat_toNat, UInt16.ofNat_toNat]
  apply Reader.reads_pure

end Ok

/-! ### Requests for another plugin -/

namespace AuthSwitch

theorem readsBefore_payload
    {r : AuthSwitch} (h : '\x00' ∉ r.plugin.toList) :
  reader.ReadsBefore r.payload [] r
  := by
  have parts : r.payload = [authSwitchMarker] ++ (Layout.nulTerminated (Utf8.encode r.plugin) ++
      (Layout.nulTerminated r.seed ++ [])) := by
    rw [List.append_nil]
    rfl
  rw [parts]
  apply ((Reader.reads_byte authSwitchMarker).readsBefore _).bind
  rw [if_neg (by decide)]
  apply ((Reader.reads_untilNul (Utf8.zero_not_mem_encode h)).readsBefore _).bind
  apply (Reader.readsBefore_allBytes _).bind
  rw [Utf8.decode_encode, withoutFinalNul_nulTerminated]
  apply (Reader.reads_pure _).readsBefore

end AuthSwitch

/-! ### Errors -/

namespace ServerError

/-- A state of five bytes is read behind its mark. -/
theorem reads_state?
    {state : String} (h : (Utf8.encode state).length = 5) :
  state?.Reads (stateMark :: Utf8.encode state) (some state)
  := by
  intro position rest
  have text := Reader.reads_text state
  rw [h] at text
  have marked : (do Reader.skip 1; return some (← Reader.text 5) : Reader (Option String)).Reads
      ([stateMark] ++ Utf8.encode state) (some state) :=
    (Reader.reads_skip List.length_singleton).bind (text.map some)
  have enough : Cursor.has ⟨position, stateMark :: Utf8.encode state ++ rest⟩ 6 = true := by
    rw [Cursor.has_iff, Cursor.remaining, List.length_append, List.length_cons]
    omega
  rw [state?, if_pos]
  · apply marked
  · apply Bool.and_eq_true_iff.mpr ⟨rfl, enough⟩

/-- No state is read where its mark is not. -/
theorem readsBefore_state?
    {rest : Bytes} (h : rest.head? ≠ some stateMark) :
  state?.ReadsBefore [] rest none
  := by
  intro position
  rw [state?, if_neg]
  · rfl
  · intro marked
    exact h (of_decide_eq_true (Bool.and_eq_true_iff.mp marked).1)

/-- The state is what is read in front of the text. -/
theorem ofPayload_of_readsBefore
    (code : UInt16) {state : Option String} {stateBytes : Bytes} {text : String}
    (h : state?.ReadsBefore stateBytes (Utf8.encode text) state) :
  ofPayload (errMarker :: Bytes.ofNatLE 2 code.toNat ++ stateBytes ++ Utf8.encode text) =
    .server code state text
  := by
  have read : reader.ReadsBefore ([errMarker] ++ (Bytes.ofNatLE 2 code.toNat ++ (stateBytes ++
      Utf8.encode text))) [] (.server code state text) := by
    apply ((Reader.reads_byte errMarker).readsBefore _).bind
    rw [if_pos rfl]
    apply ((Reader.reads_uint_of_lt (w := 2) code.toNat_lt).readsBefore _).bind
    rw [← List.append_nil (Utf8.encode text)] at h
    apply h.bind
    rw [← List.append_nil (Utf8.encode text)]
    apply (Reader.readsBefore_allBytes _).bind
    rw [Utf8.decode_encode, UInt16.ofNat_toNat]
    apply (Reader.reads_pure _).readsBefore
  have whole := read.run
  rw [List.append_assoc, List.cons_append, ofPayload]
  rw [List.singleton_append] at whole
  rw [whole]

theorem ofPayload_payload_of_state
    (code : UInt16) {state : String} (text : String) (hlength : state.length = 5)
    (hascii : ∀ c ∈ state.toList, c.toNat < 0x80) :
  ofPayload (payload code (some state) text) = .server code (some state) text
  := by
  apply ofPayload_of_readsBefore
  apply (reads_state? _).readsBefore
  rw [Utf8.length_encode_of_ascii hascii, hlength]

theorem ofPayload_payload_of_no_state
    (code : UInt16) {text : String} (h : text.toList.head? ≠ some '#') :
  ofPayload (payload code none text) = .server code none text
  := by
  apply ofPayload_of_readsBefore
  apply readsBefore_state?
  intro marked
  obtain ⟨c, hc, hnumber⟩ := Utf8.head?_encode_eq_some marked (by decide)
  apply h
  rw [hc, ← Char.ofNat_toNat c, hnumber]
  rfl

end ServerError

/-! ### All of them -/

/-- A request whose plugin has no NUL in its name is read back with its seed, NULs in it and at its
end included; an acceptance whatever is behind it; and an error with its state, of five characters of
ASCII, or with none if its text does not begin with the mark of one. -/
theorem ofPayload_replies :
  (∀ request : AuthSwitch, '\x00' ∉ request.plugin.toList →
    AuthSwitch.ofPayload request.payload = .ok request) ∧
  (∀ (answer : Ok) (more : Bytes), Ok.ofPayload (answer.payload ++ more) = .ok answer) ∧
  (∀ (code : UInt16) (state text : String),
    state.length = 5 → (∀ c ∈ state.toList, c.toNat < 0x80) →
    ServerError.ofPayload (ServerError.payload code (some state) text) =
      .server code (some state) text) ∧
  ∀ (code : UInt16) (text : String), text.toList.head? ≠ some '#' →
    ServerError.ofPayload (ServerError.payload code none text) = .server code none text
  := by
  refine ⟨?_, ?_, ?_, ?_⟩
  · intro request hplugin
    apply (AuthSwitch.readsBefore_payload hplugin).run
  · intro answer more
    apply (Ok.reads_payload answer).run_append
  · intro code state text hlength hascii
    apply ServerError.ofPayload_payload_of_state code text hlength hascii
  · intro code text htext
    apply ServerError.ofPayload_payload_of_no_state code htext

/-- A seed with NULs in it and at its end; numbers of nine bytes and of one; a text that begins with
the mark of a state, behind a state; and one with the mark inside, without a state. -/
theorem ofPayload_replies_marks :
  ('\x00' ∉ "p".toList ∧
    AuthSwitch.ofPayload [0xFE, 0x70, 0, 0, 7, 0, 0] = .ok ⟨"p", [0, 7, 0]⟩) ∧
  Ok.ofPayload [0, 0xFE, 0, 0, 0, 0, 0, 0, 0, 0x80, 250, 2, 0, 1, 0, 9] =
    .ok ⟨0x8000000000000000, 250, 2, 1⟩ ∧
  ("28000".length = 5 ∧ (∀ c ∈ "28000".toList, c.toNat < 0x80) ∧
    ServerError.ofPayload [0xFF, 0x15, 0x04, 0x23, 0x32, 0x38, 0x30, 0x30, 0x30, 0x23, 0xC3, 0xA9] =
      .server 1045 (some "28000") "#é") ∧
  "é#".toList.head? ≠ some '#' ∧
    ServerError.ofPayload [0xFF, 0x15, 0x04, 0xC3, 0xA9, 0x23] = .server 1045 none "é#"
  := by
  obtain ⟨requests, answers, states, texts⟩ := ofPayload_replies
  have hplugin : '\x00' ∉ "p".toList := by decide
  have hascii : ∀ c ∈ "28000".toList, c.toNat < 0x80 := by
    have all : "28000".toList.all (fun c => c.toNat < 0x80) = true := by rfl
    intro c hc
    exact of_decide_eq_true (List.all_eq_true.mp all c hc)
  have htext : "é#".toList.head? ≠ some '#' := by decide
  refine ⟨⟨hplugin, ?_⟩, ?_, ⟨rfl, hascii, ?_⟩, htext, ?_⟩
  · apply requests ⟨"p", [0, 7, 0]⟩ hplugin
  · apply answers ⟨0x8000000000000000, 250, 2, 1⟩ [9]
  · apply states 1045 "28000" "#é" rfl hascii
  · apply texts 1045 "é#" htext

end SqlWire
