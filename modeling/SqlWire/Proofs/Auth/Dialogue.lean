import SqlWire.Proofs.Auth.Course

/-!
# Dialogues

The plugin `Plugin.dialog` sends its passwords one after the other, each of them once and before the
reply that it receives next, and stops at the first reply that is no prompt.  `Dialogue` tells by
the replies that lie ahead what is done, with which outcome, and which replies are left; every
dialogue of the plugin is one of these, `Plugin.dialog_answers`.
-/

namespace SqlWire

/-- The reply ends a dialogue: it is empty or begins with a zero, 0xFE or 0xFF. -/
def EndsDialogue (reply : Bytes) : Prop :=
  reply = [] ∨ ∃ b ∈ reply.head?, b ∈ [0x00, 0xFE, 0xFF]

namespace Operation

/-- Packets sent and replies received in turn, as long as there are both. -/
def turns (packets replies : List Bytes) : List Operation :=
  (packets.zip replies).flatMap fun (packet, reply) => [sent packet, received reply]

theorem turns_nil
    (packets : List Bytes) :
  turns packets [] = []
  := by
  rw [turns, List.zip_nil_right, List.flatMap_nil]

theorem turns_cons
    (packet reply : Bytes) (packets replies : List Bytes) :
  turns (packet :: packets) (reply :: replies) =
    sent packet :: received reply :: turns packets replies
  :=
  rfl

theorem filterMap_sent?_turns
    (packets replies : List Bytes) :
  (turns packets replies).filterMap sent? = packets.take replies.length
  := by
  induction packets generalizing replies with
  | nil => rw [List.take_nil]; rfl
  | cons packet packets ih =>
    cases replies with
    | nil => rw [turns_nil]; rfl
    | cons reply replies =>
      rw [List.length_cons, List.take_succ_cons, ← ih]
      rfl

end Operation

open Operation

/-- The dialogue of the given packets with the replies that lie ahead, when the first packet answers
the prompt of the given number: what is done, the outcome, and the replies that are left.  It ends
with the first reply that is no prompt, or for want of a packet for the next prompt, or for want of
a reply to the next packet. -/
inductive Dialogue (prompt : Nat) (packets replies : List Bytes) :
    List Operation → Except Error Bytes → List Bytes → Prop where
  | ended {prompts : List Bytes} {reply : Bytes} {later : List Bytes}
      (hreplies : replies = prompts ++ reply :: later) (hprompts : ∀ r ∈ prompts, ¬ EndsDialogue r)
      (hreply : EndsDialogue reply) (hlength : prompts.length < packets.length) :
      Dialogue prompt packets replies (turns packets (prompts ++ [reply])) (.ok reply) later
  | unanswered {prompts later : List Bytes}
      (hreplies : replies = prompts ++ later) (hprompts : ∀ r ∈ prompts, ¬ EndsDialogue r)
      (hlength : prompts.length = packets.length) :
      Dialogue prompt packets replies (turns packets prompts)
        (.error (.authentication (.noAnswer (prompt + packets.length)))) later
  | closed {packet : Bytes} (hprompts : ∀ r ∈ replies, ¬ EndsDialogue r)
      (hpacket : packets[replies.length]? = some packet) :
      Dialogue prompt packets replies (turns packets replies ++ [.sent packet, .closed])
        (.error .connectionClosed) []

namespace Dialogue

variable {prompt : Nat} {packets replies left : List Bytes} {ops : List Operation}
  {outcome : Except Error Bytes}

/-- Without packets the first prompt has no answer. -/
theorem nil
    (prompt : Nat) (replies : List Bytes) :
  Dialogue prompt [] replies [] (.error (.authentication (.noAnswer prompt))) replies
  :=
  @unanswered prompt [] replies [] replies rfl nofun rfl

/-- Without replies the connection is closed behind the first packet. -/
theorem cons_nil
    (prompt : Nat) (packet : Bytes) (packets : List Bytes) :
  Dialogue prompt (packet :: packets) [] [.sent packet, .closed] (.error .connectionClosed) []
  :=
  closed nofun rfl

/-- A reply that is no prompt is the last one. -/
theorem final
    {reply : Bytes} (prompt : Nat) (packet : Bytes) (packets later : List Bytes)
    (hreply : EndsDialogue reply) :
  Dialogue prompt (packet :: packets) (reply :: later) [.sent packet, .received reply] (.ok reply)
    later
  := by
  rw [← turns_nil packets, ← turns_cons]
  exact @ended prompt (packet :: packets) _ [] reply later rfl nofun hreply (Nat.succ_pos _)

/-- A prompt in front of a dialogue is answered by one more packet. -/
theorem cons
    {reply : Bytes} (packet : Bytes) (hreply : ¬ EndsDialogue reply)
    (h : Dialogue (prompt + 1) packets replies ops outcome left) :
  Dialogue prompt (packet :: packets) (reply :: replies) (.sent packet :: .received reply :: ops)
    outcome left
  := by
  have prompts {rs : List Bytes} (hrs : ∀ r ∈ rs, ¬ EndsDialogue r) :
      ∀ r ∈ reply :: rs, ¬ EndsDialogue r :=
    List.forall_mem_cons.mpr ⟨hreply, hrs⟩
  cases h with
  | @ended rs final later hreplies hprompts hends hlength =>
    subst hreplies
    exact @ended _ (packet :: packets) _ (reply :: rs) _ _ rfl (prompts hprompts) hends
      (Nat.succ_lt_succ hlength)
  | @unanswered rs later hreplies hprompts hlength =>
    subst hreplies
    have number : prompt + 1 + packets.length = prompt + (packet :: packets).length := by
      rw [List.length_cons]
      omega
    rw [number]
    exact @unanswered _ (packet :: packets) _ (reply :: rs) _ rfl (prompts hprompts)
      (congrArg Nat.succ hlength)
  | closed hprompts hpacket =>
    exact @closed _ (packet :: packets) (reply :: replies) _ (prompts hprompts) hpacket

/-- The packets are sent in order, and each at most once. -/
theorem sent_isPrefix
    (h : Dialogue prompt packets replies ops outcome left) :
  ops.filterMap sent? <+: packets
  := by
  cases h with
  | ended => rw [filterMap_sent?_turns]; apply List.take_prefix
  | unanswered => rw [filterMap_sent?_turns]; apply List.take_prefix
  | closed hprompts hpacket =>
    have one_more := List.take_add_one (l := packets) (i := replies.length)
    rw [hpacket, Option.toList_some] at one_more
    rw [List.filterMap_append, filterMap_sent?_turns]
    change packets.take replies.length ++ [_] <+: packets
    rw [← one_more]
    apply List.take_prefix

/-- A dialogue in which a prompt is left without an answer has sent every packet. -/
theorem sent_eq_of_unanswered
    {n : Nat}
    (h : Dialogue prompt packets replies ops (.error (.authentication (.noAnswer n))) left) :
  ops.filterMap sent? = packets
  := by
  cases h with
  | unanswered hreplies hprompts hlength => rw [filterMap_sent?_turns, hlength, List.take_length]

end Dialogue

namespace Plugin

theorem endsDialogue_iff
    {reply : Bytes} :
  EndsDialogue reply ↔ (reply.isEmpty || isFinal reply) = true
  := by
  cases reply with
  | nil => simp [EndsDialogue]
  | cons b reply =>
    have final : isFinal (b :: reply) = true ↔ b = 0x00 ∨ b = 0xFF ∨ b = 0xFE := by
      rw [isFinal, Bool.or_eq_true, Bool.or_eq_true, decide_eq_true_iff, decide_eq_true_iff,
        decide_eq_true_iff, or_assoc]
      rfl
    rw [List.isEmpty_cons, Bool.false_or, final, or_comm (a := b = 0xFF)]
    simp [EndsDialogue]

/-- Every course of the answers to a server's prompts is a dialogue with the replies received and
those that are left, of which there are none when the connection is closed. -/
theorem dialogue_of_course
    {answers : List String} {prompt : Nat} {ops : List Operation} {outcome : Except Error Bytes}
    {left : List Bytes} (h : (answerPrompts prompt answers).Course ops outcome)
    (hleft : .closed ∈ ops → left = []) :
  Dialogue prompt (answers.map fun a => Layout.nulTerminated (Utf8.encode a))
    (ops.filterMap received? ++ left) ops outcome left
  := by
  -- On the answers: a course begins with the first of them, unless there are none.
  induction answers generalizing prompt ops with
  | nil =>
    cases h
    apply Dialogue.nil
  | cons answer answers ih =>
    cases h with
    | send rest =>
      cases rest with
      | closed =>
        obtain rfl := hleft (by simp)
        apply Dialogue.cons_nil
      | @receive _ reply ops _ rest =>
        dsimp only at rest
        by_cases hreply : EndsDialogue reply
        · rw [if_pos (endsDialogue_iff.mp hreply)] at rest
          cases rest
          exact Dialogue.final prompt _ _ left hreply
        · rw [if_neg (mt endsDialogue_iff.mpr hreply)] at rest
          apply Dialogue.cons _ hreply
          apply ih rest
          intro hclosed
          apply hleft
          simp [hclosed]

/-- The plugin answers the prompts of a server, whatever it replies, with the password and the extra
passwords in a dialogue: it sends them in order, and all of them when a prompt is left without an
answer. -/
theorem dialog_answers
    (s : Session) (incoming : List Bytes) :
  let packets := (s.password :: s.connection.extraPasswords).map fun a => Utf8.encode a ++ [0]
  ∃ x, dialog.start s = .ok x ∧
    let result := x.run .recorded (.ofIncoming incoming s.isSecure, [])
    let script := result.2.1
    Dialogue 1 packets incoming result.2.2 result.1 script.incoming ∧
    script.outgoing = result.2.2.filterMap sent? ∧ script.outgoing <+: packets ∧
    ∀ n, result.1 = .error (.authentication (.noAnswer n)) → script.outgoing = packets
  := by
  intro packets
  refine ⟨_, rfl, ?_⟩
  intro result script
  obtain ⟨ops, hcourse, hafter, hrecorded⟩ := Exchange.exists_course_recorded
    (answerPrompts 1 (s.password :: s.connection.extraPasswords)) (.ofIncoming incoming s.isSecure)
  have houtgoing : script.outgoing = ops.filterMap sent? := by
    simp only [script, result, hrecorded, hafter.outgoing]
    rfl
  have hincoming : incoming = ops.filterMap received? ++ script.incoming := by
    simp only [script, result, hrecorded, ← hafter.incoming]
    rfl
  have hoperations : result.2.2 = ops := by
    simp only [result, hrecorded, List.nil_append]
  have dialogue : Dialogue 1 packets incoming ops result.1 script.incoming := by
    rw [hincoming]
    simp only [script, result, hrecorded]
    apply dialogue_of_course hcourse hafter.closed
  rw [hoperations, houtgoing]
  refine ⟨dialogue, rfl, dialogue.sent_isPrefix, fun n hn => ?_⟩
  rw [hn] at dialogue
  apply dialogue.sent_eq_of_unanswered

/-- Two prompts for a single password, and a reply that is left. -/
theorem dialog_answers_once :
  let s : Session := ⟨"secret", [], default, false, fun _ => .error "", []⟩
  let x := answerPrompts 1 ["secret"]
  let packets := [Utf8.encode "secret" ++ [0]]
  let incoming : List Bytes := [[0x02, 0x50], [0x04, 0x54]]
  let result := x.run .recorded (.ofIncoming incoming s.isSecure, [])
  dialog.start s = .ok x ∧
    Dialogue 1 packets incoming result.2.2 (.error (.authentication (.noAnswer 2))) [[0x04, 0x54]] ∧
    result.2.1.outgoing = packets
  := by
  intro s x packets incoming result
  obtain ⟨_, hstart, hdialogue, -, -, hall⟩ := dialog_answers s incoming
  cases hstart
  exact ⟨rfl, hdialogue, hall 2 rfl⟩

end Plugin

end SqlWire
