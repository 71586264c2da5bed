import ChronosX.ControlPlane.Replies
import ChronosX.ControlPlane.Server
import ChronosX.ControlPlane.Snapshot

/-!
# Answers to clients

What the control core says to each request: `respond` is the opcode and the payload of the reply,
in terms of the rules and the statistics alone. With the response array of `handle_client` the reply
is always that, sealed, with the sequence number of the request. Requests one after another are
answered by the core that those before them have left.
-/

namespace ChronosX

open ByteLayout

namespace ControlCore

variable {maxRules : ℕ} (c : ControlCore maxRules)

/-! ### The reply to a request -/

/-- The opcode and the payload of a reply. -/
structure ReplyBody where
  opcode : Opcode
  payload : List Byte
deriving DecidableEq, Repr

/-- An error, with the name of the status as its payload. -/
def refusal (status : ProtocolStatus) : ReplyBody :=
  ⟨.error, messageBytes (protocolStatusName status)⟩

def acknowledgement : ReplyBody := ⟨.pong, []⟩

/-- What is said to a change of the table: it has a payload of the right size and is possible, or
it is refused. -/
def changeReply (sized possible : Prop) [Decidable sized] [Decidable possible]
    (status : ProtocolStatus) : ReplyBody :=
  if ¬ sized then refusal .invalidPayload
  else if possible then acknowledgement else refusal status

/-- The statistics that `handle_get_stats` sends. -/
def currentStats : StatUpdate := if c.haveStats then c.latestStats else {}

/-- What the core says to a request. -/
def respond (request : List Byte) : ReplyBody :=
  let decoded := decodeMessage request
  let opcode := decoded.message.header.opcode
  let payload := decoded.message.payload
  if decoded.status ≠ .ok then refusal decoded.status
  else if opcode = .ping then acknowledgement
  else if opcode = .getStats then ⟨.statsResponse, c.currentStats.toMemory⟩
  else if opcode = .addRule then
    changeReply (payload.length = size chaosRuleLayout) (c.rules.length < maxRules) .ruleTableFull
  else if opcode = .removeRule then
    changeReply (payload.length = 4) ((readU32Be payload 0).toNat < c.rules.length)
      .ruleIndexOutOfRange
  else if opcode = .clearRules then acknowledgement
  else if opcode = .listRules then ⟨.rulesResponse, c.rules.flatMap ChaosRule.toMemory⟩
  else refusal .unknownOpcode

/-- The message with a reply. -/
def ReplyBody.bytes (body : ReplyBody) (sequence : UInt32) : List Byte :=
  (({ opcode := body.opcode, sequence } : MessageHeader).sealed body.payload).message body.payload

/-- The handler sends the reply, and a reply is no longer than a full table. -/
structure Sends (handled : Handled maxRules) (body : ReplyBody) (sequence : UInt32) : Prop where
  sent_eq : handled.sent = body.bytes sequence
  length_le : body.payload.length ≤ 40 * 128

section

variable {c} {response : List Byte} (hroom : Roomy response) (sequence : UInt32)
include hroom

lemma encodePayload_sends (opcode : Opcode) {payload : List Byte}
    (hsize : payload.length ≤ 40 * 128) :
    Sends (c.encodePayload opcode sequence payload response) ⟨opcode, payload⟩ sequence := by
  have hok := (decodeMessage_sent (c := c) opcode sequence hsize hroom).1
  exact ⟨(encodePayload_ok hok).2, hsize⟩

lemma encodeEmpty_sends :
    Sends (c.encodeEmpty .pong sequence response) acknowledgement sequence :=
  encodePayload_sends hroom sequence .pong (Nat.zero_le _)

lemma encodeError_sends (status : ProtocolStatus) :
    Sends (c.encodeError status sequence response) (refusal status) sequence := by
  have hsize : (messageBytes (protocolStatusName status)).length ≤ 40 * 128 :=
    (messageBytes_length_le status).trans (by decide)
  obtain ⟨hsent, hlength⟩ := encodePayload_sends (c := c) hroom sequence .error hsize
  exact ⟨hsent, hlength⟩

/-- A handler that checks the size of the payload, tries a change of the table and replies. -/
lemma attempt_sends {sized possible : Prop} [Decidable sized] [Decidable possible]
    {attempt : ProtocolStatus × RuleTable maxRules} {status : ProtocolStatus}
    (hstatus : status ≠ .ok) (hattempt : attempt.1 = if possible then .ok else status) :
    Sends (if ¬ sized then c.encodeError .invalidPayload sequence response
      else if attempt.1 ≠ .ok then
        encodeError { c with ruleTable := attempt.2 } attempt.1 sequence response
      else encodeEmpty { c with ruleTable := attempt.2 } .pong sequence response)
      (changeReply sized possible status) sequence := by
  unfold changeReply
  by_cases hsized : sized
  · rw [if_neg (not_not.mpr hsized), if_neg (not_not.mpr hsized), hattempt]
    by_cases hpossible : possible
    · rw [if_pos hpossible, if_pos hpossible, if_neg (not_not.mpr rfl)]
      exact encodeEmpty_sends hroom sequence
    · rw [if_neg hpossible, if_neg hpossible, if_pos hstatus]
      exact encodeError_sends hroom sequence status
  · rw [if_pos hsized, if_pos hsized]
    exact encodeError_sends hroom sequence _

end

lemma add_status (rule : ChaosRule) :
    (c.ruleTable.add rule).1 = if c.rules.length < maxRules then .ok else .ruleTableFull := by
  rw [length_rules]
  split_ifs with hroom
  · exact (c.ruleTable.add_of_lt hroom rule).1
  · rw [c.ruleTable.add_of_ge (Nat.le_of_not_lt hroom)]

lemma removeAt_status (index : ℕ) :
    (c.ruleTable.removeAt index).1 =
      if index < c.rules.length then .ok else .ruleIndexOutOfRange := by
  rw [length_rules]
  split_ifs with hrange
  · exact (c.ruleTable.removeAt_of_lt hrange).1
  · rw [RuleTable.removeAt, if_pos (Nat.le_of_not_lt hrange)]

/-- `handle` sends what `respond` says, one case per opcode. -/
lemma handle_sends (c : ControlCore kDefaultMaxRules) {response : List Byte}
    (hroom : Roomy response) (request : List Byte) :
    Sends (c.handle request response) (c.respond request) (replySequence request) := by
  unfold handle respond replySequence
  by_cases hdecoded : (decodeMessage request).status = .ok
  · rw [if_neg (not_not.mpr hdecoded), if_pos hdecoded]
    dsimp only
    rw [if_neg (not_not.mpr hdecoded)]
    split_ifs with hping hstats hadd hremove hclear hlist
    · exact encodeEmpty_sends hroom _
    · exact encodePayload_sends hroom _ _ ((StatUpdate.length_toMemory _).trans_le (by decide))
    · exact attempt_sends hroom _ (by decide) (c.add_status _)
    · exact attempt_sends hroom _ (by decide) (c.removeAt_status _)
    · exact encodeEmpty_sends hroom _
    · exact encodePayload_sends hroom _ _ c.length_listed_le
    · exact encodeError_sends hroom _ _
  · rw [if_pos hdecoded, if_neg hdecoded]
    dsimp only
    rw [if_pos hdecoded]
    exact encodeError_sends hroom _ _

end ControlCore

/-! ### Requests of clients one after another -/

namespace ControlPlaneCore

/-- A message, and the response array that `handle_client` makes for it. -/
def clientExchange (message : List Byte) : Exchange :=
  ⟨message, List.replicate kControlResponseBufferBytes 0⟩

/-- The core after messages that `handle_client` dispatches one after another. -/
def afterMessages (c : ControlPlaneCore) (messages : List (List Byte)) : ControlPlaneCore :=
  c.handleRequests (messages.map clientExchange)

/-- What `handle_client` gives to `send_all` for a message. -/
def answer (c : ControlPlaneCore) (message : List Byte) : List Byte :=
  let (result, response, _) :=
    c.handleRequest message (List.replicate kControlResponseBufferBytes 0)
  response.take result.bytesWritten

/-- The replies to messages that are dispatched one after another. -/
def answers (c : ControlPlaneCore) : List (List Byte) → List (List Byte)
  | []                  => []
  | message :: messages => c.answer message :: (c.afterMessages [message]).answers messages

variable (c : ControlPlaneCore)

lemma afterMessages_append (messages messages' : List (List Byte)) :
    c.afterMessages (messages ++ messages') =
      (c.afterMessages messages).afterMessages messages' := by
  rw [afterMessages, List.map_append]
  exact List.foldl_append

lemma answers_append (messages messages' : List (List Byte)) :
    c.answers (messages ++ messages') =
      c.answers messages ++ (c.afterMessages messages).answers messages' := by
  induction messages generalizing c with
  | nil => rfl
  | cons message messages ih =>
    rw [List.cons_append, answers, answers, ih, ← afterMessages_append]
    rfl

@[simp] lemma length_answers (messages : List (List Byte)) :
    (c.answers messages).length = messages.length := by
  induction messages generalizing c with
  | nil => rfl
  | cons message messages ih => rw [answers, List.length_cons, List.length_cons, ih]

/-- The reply to a message is that of the core after the messages before it. -/
lemma getElem?_answers {messages : List (List Byte)} {k : ℕ} {message : List Byte}
    (h : messages[k]? = some message) :
    (c.answers messages)[k]? = some ((c.afterMessages (messages.take k)).answer message) := by
  induction messages generalizing c k with
  | nil => cases h
  | cons first messages ih =>
    cases k with
    | zero =>
      obtain rfl := Option.some.inj h
      rfl
    | succ k =>
      rw [answers, List.getElem?_cons_succ, ih _ h, ← afterMessages_append]
      rfl

/-- The response array is long enough for every reply. -/
lemma answer_sends (message : List Byte) :
    ControlCore.Sends (c.control.handle message (List.replicate kControlResponseBufferBytes 0))
      (c.control.respond message) (ControlCore.replySequence message) := by
  refine c.control.handle_sends ?_ message
  rw [ControlCore.Roomy, List.length_replicate]
  decide

/-- The answer is the reply that `respond` says. -/
lemma answer_eq (message : List Byte) :
    c.answer message = (c.control.respond message).bytes (ControlCore.replySequence message) :=
  (c.answer_sends message).sent_eq

lemma decodeMessage_answer (message : List Byte) :
    decodeMessage (c.answer message) =
      { status := .ok
        message :=
          { header := ({ opcode := (c.control.respond message).opcode
                         sequence := ControlCore.replySequence message } :
              MessageHeader).sealed (c.control.respond message).payload
            payload := (c.control.respond message).payload } } := by
  rw [answer_eq]
  exact decodeMessage_sealed_self _ ((c.answer_sends message).length_le.trans (by decide))

lemma length_answer_pos (message : List Byte) : 0 < (c.answer message).length := by
  rw [answer_eq, ControlCore.ReplyBody.bytes, MessageHeader.length_message]
  exact Nat.add_pos_left (by decide) _

/-- Every message is answered. -/
lemma bytesWritten_pos (message : List Byte) :
    0 < (c.handleRequest message
      (List.replicate kControlResponseBufferBytes 0)).1.bytesWritten := by
  have hpos := c.length_answer_pos message
  rw [answer] at hpos
  dsimp only at hpos
  rw [List.length_take] at hpos
  exact hpos.trans_le (Nat.min_le_left _ _)

/-- The rules after messages are those of the rule list. -/
lemma afterMessages_rules (messages : List (List Byte)) :
    (c.afterMessages messages).rules =
      messages.foldl (ruleListStep kDefaultMaxRules) c.rules := by
  rw [afterMessages, handleRequests_rules, List.foldl_map]
  rfl

lemma afterMessages_currentRules (messages : List (List Byte)) :
    (fresh.afterMessages messages).currentRules = (fresh.afterMessages messages).rules := by
  refine (reachable_handleRequests ?_).coherent
  intro exchange hexchange
  obtain ⟨message, -, rfl⟩ := List.mem_map.mp hexchange
  rw [clientExchange, List.length_replicate]
  decide

end ControlPlaneCore

end ChronosX
