import ChronosX.ControlPlane.RuleList
import Mathlib.Data.List.InsertIdx

/-!
# Replies of the control core

A response buffer with room for a full table is large enough for every reply. The reply then decodes
with the opcode that `handle` returns and the sequence number of the request, and a list of rules is
the payloads of the requests that added them, byte for byte, through every change in between.
-/

namespace ChronosX

open ByteLayout

namespace ControlCore

variable {maxRules : ℕ} {c : ControlCore maxRules} {request response : List Byte}

/-! ### Well-formed replies -/

/-- The reply decodes with the opcode that is returned and the given sequence number, and it is an
error exactly when the status says so. -/
structure WellFormed (handled : Handled maxRules) (sequence : UInt32) : Prop where
  decodes : (decodeMessage handled.sent).status = .ok
  opcode_eq : (decodeMessage handled.sent).message.header.opcode = handled.result.opcode
  sequence_eq : (decodeMessage handled.sent).message.header.sequence = sequence
  error_iff : handled.result.opcode = .error ↔ handled.result.status ≠ .ok

lemma messageBytes_length_le (status : ProtocolStatus) :
    (messageBytes (protocolStatusName status)).length ≤ 40 := by
  cases status <;> decide

/-- The room for a full table. -/
abbrev Roomy (response : List Byte) : Prop := 24 + 40 * 128 ≤ response.length

/-- A payload no longer than a full table is sent whole. -/
lemma decodeMessage_sent (opcode : Opcode) (sequence : UInt32) {payload : List Byte}
    (hsize : payload.length ≤ 40 * 128) (hroom : Roomy response) :
    (c.encodePayload opcode sequence payload response).result.status = .ok ∧
      decodeMessage (c.encodePayload opcode sequence payload response).sent =
        { status := .ok
          message := { header := ({ opcode, sequence } : MessageHeader).sealed payload
                       payload } } := by
  have hmax : payload.length ≤ kMaxControlPayloadBytes := by
    rw [kMaxControlPayloadBytes]
    omega
  have hok : (c.encodePayload opcode sequence payload response).result.status = .ok := by
    rw [encodePayload_status c opcode sequence hmax, kProtocolHeaderBytes]
    omega
  rw [(encodePayload_ok hok).2]
  exact ⟨hok, decodeMessage_sealed_self { opcode, sequence } hmax⟩

section

variable (hroom : Roomy response) (sequence : UInt32)
include hroom

lemma encodePayload_wellFormed {opcode : Opcode} (hopcode : opcode ≠ .error)
    {payload : List Byte} (hsize : payload.length ≤ 40 * 128) :
    WellFormed (c.encodePayload opcode sequence payload response) sequence := by
  obtain ⟨hok, hdecoded⟩ := decodeMessage_sent (c := c) opcode sequence hsize hroom
  constructor
  · rw [hdecoded]
  · rw [hdecoded]
    rfl
  · rw [hdecoded]
    rfl
  · exact iff_of_false hopcode (not_not.mpr hok)

lemma encodeEmpty_wellFormed {opcode : Opcode} (hopcode : opcode ≠ .error) :
    WellFormed (c.encodeEmpty opcode sequence response) sequence :=
  encodePayload_wellFormed hroom sequence hopcode (Nat.zero_le _)

lemma encodeError_wellFormed {status : ProtocolStatus} (hstatus : status ≠ .ok) :
    WellFormed (c.encodeError status sequence response) sequence := by
  have hsize : (messageBytes (protocolStatusName status)).length ≤ 40 * 128 :=
    (messageBytes_length_le status).trans (by decide)
  obtain ⟨-, hdecoded⟩ := decodeMessage_sent (c := c) .error sequence hsize hroom
  -- an error is encoded as any other payload, but keeps its own status
  have hsent : (c.encodeError status sequence response).sent =
      (c.encodePayload .error sequence (messageBytes (protocolStatusName status)) response).sent :=
    rfl
  constructor
  · rw [hsent, hdecoded]
  · rw [hsent, hdecoded]
    rfl
  · rw [hsent, hdecoded]
    rfl
  · exact iff_of_true rfl hstatus

end

/-- A handler that checks the size of the payload, tries a change of the table and replies. -/
lemma attempt_wellFormed (hroom : Roomy response) {sized : Prop} [Decidable sized]
    (attempt : ProtocolStatus × RuleTable maxRules) (sequence : UInt32) :
    WellFormed (if ¬ sized then c.encodeError .invalidPayload sequence response
      else if attempt.1 ≠ .ok then
        encodeError { c with ruleTable := attempt.2 } attempt.1 sequence response
      else encodeEmpty { c with ruleTable := attempt.2 } .pong sequence response) sequence := by
  by_cases hsized : sized
  · rw [if_neg (not_not.mpr hsized)]
    by_cases hstatus : attempt.1 = .ok
    · rw [if_neg (not_not.mpr hstatus)]
      exact encodeEmpty_wellFormed hroom sequence (by decide)
    · rw [if_pos hstatus]
      exact encodeError_wellFormed hroom sequence hstatus
  · rw [if_pos hsized]
    exact encodeError_wellFormed hroom sequence (by decide)

lemma length_listed_le (c : ControlCore kDefaultMaxRules) :
    (c.rules.flatMap ChaosRule.toMemory).length ≤ 40 * 128 := by
  have hcount : c.ruleTable.count ≤ 128 := c.ruleTable.count_le
  rw [ChaosRule.length_flatMap_toMemory, length_rules, Nat.mul_comm]
  exact Nat.mul_le_mul_left 40 hcount

/-- The sequence number of a reply. -/
def replySequence (request : List Byte) : UInt32 :=
  if (decodeMessage request).status = .ok then (decodeMessage request).message.header.sequence
  else 0

/-- Every reply is well formed, one case per opcode. -/
lemma handle_wellFormed (c : ControlCore kDefaultMaxRules) (hroom : Roomy response)
    (request : List Byte) :
    WellFormed (c.handle request response) (replySequence request) := by
  unfold handle replySequence
  by_cases hdecoded : (decodeMessage request).status = .ok
  · rw [if_neg (not_not.mpr hdecoded), if_pos hdecoded]
    dsimp only
    split_ifs with hping hstats hadd hremove hclear hlist
    · exact encodeEmpty_wellFormed hroom _ (by decide)
    · exact encodePayload_wellFormed hroom _ (by decide)
        ((StatUpdate.length_toMemory _).trans_le (by decide))
    · exact attempt_wellFormed hroom _ _
    · exact attempt_wellFormed hroom _ _
    · exact encodeEmpty_wellFormed hroom _ (by decide)
    · exact encodePayload_wellFormed hroom _ (by decide) c.length_listed_le
    · exact encodeError_wellFormed hroom _ (by decide)
  · rw [if_pos hdecoded, if_neg hdecoded]
    exact encodeError_wellFormed hroom _ hdecoded

/-! ### The payloads of the rules -/

/-- A call of the core. -/
inductive Call where
  | handle (request response : List Byte)
  | publishStats (update : StatUpdate)

def call (c : ControlCore maxRules) : Call → ControlCore maxRules
  | .handle request response => (c.handle request response).core
  | .publishStats update     => c.publishStats update

/-- The core after a sequence of calls. -/
def after (calls : List Call) : ControlCore maxRules := calls.foldl call fresh

/-- What a request does to the list of payloads that rules were added with: a rule payload is
appended while there is room, the one at an index is deleted, or all are. -/
def payloadListStep (maxRules : ℕ) (payloads : List (List Byte)) (request : List Byte) :
    List (List Byte) :=
  let decoded := decodeMessage request
  let payload := decoded.message.payload
  if decoded.status ≠ .ok then payloads
  else if decoded.message.header.opcode = .addRule then
    if payload.length = 40 ∧ payloads.length < maxRules then payloads ++ [payload] else payloads
  else if decoded.message.header.opcode = .removeRule then
    if payload.length = 4 then payloads.eraseIdx (readU32Be payload 0).toNat else payloads
  else if decoded.message.header.opcode = .clearRules then []
  else payloads

/-- The payloads of the rules that are left after a sequence of calls. -/
def survivingPayloads (maxRules : ℕ) (calls : List Call) : List (List Byte) :=
  calls.foldl (fun payloads call =>
    match call with
    | .handle request _ => payloadListStep maxRules payloads request
    | .publishStats _   => payloads) []

section

variable (rules : List ChaosRule)

lemma map_toMemory_append {payload : List Byte} (h : payload.length = 40) :
    (RuleChange.applyIfPossible maxRules rules
        (some (.append (ChaosRule.ofMemory payload)))).map ChaosRule.toMemory =
      if payload.length = 40 ∧ (rules.map ChaosRule.toMemory).length < maxRules then
        rules.map ChaosRule.toMemory ++ [payload]
      else rules.map ChaosRule.toMemory := by
  rw [List.length_map, RuleChange.applyIfPossible]
  by_cases hroom : (RuleChange.append (ChaosRule.ofMemory payload)).Possible maxRules rules
  · rw [if_pos hroom, if_pos ⟨h, hroom⟩, RuleChange.apply, List.map_append, List.map_singleton,
      ChaosRule.toMemory_ofMemory h]
  · rw [if_neg hroom, if_neg fun hboth => hroom hboth.2]

lemma map_toMemory_erase (index : ℕ) :
    (RuleChange.applyIfPossible maxRules rules (some (.erase index))).map ChaosRule.toMemory =
      (rules.map ChaosRule.toMemory).eraseIdx index := by
  rw [RuleChange.applyIfPossible, List.eraseIdx_map]
  by_cases hrange : (RuleChange.erase index).Possible maxRules rules
  · rw [if_pos hrange, RuleChange.apply]
  · rw [if_neg hrange, List.eraseIdx_of_length_le (Nat.le_of_not_lt hrange)]

/-- The list of rules, as bytes, follows the list of payloads. -/
lemma map_toMemory_ruleListStep (request : List Byte) :
    (ruleListStep maxRules rules request).map ChaosRule.toMemory =
      payloadListStep maxRules (rules.map ChaosRule.toMemory) request := by
  unfold ruleListStep RuleChange.requested payloadListStep
  dsimp only
  by_cases hdecoded : (decodeMessage request).status = .ok
  case neg =>
    rw [if_pos hdecoded, if_pos hdecoded]
    rfl
  rw [if_neg (not_not.mpr hdecoded), if_neg (not_not.mpr hdecoded)]
  by_cases hadd : (decodeMessage request).message.header.opcode = .addRule
  case pos =>
    rw [if_pos hadd, if_pos hadd]
    by_cases hsize : (decodeMessage request).message.payload.length = size chaosRuleLayout
    · rw [if_pos hsize, map_toMemory_append rules hsize]
    · rw [if_neg hsize, if_neg fun hboth => hsize hboth.1]
      rfl
  rw [if_neg hadd, if_neg hadd]
  by_cases hremove : (decodeMessage request).message.header.opcode = .removeRule
  case pos =>
    rw [if_pos hremove, if_pos hremove]
    by_cases hsize : (decodeMessage request).message.payload.length = 4
    · rw [if_pos hsize, if_pos hsize, map_toMemory_erase]
    · rw [if_neg hsize, if_neg hsize]
      rfl
  rw [if_neg hremove, if_neg hremove]
  by_cases hclear : (decodeMessage request).message.header.opcode = .clearRules
  · rw [if_pos hclear, if_pos hclear]
    rfl
  · rw [if_neg hclear, if_neg hclear]
    rfl

end

/-- After any calls the table holds the surviving payloads. -/
lemma map_toMemory_rules_after (maxRules : ℕ) (calls : List Call) :
    (after calls : ControlCore maxRules).rules.map ChaosRule.toMemory =
      survivingPayloads maxRules calls := by
  refine (List.foldl_hom (fun c : ControlCore maxRules => c.rules.map ChaosRule.toMemory) ?_).symm
  intro c call
  cases call with
  | handle request response =>
    exact (map_toMemory_ruleListStep c.rules request).symm.trans
      (congrArg _ (c.handle_rules request response).symm)
  | publishStats update => rfl

/-- A core of 128 rules after any calls, and a response buffer with room for a full table: the reply
to any request decodes, with the opcode that is returned and the sequence number of the request if
that decodes; the opcode is `Error` exactly when the returned status is not `Ok`; and a list of
rules is the payloads of the surviving rules, one after the other. -/
theorem handle_reply_faithful (calls : List Call) (request response : List Byte)
    (hroom : 24 + 40 * 128 ≤ response.length) :
    let c : ControlCore kDefaultMaxRules := after calls
    let handled := c.handle request response
    let reply := decodeMessage (handled.response.take handled.result.bytesWritten)
    let decoded := decodeMessage request
    (reply.status = .ok ∧ reply.message.header.opcode = handled.result.opcode) ∧
    (reply.message.header.sequence =
      if decoded.status = .ok then decoded.message.header.sequence else 0) ∧
    (handled.result.opcode = .error ↔ handled.result.status ≠ .ok) ∧
    (decoded.status = .ok → decoded.message.header.opcode = .listRules →
      reply.message.payload = (survivingPayloads kDefaultMaxRules calls).flatten) := by
  intro c handled reply decoded
  have hformed := c.handle_wellFormed hroom request
  refine ⟨⟨hformed.decodes, hformed.opcode_eq⟩, hformed.sequence_eq, hformed.error_iff, ?_⟩
  intro hdecoded hlist
  change (decodeMessage handled.sent).message.payload = _
  have hlisted : handled = c.encodePayload .rulesResponse decoded.message.header.sequence
      (c.rules.flatMap ChaosRule.toMemory) response := handle_listRules hdecoded hlist
  rw [hlisted, (decodeMessage_sent _ _ c.length_listed_le hroom).2, List.flatMap_def,
    map_toMemory_rules_after]

/-- A request for the rules. -/
def listRequest : List Byte :=
  (({ opcode := .listRules, sequence := 7 } : MessageHeader).sealed []).message []

lemma decodeMessage_listRequest :
    decodeMessage listRequest =
      { status := .ok
        message := { header := ({ opcode := .listRules, sequence := 7 } : MessageHeader).sealed []
                     payload := [] } } :=
  decodeMessage_sealed_self { opcode := .listRules, sequence := 7 } (Nat.zero_le _)

/-- A rule of zeros that was added without room for the reply is listed. -/
theorem handle_reply_faithful_list :
    let calls := [Call.handle ControlPlaneCore.addZeroRule []]
    let handled := (after calls : ControlCore kDefaultMaxRules).handle listRequest
      (List.replicate 5144 0)
    let reply := decodeMessage (handled.response.take handled.result.bytesWritten)
    reply.status = .ok ∧ reply.message.header.sequence = 7 ∧
      reply.message.payload = List.replicate 40 0 := by
  have hdecoded : (decodeMessage listRequest).status = .ok := by rw [decodeMessage_listRequest]
  have hlist : (decodeMessage listRequest).message.header.opcode = .listRules := by
    rw [decodeMessage_listRequest]
    rfl
  have hsurviving : survivingPayloads kDefaultMaxRules
      [Call.handle ControlPlaneCore.addZeroRule []] = [List.replicate 40 0] := by
    simp only [survivingPayloads, List.foldl_cons, List.foldl_nil, payloadListStep,
      ControlPlaneCore.decodeMessage_addZeroRule]
    rfl
  have hroom : 24 + 40 * 128 ≤ (List.replicate 5144 (0 : Byte)).length := by
    rw [List.length_replicate]
  revert hroom
  generalize List.replicate 5144 (0 : Byte) = response
  intro hroom
  dsimp only
  obtain ⟨⟨hok, -⟩, hsequence, -, hpayload⟩ :=
    handle_reply_faithful [Call.handle ControlPlaneCore.addZeroRule []] listRequest response hroom
  rw [if_pos hdecoded, decodeMessage_listRequest] at hsequence
  have hflatten := hpayload hdecoded hlist
  rw [hsurviving, List.flatten_singleton] at hflatten
  exact ⟨hok, hsequence, hflatten⟩

end ControlCore

end ChronosX
