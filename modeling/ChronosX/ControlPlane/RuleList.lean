import ChronosX.ControlPlane.Core
import ChronosX.Protocol.RoundTrip

/-!
# The control plane as a list of rules

What the control plane is for: a bounded list of rules that requests append to, erase from and
clear. The table of the core follows that list whatever the response buffer is
(`handle_performs`), but a request counts as accepted, and its change is published, only when the
reply fits as well. So a failed request leaves everything as it was exactly when the reply buffer
has room for a header or there was nothing to change (`request_atomic_iff`).
-/

namespace ChronosX

open ByteLayout

/-! ### The rule list -/

/-- A change of the rule list. -/
inductive RuleChange where
  | append (rule : ChaosRule)
  | erase (index : ℕ)
  | clear
deriving DecidableEq, Repr

namespace RuleChange

/-- The change that a request asks for, if it decodes and its payload has the right size. -/
def requested (request : List Byte) : Option RuleChange :=
  let decoded := decodeMessage request
  let payload := decoded.message.payload
  if decoded.status ≠ .ok then none
  else if decoded.message.header.opcode = .addRule then
    if payload.length = size chaosRuleLayout then some (.append (ChaosRule.ofMemory payload))
    else none
  else if decoded.message.header.opcode = .removeRule then
    if payload.length = 4 then some (.erase (readU32Be payload 0).toNat) else none
  else if decoded.message.header.opcode = .clearRules then some .clear
  else none

/-- The change can be made in a list of at most `maxRules` rules. -/
def Possible (maxRules : ℕ) (rules : List ChaosRule) : RuleChange → Prop
  | .append _    => rules.length < maxRules
  | .erase index => index < rules.length
  | .clear       => True

instance (maxRules : ℕ) (rules : List ChaosRule) :
    (change : RuleChange) → Decidable (change.Possible maxRules rules)
  | .append _    => inferInstanceAs (Decidable (_ < _))
  | .erase _     => inferInstanceAs (Decidable (_ < _))
  | .clear       => inferInstanceAs (Decidable True)

def apply (rules : List ChaosRule) : RuleChange → List ChaosRule
  | .append rule => rules ++ [rule]
  | .erase index => rules.eraseIdx index
  | .clear       => []

/-- The list after a change that is made if it can be. -/
def applyIfPossible (maxRules : ℕ) (rules : List ChaosRule) : Option RuleChange → List ChaosRule
  | some change => if change.Possible maxRules rules then change.apply rules else rules
  | none        => rules

/-- A request with another opcode asks for no change. -/
lemma requested_other {request : List Byte}
    (hopcode : (decodeMessage request).message.header.opcode ∉
      [Opcode.addRule, Opcode.removeRule, Opcode.clearRules]) : requested request = none := by
  simp only [List.mem_cons, List.not_mem_nil, or_false, not_or] at hopcode
  obtain ⟨hadd, hremove, hclear⟩ := hopcode
  simp only [requested, hadd, hremove, hclear, if_false, ite_self]

end RuleChange

/-- The list after a request. -/
def ruleListStep (maxRules : ℕ) (rules : List ChaosRule) (request : List Byte) : List ChaosRule :=
  RuleChange.applyIfPossible maxRules rules (RuleChange.requested request)

lemma ruleListStep_eq_self {maxRules : ℕ} {rules : List ChaosRule} {request : List Byte}
    (h : ¬ ∃ change, RuleChange.requested request = some change ∧
      change.Possible maxRules rules) : ruleListStep maxRules rules request = rules := by
  rw [ruleListStep]
  cases hrequested : RuleChange.requested request with
  | none => rfl
  | some change =>
    rw [RuleChange.applyIfPossible, if_neg]
    exact fun hpossible => h ⟨change, hrequested, hpossible⟩

namespace ControlCore

variable {maxRules : ℕ} (c : ControlCore maxRules) {request response : List Byte}

/-! ### Replies -/

lemma encodePayload_status (opcode : Opcode) (sequence : UInt32) {payload : List Byte}
    (hpayload : payload.length ≤ kMaxControlPayloadBytes) :
    (c.encodePayload opcode sequence payload response).result.status = .ok ↔
      kProtocolHeaderBytes + payload.length ≤ response.length := by
  constructor
  · intro h
    exact (encodeMessage_ok h).2.1
  · intro hroom
    simp only [encodePayload]
    rw [encodeMessage_eq _ hpayload hroom]

lemma encodeEmpty_status (opcode : Opcode) (sequence : UInt32) :
    (c.encodeEmpty opcode sequence response).result.status = .ok ↔
      kProtocolHeaderBytes ≤ response.length :=
  c.encodePayload_status opcode sequence (Nat.zero_le _)

@[simp] lemma encodeError_core (status : ProtocolStatus) (sequence : UInt32) :
    (c.encodeError status sequence response).core = c := rfl

@[simp] lemma encodeEmpty_core (opcode : Opcode) (sequence : UInt32) :
    (c.encodeEmpty opcode sequence response).core = c := rfl

@[simp] lemma length_rules : c.rules.length = c.ruleTable.count := c.ruleTable.length_rules

/-- How a request for a change is handled: the table follows the list, and the request is accepted
when the change can be made and the reply fits. -/
structure Performs (change : Option RuleChange) (response : List Byte)
    (handled : Handled maxRules) : Prop where
  rules_eq : handled.core.rules = RuleChange.applyIfPossible maxRules c.rules change
  status_ok_iff : handled.result.status = .ok ↔
    (∃ made, change = some made ∧ made.Possible maxRules c.rules) ∧
      kProtocolHeaderBytes ≤ response.length

variable {c}

/-- Nothing is done for a request without a change. -/
lemma performs_error {status : ProtocolStatus} (hstatus : status ≠ .ok) (sequence : UInt32) :
    c.Performs none response (c.encodeError status sequence response) where
  rules_eq := rfl
  status_ok_iff := by simp [encodeError, hstatus]

/-- A change that cannot be made is refused. -/
lemma performs_refused {change : RuleChange} (h : ¬ change.Possible maxRules c.rules)
    {status : ProtocolStatus} (hstatus : status ≠ .ok) (sequence : UInt32) :
    c.Performs (some change) response (c.encodeError status sequence response) where
  rules_eq := by rw [RuleChange.applyIfPossible, if_neg h, encodeError_core]
  status_ok_iff := by simp [encodeError, hstatus, h]

/-- A change that has been made is acknowledged. -/
lemma performs_made {change : RuleChange} (h : change.Possible maxRules c.rules)
    {c' : ControlCore maxRules} (hrules : c'.rules = change.apply c.rules) (sequence : UInt32) :
    c.Performs (some change) response (c'.encodeEmpty .pong sequence response) where
  rules_eq := by rw [RuleChange.applyIfPossible, if_pos h, encodeEmpty_core, hrules]
  status_ok_iff := by simp [c'.encodeEmpty_status, h]

/-! ### Handlers -/

/-- A handler that checks the size of the payload, tries the change on the table and replies. -/
lemma performs_attempt {sized : Prop} [Decidable sized] {change : RuleChange}
    {attempt : ProtocolStatus × RuleTable maxRules}
    (hmade : change.Possible maxRules c.rules →
      attempt.1 = .ok ∧ attempt.2.rules = change.apply c.rules)
    (hrefused : ¬ change.Possible maxRules c.rules →
      ∃ status, status ≠ .ok ∧ attempt = (status, c.ruleTable))
    (sequence : UInt32) (response : List Byte) :
    c.Performs (if sized then some change else none) response
      (if ¬ sized then c.encodeError .invalidPayload sequence response
      else if attempt.1 ≠ .ok then
        encodeError { c with ruleTable := attempt.2 } attempt.1 sequence response
      else encodeEmpty { c with ruleTable := attempt.2 } .pong sequence response) := by
  by_cases hsized : sized
  · rw [if_pos hsized, if_neg (not_not.mpr hsized)]
    by_cases hpossible : change.Possible maxRules c.rules
    · obtain ⟨hstatus, hrules⟩ := hmade hpossible
      rw [if_neg (not_not.mpr hstatus)]
      refine performs_made hpossible ?_ sequence
      exact hrules
    · obtain ⟨status, hstatus, rfl⟩ := hrefused hpossible
      rw [if_pos hstatus]
      exact performs_refused hpossible hstatus sequence
  · rw [if_neg hsized, if_pos hsized]
    exact performs_error (by decide) sequence

lemma handleAddRule_performs (message : DecodedMessage) (response : List Byte) :
    c.Performs (if message.payload.length = size chaosRuleLayout then
        some (.append (ChaosRule.ofMemory message.payload)) else none) response
      (c.handleAddRule message response) := by
  refine performs_attempt ?_ ?_ message.header.sequence response
  · intro hpossible
    rw [RuleChange.Possible, length_rules] at hpossible
    exact c.ruleTable.add_of_lt hpossible _
  · intro hfull
    rw [RuleChange.Possible, length_rules] at hfull
    exact ⟨_, by decide, c.ruleTable.add_of_ge (Nat.le_of_not_lt hfull) _⟩

lemma handleRemoveRule_performs (message : DecodedMessage) (response : List Byte) :
    c.Performs (if message.payload.length = 4 then
        some (.erase (readU32Be message.payload 0).toNat) else none) response
      (c.handleRemoveRule message response) := by
  refine performs_attempt ?_ ?_ message.header.sequence response
  · intro hpossible
    rw [RuleChange.Possible, length_rules] at hpossible
    exact c.ruleTable.removeAt_of_lt hpossible
  · intro hrange
    rw [RuleChange.Possible, length_rules] at hrange
    exact ⟨_, by decide, if_pos (Nat.le_of_not_lt hrange)⟩

/-- A request with the opcode of a change is handled as the change it asks for. -/
lemma handle_performs
    (hopcode : (decodeMessage request).status = .ok →
      (decodeMessage request).message.header.opcode ∈
        [Opcode.addRule, Opcode.removeRule, Opcode.clearRules]) (response : List Byte) :
    c.Performs (RuleChange.requested request) response (c.handle request response) := by
  unfold handle RuleChange.requested
  by_cases hdecoded : (decodeMessage request).status = .ok
  · have hcases := hopcode hdecoded
    simp only [List.mem_cons, List.not_mem_nil, or_false] at hcases
    rw [if_neg (not_not.mpr hdecoded), if_neg (not_not.mpr hdecoded)]
    dsimp only
    rcases hcases with hadd | hremove | hclear
    · simp only [hadd]
      exact handleAddRule_performs _ response
    · simp only [hremove]
      exact handleRemoveRule_performs _ response
    · simp only [hclear]
      refine performs_made ?_ ?_ _
      · exact trivial
      · exact c.ruleTable.rules_clear
  · rw [if_pos hdecoded, if_pos hdecoded]
    exact performs_error hdecoded _

/-- Any other request makes no change. -/
lemma handle_other (hdecoded : (decodeMessage request).status = .ok)
    (hopcode : (decodeMessage request).message.header.opcode ∉
      [Opcode.addRule, Opcode.removeRule, Opcode.clearRules]) (response : List Byte) :
    (c.handle request response).core = c := by
  simp only [List.mem_cons, List.not_mem_nil, or_false, not_or] at hopcode
  obtain ⟨hadd, hremove, hclear⟩ := hopcode
  rw [handle, if_neg (not_not.mpr hdecoded)]
  simp only [hadd, hremove, hclear, if_false]
  split_ifs <;> rfl

/-- The table follows the rule list, whatever the request and the response buffer. -/
lemma handle_rules (c : ControlCore maxRules) (request response : List Byte) :
    (c.handle request response).core.rules = ruleListStep maxRules c.rules request := by
  by_cases hopcode : (decodeMessage request).status = .ok →
      (decodeMessage request).message.header.opcode ∈
        [Opcode.addRule, Opcode.removeRule, Opcode.clearRules]
  · exact (handle_performs hopcode response).rules_eq
  · rw [Classical.not_imp] at hopcode
    rw [handle_other hopcode.1 hopcode.2 response, ruleListStep,
      RuleChange.requested_other hopcode.2]
    rfl

end ControlCore

/-! ### Requests to the control plane -/

namespace ControlPlaneCore

variable (c : ControlPlaneCore) {request : List Byte}

lemma peekRequestOpcode_eq (h : (decodeMessage request).status = .ok) :
    peekRequestOpcode request = (decodeMessage request).message.header.opcode := by
  obtain ⟨header, payload, rest, -, -, rfl, hmessage⟩ := decodeMessage_ok h
  have hread : readHeader (header.message payload ++ rest) = header := by
    rw [MessageHeader.message, List.append_assoc]
    exact readHeader_message header (payload ++ rest)
  have hlong : ¬ (header.message payload ++ rest).length < 4 := by
    rw [List.length_append, header.length_message, kProtocolHeaderBytes]
    omega
  rw [hmessage, peekRequestOpcode, if_neg hlong]
  exact congrArg MessageHeader.opcode hread

lemma isRuleMutatingRequest_iff (opcode : Opcode) :
    isRuleMutatingRequest opcode = true ↔
      opcode ∈ [Opcode.addRule, Opcode.removeRule, Opcode.clearRules] := by
  simp [isRuleMutatingRequest, or_assoc]

/-- The rules of the core follow the rule list. -/
lemma afterRequest_rules (request response : List Byte) :
    (c.afterRequest request response).rules =
      ruleListStep kDefaultMaxRules c.rules request := by
  rw [afterRequest, handleRequest]
  dsimp only
  split_ifs <;> exact c.control.handle_rules request response

/-- A request that looks like a change is accepted when the change can be made and the reply
fits. -/
lemma requestStatus_ok_iff (h : isRuleMutatingRequest (peekRequestOpcode request) = true)
    (response : List Byte) :
    c.requestStatus request response = .ok ↔
      (∃ change, RuleChange.requested request = some change ∧
        change.Possible kDefaultMaxRules c.rules) ∧ kProtocolHeaderBytes ≤ response.length := by
  refine (ControlCore.handle_performs ?_ response).status_ok_iff
  intro hdecoded
  rw [← peekRequestOpcode_eq hdecoded]
  exact (isRuleMutatingRequest_iff _).mp h

/-- A request that does not look like a change asks for none. -/
lemma requested_eq_none (h : isRuleMutatingRequest (peekRequestOpcode request) = false) :
    RuleChange.requested request = none := by
  by_cases hdecoded : (decodeMessage request).status = .ok
  · apply RuleChange.requested_other
    rw [← peekRequestOpcode_eq hdecoded, ← isRuleMutatingRequest_iff, h]
    decide
  · exact if_pos hdecoded

/-- A change is published when it can be made and the reply fits. -/
lemma publishes_iff (request response : List Byte) :
    publishes request (c.handleRequest request response).1 = true ↔
      (∃ change, RuleChange.requested request = some change ∧
        change.Possible kDefaultMaxRules c.rules) ∧ kProtocolHeaderBytes ≤ response.length := by
  rw [publishes, Bool.and_eq_true, decide_eq_true_eq]
  cases hmutating : isRuleMutatingRequest (peekRequestOpcode request) with
  | true =>
    rw [and_iff_left rfl]
    exact c.requestStatus_ok_iff hmutating response
  | false => simp [requested_eq_none hmutating]

/-- The snapshot after a request. -/
lemma afterRequest_currentRules (request response : List Byte) :
    (c.afterRequest request response).currentRules =
      if publishes request (c.handleRequest request response).1 then
        (c.afterRequest request response).rules
      else c.currentRules := by
  unfold afterRequest handleRequest
  dsimp only
  split_ifs <;> rfl

/-! ### Accepted requests -/

/-- What a request does to the rules: when it is accepted, and the list afterwards. -/
structure Settled (request response : List Byte) : Prop where
  add : peekRequestOpcode request = .addRule →
    (c.requestStatus request response = .ok ↔ (decodeMessage request).status = .ok ∧
      (decodeMessage request).message.payload.length = 40 ∧ c.rules.length < 128)
  remove : peekRequestOpcode request = .removeRule →
    (c.requestStatus request response = .ok ↔ (decodeMessage request).status = .ok ∧
      (decodeMessage request).message.payload.length = 4 ∧
      (readU32Be (decodeMessage request).message.payload 0).toNat < c.rules.length)
  clear : peekRequestOpcode request = .clearRules →
    (c.requestStatus request response = .ok ↔ (decodeMessage request).status = .ok)
  added : peekRequestOpcode request = .addRule → c.requestStatus request response = .ok →
    (c.afterRequest request response).rules =
      c.rules ++ [ChaosRule.ofMemory (decodeMessage request).message.payload]
  removed : peekRequestOpcode request = .removeRule → c.requestStatus request response = .ok →
    (c.afterRequest request response).rules =
      c.rules.eraseIdx (readU32Be (decodeMessage request).message.payload 0).toNat
  cleared : peekRequestOpcode request = .clearRules → c.requestStatus request response = .ok →
    (c.afterRequest request response).rules = []
  kept : c.requestStatus request response ≠ .ok ∨
      isRuleMutatingRequest (peekRequestOpcode request) = false →
    (c.afterRequest request response).rules = c.rules

section Requested

variable (hdecoded : (decodeMessage request).status = .ok)
include hdecoded

lemma requested_of_addRule (hopcode : peekRequestOpcode request = .addRule) :
    RuleChange.requested request =
      if (decodeMessage request).message.payload.length = 40 then
        some (.append (ChaosRule.ofMemory (decodeMessage request).message.payload)) else none := by
  rw [peekRequestOpcode_eq hdecoded] at hopcode
  simp only [RuleChange.requested, hdecoded, hopcode]
  rfl

lemma requested_of_removeRule (hopcode : peekRequestOpcode request = .removeRule) :
    RuleChange.requested request =
      if (decodeMessage request).message.payload.length = 4 then
        some (.erase (readU32Be (decodeMessage request).message.payload 0).toNat) else none := by
  rw [peekRequestOpcode_eq hdecoded] at hopcode
  simp only [RuleChange.requested, hdecoded, hopcode]
  rfl

lemma requested_of_clearRules (hopcode : peekRequestOpcode request = .clearRules) :
    RuleChange.requested request = if True then some .clear else none := by
  rw [peekRequestOpcode_eq hdecoded] at hopcode
  simp only [RuleChange.requested, hdecoded, hopcode]
  rfl

end Requested

/-- When the change `change` is asked for, given the size of the payload. -/
lemma requested_eq_some_iff {sized : Prop} [Decidable sized] {change : RuleChange}
    (h : (decodeMessage request).status = .ok →
      RuleChange.requested request = if sized then some change else none) (made : RuleChange) :
    RuleChange.requested request = some made ↔
      ((decodeMessage request).status = .ok ∧ sized) ∧ made = change := by
  by_cases hdecoded : (decodeMessage request).status = .ok
  · rw [h hdecoded]
    by_cases hsized : sized
    · simp [hdecoded, hsized, eq_comm]
    · simp [hsized]
  · have hnone : RuleChange.requested request = none := if_pos hdecoded
    simp [hnone, hdecoded]

/-- A request whose opcode asks for one change is accepted when it decodes with a payload of the
right size and the change can be made, and then the change is made. -/
lemma accepted_iff {sized : Prop} [Decidable sized] {change : RuleChange} {response : List Byte}
    (hmutating : isRuleMutatingRequest (peekRequestOpcode request) = true)
    (h : (decodeMessage request).status = .ok →
      RuleChange.requested request = if sized then some change else none)
    (hroom : kProtocolHeaderBytes ≤ response.length) :
    (c.requestStatus request response = .ok ↔ (decodeMessage request).status = .ok ∧
      sized ∧ change.Possible kDefaultMaxRules c.rules) ∧
    (c.requestStatus request response = .ok →
      (c.afterRequest request response).rules = change.apply c.rules) := by
  have hiff : c.requestStatus request response = .ok ↔ (decodeMessage request).status = .ok ∧
      sized ∧ change.Possible kDefaultMaxRules c.rules := by
    rw [c.requestStatus_ok_iff hmutating response, and_iff_left hroom]
    simp only [requested_eq_some_iff h, and_assoc, exists_eq_left, exists_and_left]
  refine ⟨hiff, ?_⟩
  intro hok
  obtain ⟨hdecoded, hsized, hpossible⟩ := hiff.mp hok
  rw [afterRequest_rules, ruleListStep, h hdecoded, if_pos hsized, RuleChange.applyIfPossible,
    if_pos hpossible]

/-- Every request whose reply buffer has room for a header is settled. -/
lemma settled {response : List Byte} (hroom : kProtocolHeaderBytes ≤ response.length)
    (request : List Byte) : c.Settled request response := by
  have hadd : peekRequestOpcode request = .addRule → _ := fun hopcode =>
    c.accepted_iff (by rw [hopcode]; rfl) (fun h => requested_of_addRule h hopcode) hroom
  have hremove : peekRequestOpcode request = .removeRule → _ := fun hopcode =>
    c.accepted_iff (by rw [hopcode]; rfl) (fun h => requested_of_removeRule h hopcode) hroom
  have hclear : peekRequestOpcode request = .clearRules → _ := fun hopcode =>
    c.accepted_iff (by rw [hopcode]; rfl) (fun h => requested_of_clearRules h hopcode) hroom
  refine ⟨fun h => (hadd h).1, fun h => (hremove h).1, fun h => ?_, fun h => (hadd h).2,
    fun h => (hremove h).2, fun h => (hclear h).2, ?_⟩
  · simpa [RuleChange.Possible] using (hclear h).1
  · intro hkept
    rw [afterRequest_rules]
    apply ruleListStep_eq_self
    intro hpossible
    cases hmutating : isRuleMutatingRequest (peekRequestOpcode request) with
    | false =>
      obtain ⟨change, hrequested, -⟩ := hpossible
      rw [requested_eq_none hmutating] at hrequested
      cases hrequested
    | true =>
      rcases hkept with hfailed | hother
      · exact hfailed ((c.requestStatus_ok_iff hmutating response).mpr ⟨hpossible, hroom⟩)
      · rw [hmutating] at hother
        cases hother

/-! ### Failed requests -/

/-- The request changes a list of these rules. -/
def ChangesRules (rules : List ChaosRule) (request : List Byte) : Prop :=
  ∃ change, RuleChange.requested request = some change ∧
    change.Possible kDefaultMaxRules rules ∧ (change = .clear → rules ≠ [])

/-- A failed request leaves the rules and the snapshot as they were, and after any request the
snapshot holds the rules. -/
def Atomic (request response : List Byte) : Prop :=
  (c.requestStatus request response ≠ .ok →
    (c.afterRequest request response).rules = c.rules ∧
      (c.afterRequest request response).currentRules = c.currentRules) ∧
  (c.afterRequest request response).currentRules = (c.afterRequest request response).rules

/-- The reply to a change fits its buffer. -/
def ReplyFits (request response : List Byte) : Prop :=
  kProtocolHeaderBytes ≤ response.length ∨ ¬ ChangesRules c.rules request

lemma apply_ne {rules : List ChaosRule} {change : RuleChange}
    (hpossible : change.Possible kDefaultMaxRules rules) (hclear : change = .clear → rules ≠ []) :
    change.apply rules ≠ rules := by
  intro heq
  have hlength := congrArg List.length heq
  cases change with
  | append rule => simp [RuleChange.apply] at hlength
  | erase index =>
    rw [RuleChange.apply, List.length_eraseIdx_of_lt hpossible] at hlength
    have hpos : 0 < rules.length := Nat.zero_lt_of_lt hpossible
    omega
  | clear => exact hclear rfl heq.symm

lemma ruleListStep_eq_iff (rules : List ChaosRule) (request : List Byte) :
    ruleListStep kDefaultMaxRules rules request = rules ↔ ¬ ChangesRules rules request := by
  constructor
  · rintro heq ⟨change, hrequested, hpossible, hclear⟩
    rw [ruleListStep, hrequested, RuleChange.applyIfPossible, if_pos hpossible] at heq
    exact apply_ne hpossible hclear heq
  · intro hsame
    rw [ruleListStep]
    cases hrequested : RuleChange.requested request with
    | none => rfl
    | some change =>
      rw [RuleChange.applyIfPossible]
      split_ifs with hpossible
      · -- The only change that changes nothing clears an empty list.
        have hclear : change = .clear ∧ rules = [] := by
          by_contra hne
          exact hsame ⟨change, hrequested, hpossible, fun heq hnil => hne ⟨heq, hnil⟩⟩
        rw [hclear.1, hclear.2]
        rfl
      · rfl

variable {c}

/-- On a coherent core a request is atomic exactly when the reply to a change fits. -/
lemma atomic_iff (hcoherent : c.currentRules = c.rules) (request response : List Byte) :
    c.Atomic request response ↔ c.ReplyFits request response := by
  have hrules := c.afterRequest_rules request response
  have hsnapshot := c.afterRequest_currentRules request response
  by_cases hpublished : publishes request (c.handleRequest request response).1 = true
  · have hok : c.requestStatus request response = .ok := by
      rw [publishes, Bool.and_eq_true, decide_eq_true_eq] at hpublished
      exact hpublished.1
    rw [if_pos hpublished] at hsnapshot
    constructor
    · intro _
      exact Or.inl ((c.publishes_iff request response).mp hpublished).2
    · intro _
      exact ⟨fun hfailed => absurd hok hfailed, hsnapshot⟩
  · -- The snapshot stays, so the rules have to stay as well.
    rw [if_neg hpublished] at hsnapshot
    constructor
    · rintro ⟨-, hsame⟩
      refine Or.inr ((ruleListStep_eq_iff _ _).mp ?_)
      rw [← hrules, ← hsame, hsnapshot, hcoherent]
    · intro hfits
      have hunchanged : ¬ ChangesRules c.rules request := by
        rintro ⟨change, hrequested, hpossible, hclear⟩
        rcases hfits with hroom | hunchanged
        · apply hpublished
          exact (c.publishes_iff request response).mpr ⟨⟨change, hrequested, hpossible⟩, hroom⟩
        · exact hunchanged ⟨change, hrequested, hpossible, hclear⟩
      rw [(ruleListStep_eq_iff _ _).mpr hunchanged] at hrules
      exact ⟨fun _ => ⟨hrules, hsnapshot⟩, by rw [hsnapshot, hrules, hcoherent]⟩

/-- The cores that calls lead to, where each request and its response buffer are `allowed`. -/
inductive Reachable (allowed : ControlPlaneCore → List Byte → List Byte → Prop) :
    ControlPlaneCore → Prop
  | fresh : Reachable allowed fresh
  | request {c : ControlPlaneCore} (request response : List Byte) (hc : Reachable allowed c)
      (hallowed : allowed c request response) : Reachable allowed (c.afterRequest request response)
  | stats {c : ControlPlaneCore} (update : StatUpdate) (hc : Reachable allowed c) :
      Reachable allowed (c.publishStats update)

/-- As long as the replies to changes fit, the snapshot holds the rules. -/
lemma Reachable.coherent (h : Reachable ReplyFits c) : c.currentRules = c.rules := by
  induction h with
  | fresh => rfl
  | request request response _ hallowed ih => exact ((atomic_iff ih request response).mpr hallowed).2
  | stats update _ ih => exact ih

/-- In every run whose replies to changes fit their buffers, a request is atomic exactly when its
own reply does. -/
theorem request_atomic_iff (h : Reachable ReplyFits c) (request response : List Byte) :
    c.Atomic request response ↔
      kProtocolHeaderBytes ≤ response.length ∨ ¬ ChangesRules c.rules request :=
  atomic_iff h.coherent request response

/-- A request to add the rule whose members are all zero. -/
def addZeroRule : List Byte :=
  (({ opcode := .addRule } : MessageHeader).sealed (List.replicate 40 0)).message
    (List.replicate 40 0)

lemma decodeMessage_addZeroRule :
    decodeMessage addZeroRule =
      { status := .ok
        message := { header := ({ opcode := .addRule } : MessageHeader).sealed (List.replicate 40 0)
                     payload := List.replicate 40 0 } } := by
  have hpayload : (List.replicate 40 (0 : Byte)).length ≤ kMaxControlPayloadBytes := by
    simp [kMaxControlPayloadBytes]
  exact decodeMessage_sealed_self { opcode := .addRule } hpayload

/-- After a rule was added with a reply of 24 bytes, an empty reply buffer is still enough for a
request that is no message. -/
theorem request_atomic_iff_empty :
    (fresh.afterRequest addZeroRule (List.replicate 24 0)).Atomic [] [] := by
  have hreachable : Reachable ReplyFits (fresh.afterRequest addZeroRule (List.replicate 24 0)) :=
    .request _ _ .fresh (Or.inl (by simp [kProtocolHeaderBytes]))
  refine (request_atomic_iff hreachable [] []).mpr (Or.inr ?_)
  rintro ⟨change, hrequested, -⟩
  cases hrequested

/-- A rule is added although there is no room for the reply: the request fails, the table has the
rule, and the snapshot does not. -/
theorem failed_add_changes_rules :
    Reachable (fun _ _ _ => True) fresh ∧ ¬ fresh.Atomic addZeroRule [] ∧
      fresh.requestStatus addZeroRule [] = .bufferTooSmall ∧
      (fresh.afterRequest addZeroRule []).rules =
        fresh.rules ++ [ChaosRule.ofMemory (List.replicate 40 0)] ∧
      (fresh.afterRequest addZeroRule []).currentRules = fresh.currentRules := by
  have hrequested : RuleChange.requested addZeroRule =
      some (.append (ChaosRule.ofMemory (List.replicate 40 0))) := by
    rw [RuleChange.requested, decodeMessage_addZeroRule]
    rfl
  have hrules : (fresh.afterRequest addZeroRule []).rules =
      [ChaosRule.ofMemory (List.replicate 40 0)] := by
    rw [afterRequest_rules, ruleListStep, hrequested]
    rfl
  have hsnapshot : (fresh.afterRequest addZeroRule []).currentRules = [] := by
    rw [afterRequest_currentRules, if_neg]
    · rfl
    rw [publishes_iff]
    rintro ⟨-, hroom⟩
    cases hroom
  refine ⟨.fresh, ?_, ?_, hrules, hsnapshot⟩
  · rintro ⟨-, hcoherent⟩
    rw [hsnapshot, hrules] at hcoherent
    cases hcoherent
  · rw [requestStatus, handleRequest, ControlCore.handle, decodeMessage_addZeroRule]
    rfl

end ControlPlaneCore

end ChronosX
