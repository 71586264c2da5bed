import ChronosX.Protocol.Codec
import ChronosX.Protocol.RuleTable

/-!
# The control core

`ControlCore` of `protocol.hpp`: one request is decoded, handled by its opcode and answered. The
request and response spans are different buffers.
-/

namespace ChronosX

open ByteLayout

/-- `StatUpdate`, with the four bytes of padding at its end. -/
structure StatUpdate where
  timestampCycles : UInt64 := 0
  packetsSeen : UInt64 := 0
  packetsDropped : UInt64 := 0
  bytesSeen : UInt64 := 0
  averageLatencyNs : UInt64 := 0
  lastAction : PacketAction := .pass
  reserved0 : UInt8 := 0
  reserved1 : UInt16 := 0
  padding : UInt32 := 0
deriving DecidableEq, Repr

namespace StatUpdate

def layout : List Item :=
  [.field 8, .field 8, .field 8, .field 8, .field 8, .field 1, .field 1, .field 2, .field 4]

def fields (stats : StatUpdate) : List ℕ :=
  [stats.timestampCycles.toNat, stats.packetsSeen.toNat, stats.packetsDropped.toNat,
    stats.bytesSeen.toNat, stats.averageLatencyNs.toNat, stats.lastAction.raw.toNat,
    stats.reserved0.toNat, stats.reserved1.toNat, stats.padding.toNat]

/-- The bytes of a statistics record in memory. -/
def toMemory (stats : StatUpdate) : List Byte := write .little layout stats.fields

lemma fits_fields (stats : StatUpdate) : fits layout stats.fields = true := by
  simp only [layout, fields, fits, toNat_lt_one, toNat_lt_two, toNat_lt_four, toNat_lt_eight,
    decide_true, Bool.and_true]

lemma length_toMemory (stats : StatUpdate) : stats.toMemory.length = 48 :=
  length_write stats.fits_fields

end StatUpdate

/-! ### The control core -/

structure ControlResponse where
  status : ProtocolStatus := .ok
  opcode : Opcode := .pong
  bytesWritten : ℕ := 0
deriving DecidableEq, Repr

structure ControlCore (maxRules : ℕ) where
  ruleTable : RuleTable maxRules
  latestStats : StatUpdate
  haveStats : Bool

/-- What a handler leaves: the value it returns, the response span, and the core. -/
structure Handled (maxRules : ℕ) where
  result : ControlResponse
  response : List Byte
  core : ControlCore maxRules

/-- The bytes of the response that are sent. -/
def Handled.sent {maxRules : ℕ} (handled : Handled maxRules) : List Byte :=
  handled.response.take handled.result.bytesWritten

namespace ControlCore

variable {maxRules : ℕ}

def fresh : ControlCore maxRules := ⟨.empty, {}, false⟩

variable (c : ControlCore maxRules)

def rules : List ChaosRule := c.ruleTable.rules

def ruleCount : ℕ := c.ruleTable.count

def publishStats (update : StatUpdate) : ControlCore maxRules :=
  { c with latestStats := update, haveStats := true }

def encodePayload (opcode : Opcode) (sequence : UInt32) (payload response : List Byte) :
    Handled maxRules :=
  let (encoded, response) := encodeMessage { opcode, sequence } payload response
  ⟨⟨encoded.status, opcode, encoded.bytesWritten⟩, response, c⟩

/-- `encode_empty`. -/
def encodeEmpty (opcode : Opcode) (sequence : UInt32) (response : List Byte) : Handled maxRules :=
  c.encodePayload opcode sequence [] response

/-- The bytes of a C string, up to the terminator. -/
def messageBytes (message : String) : List Byte :=
  message.toList.map fun char => UInt8.ofNat char.toNat

def encodeError (status : ProtocolStatus) (sequence : UInt32) (response : List Byte) :
    Handled maxRules :=
  let payload := messageBytes (protocolStatusName status)
  let (encoded, response) := encodeMessage { opcode := .error, sequence } payload response
  ⟨⟨status, .error, encoded.bytesWritten⟩, response, c⟩

def handleGetStats (sequence : UInt32) (response : List Byte) : Handled maxRules :=
  let stats := if c.haveStats then c.latestStats else {}
  c.encodePayload .statsResponse sequence stats.toMemory response

def handleAddRule (message : DecodedMessage) (response : List Byte) : Handled maxRules :=
  if message.payload.length ≠ size chaosRuleLayout then
    c.encodeError .invalidPayload message.header.sequence response
  else
    let rule := ChaosRule.ofMemory message.payload
    let (status, ruleTable) := c.ruleTable.add rule
    let c := { c with ruleTable }
    if status ≠ .ok then c.encodeError status message.header.sequence response
    else c.encodeEmpty .pong message.header.sequence response

def handleRemoveRule (message : DecodedMessage) (response : List Byte) : Handled maxRules :=
  if message.payload.length ≠ 4 then
    c.encodeError .invalidPayload message.header.sequence response
  else
    let index := (readU32Be message.payload 0).toNat
    let (status, ruleTable) := c.ruleTable.removeAt index
    let c := { c with ruleTable }
    if status ≠ .ok then c.encodeError status message.header.sequence response
    else c.encodeEmpty .pong message.header.sequence response

def handleListRules (sequence : UInt32) (response : List Byte) : Handled maxRules :=
  c.encodePayload .rulesResponse sequence (c.rules.flatMap ChaosRule.toMemory) response

/-- `handle`. -/
def handle (request response : List Byte) : Handled maxRules :=
  let decoded := decodeMessage request
  if decoded.status ≠ .ok then c.encodeError decoded.status 0 response
  else
    let message := decoded.message
    let sequence := message.header.sequence
    if message.header.opcode = .ping then c.encodeEmpty .pong sequence response
    else if message.header.opcode = .getStats then c.handleGetStats sequence response
    else if message.header.opcode = .addRule then c.handleAddRule message response
    else if message.header.opcode = .removeRule then c.handleRemoveRule message response
    else if message.header.opcode = .clearRules then
      encodeEmpty { c with ruleTable := c.ruleTable.clear } .pong sequence response
    else if message.header.opcode = .listRules then c.handleListRules sequence response
    else c.encodeError .unknownOpcode sequence response

/-! ### Accepted requests -/

variable {c} {request response : List Byte}

/-- A response that could be encoded is sent whole. -/
lemma encodePayload_ok {opcode : Opcode} {sequence : UInt32} {payload : List Byte}
    (h : (c.encodePayload opcode sequence payload response).result.status = .ok) :
    payload.length ≤ kMaxControlPayloadBytes ∧
      (c.encodePayload opcode sequence payload response).sent =
        (({ opcode, sequence } : MessageHeader).sealed payload).message payload := by
  obtain ⟨hsize, -, hencoded⟩ := encodeMessage_ok h
  refine ⟨hsize, ?_⟩
  rw [encodePayload, hencoded]
  exact List.take_left' (MessageHeader.length_message _ _)

/-- An accepted rule is appended to the table as its bytes are in memory. -/
lemma handleAddRule_ok {message : DecodedMessage}
    (h : (c.handleAddRule message response).result.status = .ok) :
    (c.handleAddRule message response).core.rules =
      c.rules ++ [ChaosRule.ofMemory message.payload] := by
  have hlength : ¬ message.payload.length ≠ size chaosRuleLayout := by
    intro hne
    rw [handleAddRule, if_pos hne] at h
    cases h
  rw [handleAddRule, if_neg hlength] at h ⊢
  dsimp only at h ⊢
  by_cases hfull : maxRules ≤ c.ruleTable.count
  · rw [c.ruleTable.add_of_ge hfull] at h
    cases h
  · obtain ⟨hstatus, hrules⟩ := c.ruleTable.add_of_lt (Nat.lt_of_not_le hfull)
      (ChaosRule.ofMemory message.payload)
    rw [if_neg (not_not.mpr hstatus)]
    exact hrules

/-- An add request is handled by its handler. -/
lemma handle_addRule (hdecoded : (decodeMessage request).status = .ok)
    (hopcode : (decodeMessage request).message.header.opcode = .addRule) :
    c.handle request response = c.handleAddRule (decodeMessage request).message response := by
  rw [handle, if_neg (not_not.mpr hdecoded)]
  simp only [hopcode]
  rfl

/-- A list request is answered with the rules as they are in memory. -/
lemma handle_listRules (hdecoded : (decodeMessage request).status = .ok)
    (hopcode : (decodeMessage request).message.header.opcode = .listRules) :
    c.handle request response =
      c.encodePayload .rulesResponse (decodeMessage request).message.header.sequence
        (c.rules.flatMap ChaosRule.toMemory) response := by
  rw [handle, if_neg (not_not.mpr hdecoded)]
  simp only [hopcode]
  rfl

end ControlCore

end ChronosX
