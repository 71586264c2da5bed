import ChronosX.Parser.Basic

/-!
# The chaos engine

`chaos_engine.hpp`: a rule list is searched for the first rule that matches a packet, and a
hash seeded by that rule decides whether its action is applied. `decide_packet` hashes the
payload bytes, so it is a memory program; `decide_packet_fast`, which the data plane uses,
is a function of the rule and the parsed header fields.
-/

namespace ChronosX

open Mem

def kProbabilityScale : UInt16 := 10000

structure ChaosRule where
  seed : UInt64 := 0
  delayNs : UInt64 := 0
  id : UInt32 := 0
  srcIp : UInt32 := 0
  dstIp : UInt32 := 0
  srcPort : UInt16 := 0
  dstPort : UInt16 := 0
  probability : UInt16 := 0
  protocol : UInt8 := 0
  action : PacketAction := .pass
  enabled : UInt8 := 1
  reserved : Byte × Byte × Byte := (0, 0, 0)
deriving DecidableEq, Repr

structure ChaosDecision where
  hash : UInt64 := 0
  delayNs : UInt64 := 0
  ruleId : UInt32 := 0
  roll : UInt16 := 0
  action : PacketAction := .pass
  matchedRule : UInt8 := 0
deriving DecidableEq, Repr

namespace ChaosDecision

variable (decision : ChaosDecision)

def shouldDrop : Bool := decision.action == .drop
def shouldDelay : Bool := decision.action == .delay
def shouldCorrupt : Bool := decision.action == .corrupt

end ChaosDecision

def clampProbability (probability : UInt16) : UInt16 :=
  if probability > kProbabilityScale then kProbabilityScale else probability

def ruleIsEnabled (rule : ChaosRule) : Bool := rule.enabled != 0

/-- `rule_matches_packet`: a zero field of the rule matches anything. -/
def ruleMatchesPacket (rule : ChaosRule) (packet : PacketView) : Bool :=
  if !ruleIsEnabled rule || !packet.ok then false
  else if rule.srcIp ≠ 0 ∧ rule.srcIp ≠ packet.srcIp then false
  else if rule.dstIp ≠ 0 ∧ rule.dstIp ≠ packet.dstIp then false
  else if rule.srcPort ≠ 0 ∧ rule.srcPort ≠ packet.srcPort then false
  else if rule.dstPort ≠ 0 ∧ rule.dstPort ≠ packet.dstPort then false
  else if rule.protocol ≠ 0 ∧ rule.protocol ≠ packet.ipv4Protocol then false
  else true

/-! ### The hash -/

def kFnvOffsetBasis : UInt64 := 14695981039346656037
def kFnvPrime : UInt64 := 1099511628211

def fnv1aByte (hash : UInt64) (value : UInt8) : UInt64 := (hash ^^^ value.toUInt64) * kFnvPrime

def fnv1aU16 (hash : UInt64) (value : UInt16) : UInt64 :=
  let hash := fnv1aByte hash ((value >>> 8) &&& 0xFF).toUInt8
  fnv1aByte hash (value &&& 0xFF).toUInt8

def fnv1aU32 (hash : UInt64) (value : UInt32) : UInt64 :=
  let hash := fnv1aByte hash ((value >>> 24) &&& 0xFF).toUInt8
  let hash := fnv1aByte hash ((value >>> 16) &&& 0xFF).toUInt8
  let hash := fnv1aByte hash ((value >>> 8) &&& 0xFF).toUInt8
  fnv1aByte hash (value &&& 0xFF).toUInt8

def fnv1aU64 (hash : UInt64) (value : UInt64) : UInt64 :=
  let hash := fnv1aU32 hash ((value >>> 32) &&& 0xFFFFFFFF).toUInt32
  fnv1aU32 hash (value &&& 0xFFFFFFFF).toUInt32

def avalanche64 (value : UInt64) : UInt64 :=
  let value := value ^^^ (value >>> 33)
  let value := value * 0xff51afd7ed558ccd
  let value := value ^^^ (value >>> 33)
  let value := value * 0xc4ceb9fe1a85ec53
  value ^^^ (value >>> 33)

/-- The prefix that both packet hashes compute: seed, 5-tuple and payload length. -/
def flowHashState (rule : ChaosRule) (packet : PacketView) : UInt64 :=
  let hash := kFnvOffsetBasis
  let hash := fnv1aU64 hash rule.seed
  let hash := fnv1aU32 hash packet.srcIp
  let hash := fnv1aU32 hash packet.dstIp
  let hash := fnv1aU16 hash packet.srcPort
  let hash := fnv1aU16 hash packet.dstPort
  let hash := fnv1aByte hash packet.ipv4Protocol
  fnv1aU64 hash (UInt64.ofNat packet.payloadLength)

/-- The loop of `stable_packet_hash` over `count` payload bytes from `index` on. -/
def hashPayload (payload : ℕ) : (count index : ℕ) → UInt64 → UmemProg UInt64
  | 0, _, hash => return hash
  | count + 1, index, hash => do
    let value ← readByte payload index
    hashPayload payload count (index + 1) (fnv1aByte hash value)

def stablePacketHash (rule : ChaosRule) (packet : PacketView) : UmemProg UInt64 := do
  let hash := flowHashState rule packet
  match packet.payloadData with
  | none => return avalanche64 hash
  | some payload =>
    let hash ← hashPayload payload packet.payloadLength 0 hash
    return avalanche64 hash

def stableFlowHash (rule : ChaosRule) (packet : PacketView) : UInt64 :=
  avalanche64 (flowHashState rule packet)

/-! ### Decisions -/

def passDecision : ChaosDecision := {}

def passFromRule (rule : ChaosRule) (hash : UInt64) (roll : UInt16) : ChaosDecision :=
  { hash, delayNs := 0, ruleId := rule.id, roll, action := .pass, matchedRule := 1 }

def appliedDecision (rule : ChaosRule) (hash : UInt64) (roll : UInt16) : ChaosDecision :=
  { hash, delayNs := if rule.action = .delay then rule.delayNs else 0, ruleId := rule.id, roll
    action := rule.action, matchedRule := 1 }

/-- `static_cast<std::uint16_t>(hash % kProbabilityScale)`. -/
def rollOf (hash : UInt64) : UInt16 := (hash % kProbabilityScale.toUInt64).toUInt16

def decideForRule (rule : ChaosRule) (packet : PacketView) : UmemProg ChaosDecision := do
  let probability := clampProbability rule.probability
  if rule.action = .pass ∨ probability = 0 then
    return passFromRule rule 0 0
  if probability = kProbabilityScale then
    return appliedDecision rule 0 0
  let hash ← stablePacketHash rule packet
  let roll := rollOf hash
  if roll ≥ probability then
    return passFromRule rule hash roll
  return appliedDecision rule hash roll

def decideForRuleFast (rule : ChaosRule) (packet : PacketView) : ChaosDecision :=
  let probability := clampProbability rule.probability
  if rule.action = .pass ∨ probability = 0 then
    passFromRule rule 0 0
  else if probability = kProbabilityScale then
    appliedDecision rule 0 0
  else
    let hash := stableFlowHash rule packet
    let roll := rollOf hash
    if roll ≥ probability then passFromRule rule hash roll else appliedDecision rule hash roll

def decidePacket (packet : PacketView) : List ChaosRule → UmemProg ChaosDecision
  | [] => return passDecision
  | rule :: rules =>
    if ruleMatchesPacket rule packet then decideForRule rule packet
    else decidePacket packet rules

def decidePacketFast (packet : PacketView) : List ChaosRule → ChaosDecision
  | [] => passDecision
  | rule :: rules =>
    if ruleMatchesPacket rule packet then decideForRuleFast rule packet
    else decidePacketFast packet rules

end ChronosX
