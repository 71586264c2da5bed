import ChronosX.Chaos.Basic

/-!
# Does a flow have one fate?

The data plane decides with `decide_packet_fast`, whose hash takes in, beside the seed and
the 5-tuple, the payload length. Two packets of one flow are matched by the same rule; they
share their fate exactly when that rule does not roll, or rolls on the same side of its
probability for both payload lengths.
-/

namespace ChronosX

open Mem

/-- Source and destination address, source and destination port, protocol. -/
def PacketView.fiveTuple (view : PacketView) : UInt32 × UInt32 × UInt16 × UInt16 × UInt8 :=
  (view.srcIp, view.dstIp, view.srcPort, view.dstPort, view.ipv4Protocol)

/-- What a decision does to its packet: the action, the rule and the delay. -/
def ChaosDecision.fate (decision : ChaosDecision) : PacketAction × UInt32 × UInt64 :=
  (decision.action, decision.ruleId, decision.delayNs)

/-- The rule applies its action without a roll, or never, or rolls on the same side of its
probability for both packets. -/
def RollsAlike (rule : ChaosRule) (v w : PacketView) : Prop :=
  rule.action = .pass ∨ clampProbability rule.probability = 0 ∨
    clampProbability rule.probability = kProbabilityScale ∨
    (rollOf (stableFlowHash rule v) < clampProbability rule.probability ↔
      rollOf (stableFlowHash rule w) < clampProbability rule.probability)

section

variable {v w : PacketView}

lemma ruleMatchesPacket_congr (hv : v.ok = true) (hw : w.ok = true)
    (h : v.fiveTuple = w.fiveTuple) (rule : ChaosRule) :
    ruleMatchesPacket rule v = ruleMatchesPacket rule w := by
  simp only [PacketView.fiveTuple, Prod.mk.injEq] at h
  obtain ⟨hsrc, hdst, hsport, hdport, hproto⟩ := h
  simp only [ruleMatchesPacket, hv, hw, hsrc, hdst, hsport, hdport, hproto]

/-- Beside the 5-tuple, the flow hash depends on the payload length only. -/
lemma stableFlowHash_congr (h : v.fiveTuple = w.fiveTuple)
    (hlen : v.payloadLength = w.payloadLength) (rule : ChaosRule) :
    stableFlowHash rule v = stableFlowHash rule w := by
  simp only [PacketView.fiveTuple, Prod.mk.injEq] at h
  obtain ⟨hsrc, hdst, hsport, hdport, hproto⟩ := h
  simp only [stableFlowHash, flowHashState, hsrc, hdst, hsport, hdport, hproto, hlen]

/-- Packets of one flow with payloads of one length roll alike under every rule. -/
lemma RollsAlike.of_payloadLength_eq (h : v.fiveTuple = w.fiveTuple)
    (hlen : v.payloadLength = w.payloadLength) (rule : ChaosRule) : RollsAlike rule v w := by
  refine Or.inr (Or.inr (Or.inr ?_))
  rw [stableFlowHash_congr h hlen]

@[simp] lemma fate_passFromRule (rule : ChaosRule) (hash : UInt64) (roll : UInt16) :
    (passFromRule rule hash roll).fate = (.pass, rule.id, 0) := rfl

@[simp] lemma fate_appliedDecision (rule : ChaosRule) (hash : UInt64) (roll : UInt16) :
    (appliedDecision rule hash roll).fate =
      (rule.action, rule.id, if rule.action = .delay then rule.delayNs else 0) := rfl

/-- One rule gives two packets the same fate exactly when they roll alike. -/
lemma fate_decideForRuleFast_iff (rule : ChaosRule) :
    (decideForRuleFast rule v).fate = (decideForRuleFast rule w).fate ↔ RollsAlike rule v w := by
  unfold decideForRuleFast RollsAlike
  by_cases hpass : rule.action = .pass ∨ clampProbability rule.probability = 0
  · simp only [if_pos hpass, true_iff]
    rcases hpass with hpass | hzero
    · exact Or.inl hpass
    · exact Or.inr (Or.inl hzero)
  · simp only [if_neg hpass]
    rw [not_or] at hpass
    by_cases hfull : clampProbability rule.probability = kProbabilityScale
    · simp [hfull]
    · simp only [hpass.1, hpass.2, hfull, false_or, ge_iff_le]
      -- a pass and an applied action differ in the action itself
      have hne : ¬ PacketAction.pass = rule.action := fun h => hpass.1 h.symm
      by_cases hrv : clampProbability rule.probability ≤ rollOf (stableFlowHash rule v) <;>
        by_cases hrw : clampProbability rule.probability ≤ rollOf (stableFlowHash rule w) <;>
        simp [hrv, hrw, hne, hpass.1, ← UInt16.not_le]

/-- Two packets of one flow get the same fate exactly when they roll alike under the first rule that
matches them. -/
lemma fate_decidePacketFast_iff_rollsAlike (hv : v.ok = true) (hw : w.ok = true)
    (hflow : v.fiveTuple = w.fiveTuple) (rules : List ChaosRule) :
    (decidePacketFast v rules).fate = (decidePacketFast w rules).fate ↔
      ∀ rule, rules.find? (ruleMatchesPacket · v) = some rule → RollsAlike rule v w := by
  induction rules with
  | nil => simp [decidePacketFast]
  | cons rule rules ih =>
    have hmatch := ruleMatchesPacket_congr hv hw hflow rule
    simp only [decidePacketFast, ← hmatch, List.find?_cons]
    cases hm : ruleMatchesPacket rule v with
    | true =>
      simp only [↓reduceIte, Option.some.injEq, forall_eq']
      exact fate_decideForRuleFast_iff rule
    | false =>
      simpa using ih

end

/-- For every rule list and any two frames of one flow that the parser accepts: the data plane
gives them the same action, rule id and delay if and only if they roll alike under the first
rule that matches them; and they do under every rule when their payloads have the same length. -/
theorem fate_decidePacketFast_iff (rules : List ChaosRule) (m m' : Umem)
    (data data' length length' : ℕ)
    (hv : (run (parsePacket (some data) length) m).1.ok = true)
    (hw : (run (parsePacket (some data') length') m').1.ok = true)
    (hflow : (run (parsePacket (some data) length) m).1.fiveTuple =
      (run (parsePacket (some data') length') m').1.fiveTuple) :
    ((decidePacketFast (run (parsePacket (some data) length) m).1 rules).fate =
        (decidePacketFast (run (parsePacket (some data') length') m').1 rules).fate ↔
      ∀ rule, rules.find? (ruleMatchesPacket · (run (parsePacket (some data) length) m).1) =
          some rule →
        RollsAlike rule (run (parsePacket (some data) length) m).1
          (run (parsePacket (some data') length') m').1) ∧
    ((run (parsePacket (some data) length) m).1.payloadLength =
        (run (parsePacket (some data') length') m').1.payloadLength →
      ∀ rule, RollsAlike rule (run (parsePacket (some data) length) m).1
        (run (parsePacket (some data') length') m').1) :=
  ⟨fate_decidePacketFast_iff_rollsAlike hv hw hflow rules,
    fun hlength rule => RollsAlike.of_payloadLength_eq hflow hlength rule⟩

/-! ### Two packets of one flow -/

/-- A UDP datagram at the start of the UMEM: addresses and ports are zero and the payload is
`n` bytes. -/
def udpFrame (n : Byte) : Umem
  | 12 => 0x08
  | 14 => 0x45
  | 17 => 28 + n
  | 23 => 17
  | 39 => 8 + n
  | _  => 0

/-- A rule that drops half of the traffic. -/
def halfDropRule : ChaosRule := { probability := 5000, action := .drop }

theorem fate_decidePacketFast_iff_udpFrame :
    (run (parsePacket (some 0) 42) (udpFrame 0)).1.ok = true ∧
    (run (parsePacket (some 0) 43) (udpFrame 1)).1.ok = true ∧
    ((decidePacketFast (run (parsePacket (some 0) 42) (udpFrame 0)).1 [halfDropRule]).fate =
        (decidePacketFast (run (parsePacket (some 0) 43) (udpFrame 1)).1 [halfDropRule]).fate ↔
      ∀ rule, [halfDropRule].find?
          (ruleMatchesPacket · (run (parsePacket (some 0) 42) (udpFrame 0)).1) = some rule →
        RollsAlike rule (run (parsePacket (some 0) 42) (udpFrame 0)).1
          (run (parsePacket (some 0) 43) (udpFrame 1)).1) :=
  ⟨by decide, by decide, (fate_decidePacketFast_iff [halfDropRule] (udpFrame 0) (udpFrame 1) 0 0
    42 43 (by decide) (by decide) (by decide)).1⟩

/-- An empty and a one-byte datagram of the same flow: the first is dropped, the second is
passed. -/
theorem one_flow_two_fates :
    (run (parsePacket (some 0) 42) (udpFrame 0)).1.ok = true ∧
    (run (parsePacket (some 0) 43) (udpFrame 1)).1.ok = true ∧
    (run (parsePacket (some 0) 42) (udpFrame 0)).1.fiveTuple =
      (run (parsePacket (some 0) 43) (udpFrame 1)).1.fiveTuple ∧
    (decidePacketFast (run (parsePacket (some 0) 42) (udpFrame 0)).1 [halfDropRule]).fate =
      (.drop, 0, 0) ∧
    (decidePacketFast (run (parsePacket (some 0) 43) (udpFrame 1)).1 [halfDropRule]).fate =
      (.pass, 0, 0) := by
  decide +kernel

end ChronosX
