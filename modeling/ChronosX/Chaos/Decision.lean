import ChronosX.Chaos.Flow
import ChronosX.Chaos.Hash

/-!
# The two decisions

`decide_packet` and `decide_packet_fast` search the rules alike and differ in the hash that they
hand to the rule they find. Both are `decideBy`, with the packet hash and with the flow hash; what
is said here of decisions is said of `decideBy`.
-/

namespace ChronosX

open Mem

/-- The rule that decides the packet. -/
def firstMatch (packet : PacketView) (rules : List ChaosRule) : Option ChaosRule :=
  rules.find? (ruleMatchesPacket · packet)

/-- What a rule decides when the packet has the given hash. -/
def decideByHash (rule : ChaosRule) (hash : UInt64) : ChaosDecision :=
  let probability := clampProbability rule.probability
  if rule.action = .pass ∨ probability = 0 then passFromRule rule 0 0
  else if probability = kProbabilityScale then appliedDecision rule 0 0
  else if rollOf hash ≥ probability then passFromRule rule hash (rollOf hash)
  else appliedDecision rule hash (rollOf hash)

/-- What a list of rules decides, with the given hash for each rule. -/
def decideBy (hash : ChaosRule → UInt64) (packet : PacketView) (rules : List ChaosRule) :
    ChaosDecision :=
  match firstMatch packet rules with
  | none      => passDecision
  | some rule => decideByHash rule (hash rule)

lemma decideBy_cons (hash : ChaosRule → UInt64) (packet : PacketView) (rule : ChaosRule)
    (rules : List ChaosRule) :
    decideBy hash packet (rule :: rules) =
      if ruleMatchesPacket rule packet then decideByHash rule (hash rule)
      else decideBy hash packet rules := by
  rw [decideBy, firstMatch, List.find?_cons]
  cases ruleMatchesPacket rule packet <;> rfl

lemma decidePacketFast_eq (packet : PacketView) (rules : List ChaosRule) :
    decidePacketFast packet rules = decideBy (stableFlowHash · packet) packet rules := by
  induction rules with
  | nil => rfl
  | cons rule rules ih =>
    rw [decidePacketFast, decideBy_cons, ih]
    rfl

lemma run_decideForRule (rule : ChaosRule) (packet : PacketView) (m : Umem) :
    run (decideForRule rule packet) m = (decideByHash rule (packetHash rule packet m), m) := by
  rw [decideForRule, decideByHash]
  dsimp only
  split_ifs with hpass hfull hroll
  · rfl
  · rfl
  · rw [run_bind, run_stablePacketHash]
    dsimp only
    rw [if_pos hroll]
    rfl
  · rw [run_bind, run_stablePacketHash]
    dsimp only
    rw [if_neg hroll]
    rfl

/-- `decide_packet` only reads. -/
lemma run_decidePacket (packet : PacketView) (rules : List ChaosRule) (m : Umem) :
    run (decidePacket packet rules) m = (decideBy (packetHash · packet m) packet rules, m) := by
  induction rules with
  | nil => rfl
  | cons rule rules ih =>
    rw [decidePacket, decideBy_cons]
    split_ifs
    · exact run_decideForRule rule packet m
    · exact ih

/-! ### What a rule can decide -/

section

variable {rule : ChaosRule} {hash hash' : UInt64}

lemma rollOf_lt (hash : UInt64) : rollOf hash < kProbabilityScale := by
  have hlt : hash.toNat % 10000 < 10000 := Nat.mod_lt _ (by decide)
  have hroll : (rollOf hash).toNat = hash.toNat % 10000 % 2 ^ 16 := rfl
  rw [UInt16.lt_iff_toNat_lt, hroll, Nat.mod_eq_of_lt (by omega)]
  exact hlt

lemma clampProbability_of_lt {probability : UInt16} (h : probability < kProbabilityScale) :
    clampProbability probability = probability :=
  if_neg (UInt16.not_lt.mpr (UInt16.le_of_lt h))

lemma clampProbability_of_ge {probability : UInt16} (h : kProbabilityScale ≤ probability) :
    clampProbability probability = kProbabilityScale := by
  rw [clampProbability]
  split_ifs with hlt
  · rfl
  · exact UInt16.le_antisymm (UInt16.not_lt.mp hlt) h

@[simp] lemma matchedRule_decideByHash : (decideByHash rule hash).matchedRule = 1 := by
  unfold decideByHash
  dsimp only
  split_ifs <;> rfl

/-- The action, the rule id and the delay of a rule that is applied. -/
def appliedFate (rule : ChaosRule) : PacketAction × UInt32 × UInt64 :=
  (rule.action, rule.id, if rule.action = .delay then rule.delayNs else 0)

/-- The shortcuts for certain and for impossible rules agree with the roll: a rule is applied
exactly if the roll is below its probability. -/
lemma fate_decideByHash (rule : ChaosRule) (hash : UInt64) :
    (decideByHash rule hash).fate =
      if rollOf hash < rule.probability then appliedFate rule else (.pass, rule.id, 0) := by
  by_cases hpass : rule.action = .pass
  · have happlied : appliedFate rule = (.pass, rule.id, 0) := by
      rw [appliedFate, hpass]
      rfl
    rw [decideByHash, if_pos (Or.inl hpass), happlied, ite_self, fate_passFromRule]
  by_cases hzero : rule.probability = 0
  · have hroll : ¬ rollOf hash < 0 := UInt16.not_lt.mpr UInt16.zero_le
    rw [decideByHash, hzero, if_pos (Or.inr (by decide)), if_neg hroll, fate_passFromRule]
  rcases UInt16.lt_or_le rule.probability kProbabilityScale with hlt | hge
  · rw [decideByHash, clampProbability_of_lt hlt, if_neg (not_or.mpr ⟨hpass, hzero⟩),
      if_neg (UInt16.ne_of_lt hlt)]
    by_cases hroll : rollOf hash < rule.probability
    · rw [if_neg (UInt16.not_le.mpr hroll), if_pos hroll, fate_appliedDecision, appliedFate]
    · rw [if_pos (UInt16.not_lt.mp hroll), if_neg hroll, fate_passFromRule]
  · have hroll : rollOf hash < rule.probability := UInt16.lt_of_lt_of_le (rollOf_lt hash) hge
    rw [decideByHash, clampProbability_of_ge hge, if_neg (not_or.mpr ⟨hpass, by decide⟩),
      if_pos rfl, if_pos hroll, fate_appliedDecision, appliedFate]

/-- A rule that does not roll decides without the hash. -/
lemma decideByHash_congr (h : rule.action = .pass ∨ rule.probability = 0 ∨
      kProbabilityScale ≤ rule.probability) (hash hash' : UInt64) :
    decideByHash rule hash = decideByHash rule hash' := by
  rw [decideByHash, decideByHash]
  rcases h with hpass | hzero | hge
  · rw [if_pos (Or.inl hpass), if_pos (Or.inl hpass)]
  · rw [hzero, if_pos (Or.inr (by decide)), if_pos (Or.inr (by decide))]
  · rw [clampProbability_of_ge hge, if_pos rfl, if_pos rfl]

/-- The rule id of a decision is that of its rule. -/
lemma ruleId_decideByHash (rule : ChaosRule) (hash : UInt64) :
    (decideByHash rule hash).ruleId = rule.id := by
  have hfate := congrArg (·.2.1) (fate_decideByHash rule hash)
  dsimp only [ChaosDecision.fate] at hfate
  rw [hfate]
  split_ifs <;> rfl

/-- A rule is applied or passed over, and only an applied `Delay` comes with a delay. -/
lemma decideByHash_action (rule : ChaosRule) (hash : UInt64) :
    ((decideByHash rule hash).action = .pass ∨ (decideByHash rule hash).action = rule.action) ∧
      ((decideByHash rule hash).delayNs ≠ 0 → (decideByHash rule hash).action = .delay) := by
  have hfate := fate_decideByHash rule hash
  rw [ChaosDecision.fate, appliedFate] at hfate
  split_ifs at hfate with hroll hdelay
  · obtain ⟨haction, -⟩ := Prod.mk.inj hfate
    exact ⟨Or.inr haction, fun _ => haction.trans hdelay⟩
  · obtain ⟨haction, hrest⟩ := Prod.mk.inj hfate
    exact ⟨Or.inr haction, fun h => absurd (congrArg Prod.snd hrest) h⟩
  · obtain ⟨haction, hrest⟩ := Prod.mk.inj hfate
    exact ⟨Or.inl haction, fun h => absurd (congrArg Prod.snd hrest) h⟩

/-! ### Agreement -/

/-- The full and the fast decision are made by the same rule. They are the same decision unless
that rule rolls and the packet has a payload. Either way the action is that of the rule or `Pass`,
and only `Delay` comes with a delay. -/
theorem decidePacket_agrees (packet : PacketView) (rules : List ChaosRule) (m : Umem) :
    let full := (run (decidePacket packet rules) m).1
    let fast := decidePacketFast packet rules
    (full.matchedRule = fast.matchedRule ∧ full.ruleId = fast.ruleId) ∧
    ((∀ rule, firstMatch packet rules = some rule →
        rule.action = .pass ∨ rule.probability = 0 ∨ kProbabilityScale ≤ rule.probability ∨
          packet.payloadLength = 0) →
      full = fast) ∧
    ∀ decision, decision = full ∨ decision = fast →
      (decision.action = .pass ∨
        ∃ rule, firstMatch packet rules = some rule ∧ decision.action = rule.action) ∧
      (decision.delayNs ≠ 0 → decision.action = .delay) := by
  intro full fast
  have hfull : full = decideBy (packetHash · packet m) packet rules := by
    simp only [full, run_decidePacket]
  have hfast : fast = decideBy (stableFlowHash · packet) packet rules :=
    decidePacketFast_eq packet rules
  rw [hfull, hfast, decideBy, decideBy]
  cases firstMatch packet rules with
  | none =>
    refine ⟨⟨rfl, rfl⟩, fun _ => rfl, ?_⟩
    rintro decision (rfl | rfl)
    · exact ⟨Or.inl rfl, fun h => absurd rfl h⟩
    · exact ⟨Or.inl rfl, fun h => absurd rfl h⟩
  | some rule =>
    have hrule : ∀ hash, ((decideByHash rule hash).action = .pass ∨ ∃ r, some rule = some r ∧
        (decideByHash rule hash).action = r.action) ∧
        ((decideByHash rule hash).delayNs ≠ 0 → (decideByHash rule hash).action = .delay) := by
      intro hash
      obtain ⟨haction, hdelay⟩ := decideByHash_action rule hash
      exact ⟨haction.imp_right fun h => ⟨rule, rfl, h⟩, hdelay⟩
    refine ⟨⟨?_, ?_⟩, ?_, ?_⟩
    · rw [matchedRule_decideByHash, matchedRule_decideByHash]
    · rw [ruleId_decideByHash, ruleId_decideByHash]
    · intro h
      rcases h rule rfl with hpass | hzero | hge | hempty
      · exact decideByHash_congr (Or.inl hpass) _ _
      · exact decideByHash_congr (Or.inr (Or.inl hzero)) _ _
      · exact decideByHash_congr (Or.inr (Or.inr hge)) _ _
      · exact congrArg (decideByHash rule) (packetHash_of_empty rule hempty m)
    · rintro decision (rfl | rfl)
      · exact hrule _
      · exact hrule _

/-- A datagram with one payload byte and a rule that drops all of it. -/
theorem decidePacket_agrees_udpFrame :
    let packet := (run (parsePacket (some 0) 43) (udpFrame 1)).1
    let rules : List ChaosRule := [{ id := 5, probability := 10000, action := .drop }]
    (run (decidePacket packet rules) (udpFrame 1)).1 = decidePacketFast packet rules ∧
      ((decidePacketFast packet rules).action = .pass ∨ ∃ rule,
        firstMatch packet rules = some rule ∧
          (decidePacketFast packet rules).action = rule.action) := by
  intro packet rules
  obtain ⟨-, hsame, haction⟩ := decidePacket_agrees packet rules (udpFrame 1)
  refine ⟨hsame ?_, (haction _ (Or.inr rfl)).1⟩
  intro rule hrule
  have hmem : rule ∈ rules := List.mem_of_find?_eq_some hrule
  rw [List.mem_singleton.mp hmem]
  exact Or.inr (Or.inr (Or.inl (by decide)))

/-! ### Raising a probability -/

lemma firstMatch_append (packet : PacketView) (before after : List ChaosRule) :
    firstMatch packet (before ++ after) =
      (firstMatch packet before).or (firstMatch packet after) := List.find?_append

/-- No rule before this one matches the packet, and this one does. -/
def Decides (before : List ChaosRule) (rule : ChaosRule) (packet : PacketView) : Prop :=
  firstMatch packet before = none ∧ ruleMatchesPacket rule packet = true

instance : Decidable (Decides before rule packet) :=
  inferInstanceAs (Decidable (_ ∧ _))

/-- A rule that decides the packet is found, and any other rule in its place that matches the same
packets. -/
lemma Decides.decideBy_eq {before : List ChaosRule} {packet : PacketView}
    (h : Decides before rule packet) (hash : ChaosRule → UInt64) (after : List ChaosRule) :
    decideBy hash packet (before ++ rule :: after) = decideByHash rule (hash rule) := by
  have hfound : firstMatch packet (rule :: after) = some rule := List.find?_cons_of_pos h.2
  rw [decideBy, firstMatch_append, h.1, hfound]
  rfl

/-- A rule that does not decide the packet can be exchanged for one that matches the same
packets. -/
lemma decideBy_exchange {before : List ChaosRule} {rule' : ChaosRule} {packet : PacketView}
    (h : ¬ Decides before rule packet)
    (hmatch : ruleMatchesPacket rule' packet = ruleMatchesPacket rule packet)
    (hash : ChaosRule → UInt64) (after : List ChaosRule) :
    decideBy hash packet (before ++ rule' :: after) =
      decideBy hash packet (before ++ rule :: after) := by
  have hfound : firstMatch packet (before ++ rule' :: after) =
      firstMatch packet (before ++ rule :: after) := by
    rw [firstMatch_append, firstMatch_append]
    cases hbefore : firstMatch packet before with
    | some earlier => rfl
    | none =>
      have hno : ruleMatchesPacket rule packet = false :=
        Bool.eq_false_iff.mpr fun hyes => h ⟨hbefore, hyes⟩
      simp [firstMatch, hmatch, hno]
  rw [decideBy, hfound, decideBy]

/-- A rule with a higher probability is still applied. -/
lemma fate_raised {probability : UInt16} (h : rule.probability ≤ probability) (hash : UInt64)
    (happlied : (decideByHash rule hash).action = rule.action) :
    (decideByHash { rule with probability } hash).fate = (decideByHash rule hash).fate := by
  rw [fate_decideByHash, fate_decideByHash]
  by_cases hroll : rollOf hash < rule.probability
  · rw [if_pos hroll, if_pos (UInt16.lt_of_lt_of_le hroll h)]
    rfl
  · -- a rule that is passed over and still has the action of the decision is one that passes
    have hfate := fate_decideByHash rule hash
    rw [if_neg hroll, ChaosDecision.fate, happlied] at hfate
    have hpass : rule.action = .pass := congrArg Prod.fst hfate
    rw [if_neg hroll, appliedFate, hpass]
    exact ite_self _

/-- Two rule lists that differ in the probability of one rule, which is higher in the second. If the
first applies the rule's action to a packet, so does the second, with the same delay and rule id;
packets that the rule does not decide get the same decision. This holds of both decisions. -/
theorem decidePacket_monotone (before after : List ChaosRule) (rule : ChaosRule)
    (probability : UInt16) (hraised : rule.probability ≤ probability) (packet : PacketView)
    (m : Umem) :
    let rules := before ++ rule :: after
    let rules' := before ++ { rule with probability } :: after
    let full := (run (decidePacket packet rules) m).1
    let full' := (run (decidePacket packet rules') m).1
    let fast := decidePacketFast packet rules
    let fast' := decidePacketFast packet rules'
    (Decides before rule packet →
      (full.action = rule.action → full'.fate = full.fate) ∧
      (fast.action = rule.action → fast'.fate = fast.fate)) ∧
    (¬ Decides before rule packet → full' = full ∧ fast' = fast) := by
  dsimp only
  simp only [run_decidePacket, decidePacketFast_eq]
  constructor
  · intro hdecides
    have hdecides' : Decides before { rule with probability } packet := hdecides
    simp only [hdecides.decideBy_eq, hdecides'.decideBy_eq]
    exact ⟨fate_raised hraised _, fate_raised hraised _⟩
  · intro hother
    have hmatch : ruleMatchesPacket { rule with probability } packet =
        ruleMatchesPacket rule packet := rfl
    exact ⟨decideBy_exchange hother hmatch _ after, decideBy_exchange hother hmatch _ after⟩

/-- A datagram that a rule drops with certainty, and a certain rule it does not reach. -/
theorem decidePacket_monotone_udpFrame :
    let packet := (run (parsePacket (some 0) 43) (udpFrame 1)).1
    let rule : ChaosRule := { id := 5, probability := 10000, action := .drop }
    let other : ChaosRule := { id := 6, probability := 10, action := .corrupt }
    (decidePacketFast packet [{ rule with probability := 20000 }]).fate = (.drop, 5, 0) ∧
      decidePacketFast packet [rule, { other with probability := 5000 }] =
        decidePacketFast packet [rule, other] := by
  intro packet rule other
  have hfirst : Decides [] rule packet := ⟨rfl, by decide⟩
  have happlied : (decidePacketFast packet [rule]).fate = (.drop, 5, 0) := by
    rw [decidePacketFast_eq, decideBy, firstMatch]
    decide
  have hother : ¬ Decides [rule] other packet := by decide
  obtain ⟨hraised, -⟩ :=
    decidePacket_monotone [] [] rule 20000 (by decide) packet (udpFrame 1)
  obtain ⟨-, hsame⟩ :=
    decidePacket_monotone [rule] [] other 5000 (by decide) packet (udpFrame 1)
  refine ⟨?_, (hsame hother).2⟩
  rw [← happlied]
  exact (hraised hfirst).2 (congrArg Prod.fst happlied)

end

end ChronosX
