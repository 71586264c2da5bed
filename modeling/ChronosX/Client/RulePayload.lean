import ChronosX.Client.Framing
import ChronosX.Protocol.Control
import Mathlib.Data.List.Forall2

/-!
# Rules between the client and the server

The client packs and unpacks rules in big-endian order, and the server copies them from and to
the memory of a little-endian host. The members that are longer than a byte arrive with their
bytes reversed, in both directions, so a rule means the same on both sides exactly when those
bytes are symmetric.
-/

namespace ChronosX

open ByteLayout

/-- The bytes of every member read the same in both directions. -/
def ChaosRule.ByteSymmetric (rule : ChaosRule) : Prop :=
  Symmetric 8 rule.seed.toNat ∧ Symmetric 8 rule.delayNs.toNat ∧ Symmetric 4 rule.id.toNat ∧
    Symmetric 4 rule.srcIp.toNat ∧ Symmetric 4 rule.dstIp.toNat ∧ Symmetric 2 rule.srcPort.toNat ∧
    Symmetric 2 rule.dstPort.toNat ∧ Symmetric 2 rule.probability.toNat

lemma ChaosRule.allSymmetric_iff (rule : ChaosRule) :
    AllSymmetric chaosRuleMembers rule.members ↔ rule.ByteSymmetric := by
  simp only [chaosRuleMembers, ChaosRule.members, AllSymmetric, symmetric_one, ChaosRule.ByteSymmetric,
    and_true]

namespace Client

/-! ### From the client to the server -/

lemma actionMap_lt (action : Action) : actionMap action < 256 ^ 1 := by
  cases action <;> decide

namespace AddRuleArgs

variable (args : AddRuleArgs)

/-- The arguments are in the range of the fields they are packed into. -/
structure InRange : Prop where
  seed_lt : args.seed < 2 ^ 64
  delay_lt : args.delay < 2 ^ 64
  ruleId_lt : args.ruleId < 2 ^ 32
  port_lt : args.port < 2 ^ 16
  prob_lt : args.prob < 2 ^ 16

/-- The rule has the values that the client was given, and those it fills in. -/
structure Arrives (rule : ChaosRule) : Prop where
  seed_eq : rule.seed.toNat = args.seed
  delayNs_eq : rule.delayNs.toNat = args.delay
  id_eq : rule.id.toNat = args.ruleId
  dstPort_eq : rule.dstPort.toNat = args.port
  probability_eq : rule.probability.toNat = args.prob
  protocol_eq : rule.protocol.toNat = 6
  action_eq : rule.action.raw.toNat = actionMap args.action
  enabled_eq : rule.enabled.toNat = 1

/-- The bytes of every argument read the same in both directions. -/
structure ByteSymmetric : Prop where
  seed : Symmetric 8 args.seed
  delay : Symmetric 8 args.delay
  ruleId : Symmetric 4 args.ruleId
  port : Symmetric 2 args.port
  prob : Symmetric 2 args.prob

/-- The values that `cmd_add_rule` packs. -/
def values : List ℕ :=
  [args.seed, args.delay, args.ruleId, 0, 0, 0, args.port, args.prob, 6, actionMap args.action, 1]

variable {args}

lemma InRange.fits_values (h : args.InRange) : fits chaosRuleMembers args.values = true := by
  simp only [chaosRuleMembers, values, fits, Bool.and_eq_true, decide_eq_true_eq]
  exact ⟨h.seed_lt, h.delay_lt, h.ruleId_lt, by decide, by decide, by decide, h.port_lt, h.prob_lt,
    by decide, actionMap_lt args.action, by decide, trivial⟩

/-- Arguments in range are packed: the members, and the padding. -/
lemma InRange.addRulePayload_eq (h : args.InRange) :
    addRulePayload args = some (write .big chaosRuleMembers args.values ++ [0, 0, 0]) := by
  have hfits : fits chaosRuleFormat args.values = true := h.fits_values
  have hwrite := write_append .big h.fits_values [.pad, .pad, .pad] []
  rw [List.append_nil] at hwrite
  rw [← show write .big [.pad, .pad, .pad] [] = [0, 0, 0] from rfl, ← hwrite]
  exact if_pos hfits

/-- A rule whose members are the packed values with their bytes reversed is the one that was
asked for exactly when the bytes are symmetric. -/
lemma InRange.arrives_iff (h : args.InRange) {rule : ChaosRule}
    (hmembers : rule.members = rereadAll .big .little chaosRuleMembers args.values) :
    args.Arrives rule ↔ args.ByteSymmetric := by
  have hiff : ∀ {width n : ℕ}, n < 256 ^ width →
      (reread .big .little width n = n ↔ Symmetric width n) :=
    fun hlt => reread_eq_iff (by decide) hlt
  have hbyte : ∀ {n : ℕ}, n < 256 ^ 1 → reread .big .little 1 n = n :=
    fun hlt => (hiff hlt).mpr (symmetric_one _)
  simp only [ChaosRule.members, values, chaosRuleMembers, rereadAll, List.cons.injEq] at hmembers
  obtain ⟨hseed, hdelay, hid, -, -, -, hport, hprob, hprotocol, hact, henabled, -⟩ := hmembers
  constructor
  · intro harrives
    exact ⟨(hiff h.seed_lt).mp (hseed.symm.trans harrives.seed_eq),
      (hiff h.delay_lt).mp (hdelay.symm.trans harrives.delayNs_eq),
      (hiff h.ruleId_lt).mp (hid.symm.trans harrives.id_eq),
      (hiff h.port_lt).mp (hport.symm.trans harrives.dstPort_eq),
      (hiff h.prob_lt).mp (hprob.symm.trans harrives.probability_eq)⟩
  · intro hsymmetric
    exact ⟨hseed.trans ((hiff h.seed_lt).mpr hsymmetric.seed),
      hdelay.trans ((hiff h.delay_lt).mpr hsymmetric.delay),
      hid.trans ((hiff h.ruleId_lt).mpr hsymmetric.ruleId),
      hport.trans ((hiff h.port_lt).mpr hsymmetric.port),
      hprob.trans ((hiff h.prob_lt).mpr hsymmetric.prob),
      hprotocol.trans (hbyte (by decide)), hact.trans (hbyte (actionMap_lt args.action)),
      henabled.trans (hbyte (by decide))⟩

end AddRuleArgs

/-! ### From the server to the client -/

/-- What the client unpacks of a rule: its members with their bytes reversed. -/
def listed (rule : ChaosRule) : List ℕ := rereadAll .little .big chaosRuleMembers rule.members

lemma listed_eq_iff (rule : ChaosRule) : listed rule = rule.members ↔ rule.ByteSymmetric :=
  (rereadAll_eq_iff (by decide) rule.fits_members).trans rule.allSymmetric_iff

lemma read_toMemory (rule : ChaosRule) (rest : List Byte) :
    read .big chaosRuleFormat (rule.toMemory ++ rest) = listed rule := by
  have hpads : ∀ bs, read .big [.pad, .pad, .pad] bs = [] := fun _ => rfl
  have hsplit := read_append .big chaosRuleMembers [.pad, .pad, .pad] (rule.toMemory ++ rest)
  rw [hpads, List.append_nil, rule.toMemory_eq, List.append_assoc,
    read_write rule.fits_members] at hsplit
  rw [rule.toMemory_eq, List.append_assoc]
  exact hsplit

/-- The loop of the client over rules that the server wrote one after another. -/
lemma unpackRules_eq (rules : List ChaosRule) {before : List Byte} {i : ℕ}
    (h : before.length = i * chaosRuleSize) :
    unpackRules (before ++ rules.flatMap ChaosRule.toMemory) rules.length i =
      some (rules.map listed) := by
  induction rules generalizing before i with
  | nil => rfl
  | cons rule rules ih =>
    have hlength : rule.toMemory.length = chaosRuleSize := rule.length_toMemory
    have hnext : (before ++ rule.toMemory).length = (i + 1) * chaosRuleSize := by
      rw [List.length_append, h, hlength, Nat.succ_mul]
    have hfields : unpackFrom chaosRuleFormat
        (before ++ (rule :: rules).flatMap ChaosRule.toMemory) (i * chaosRuleSize) =
          some (listed rule) := by
      have hbound : ¬ (before ++ (rule :: rules).flatMap ChaosRule.toMemory).length <
          i * chaosRuleSize + size chaosRuleFormat := by
        rw [List.flatMap_cons, ← List.append_assoc, List.length_append, hnext, Nat.succ_mul]
        exact Nat.not_lt.mpr (Nat.le_add_right _ _)
      rw [unpackFrom, if_neg hbound, List.drop_left' h, List.flatMap_cons, read_toMemory]
    have hrest := ih hnext
    rw [List.append_assoc, ← List.flatMap_cons] at hrest
    rw [List.length_cons, unpackRules, hfields, hrest]
    rfl

/-- The client lists a rule for each rule of the server. -/
lemma showRules_eq (rules : List ChaosRule) (sequence : ℕ) :
    showRules ⟨opRulesResponse, sequence, rules.flatMap ChaosRule.toMemory⟩ =
      some (.shown (rules.map listed)) := by
  have hlength : (rules.flatMap ChaosRule.toMemory).length = rules.length * chaosRuleSize :=
    ChaosRule.length_flatMap_toMemory rules
  have hcount : (rules.flatMap ChaosRule.toMemory).length / chaosRuleSize = rules.length := by
    rw [hlength]
    exact Nat.mul_div_cancel _ (by decide)
  have hrules : unpackRules (rules.flatMap ChaosRule.toMemory) rules.length 0 =
      some (rules.map listed) := unpackRules_eq rules (i := 0) List.length_nil
  rw [showRules, if_pos rfl]
  dsimp only
  rw [hcount, hrules]
  rfl

/-! ### Agreement -/

/-- A rule the client adds is the rule the server stores exactly when the bytes of each argument
are symmetric, and a rule the server lists is the rule the client shows exactly when the bytes of
each of its members are. -/
theorem rule_payload_agrees_iff {maxRules : ℕ} :
    (∀ args : AddRuleArgs, args.InRange → ∃ payload, addRulePayload args = some payload ∧
      ∀ (c : ControlCore maxRules) (request response : List Byte),
        (decodeMessage request).status = .ok →
        (decodeMessage request).message.header.opcode = .addRule →
        (decodeMessage request).message.payload = payload →
        (c.handle request response).result.status = .ok →
        ∃ rule, (c.handle request response).core.rules = c.rules ++ [rule] ∧
          (args.Arrives rule ↔ args.ByteSymmetric)) ∧
    ∀ (c : ControlCore maxRules) (request response : List Byte),
      (decodeMessage request).status = .ok →
      (decodeMessage request).message.header.opcode = .listRules →
      (c.handle request response).result.status = .ok →
      ∃ shown, (receiveReply (c.handle request response).sent).bind showRules =
          some (.shown shown) ∧
        List.Forall₂ (fun rule fields => fields = rule.members ↔ rule.ByteSymmetric) c.rules
          shown := by
  constructor
  · intro args hrange
    refine ⟨_, hrange.addRulePayload_eq, ?_⟩
    intro c request response hdecoded hopcode hpayload hok
    rw [ControlCore.handle_addRule hdecoded hopcode] at hok ⊢
    refine ⟨_, ControlCore.handleAddRule_ok hok, hrange.arrives_iff ?_⟩
    rw [hpayload, ChaosRule.members_ofMemory, read_write hrange.fits_values]
  · intro c request response hdecoded hopcode hok
    rw [ControlCore.handle_listRules hdecoded hopcode] at hok ⊢
    obtain ⟨hsize, hsent⟩ := ControlCore.encodePayload_ok hok
    refine ⟨c.rules.map listed, ?_, ?_⟩
    · rw [hsent, receiveReply_sealed _ hsize]
      exact showRules_eq c.rules _
    · rw [List.forall₂_map_right_iff, List.forall₂_same]
      exact fun rule _ => listed_eq_iff rule

/-- The bytes of the client's request to add a rule. -/
def addRuleRequest (args : AddRuleArgs) : List Byte :=
  ((addRulePayload args).bind (encodeMessage opAddRule 1)).getD []

/-- The bytes of the client's request to list the rules. -/
def listRulesRequest : List Byte := (encodeMessage opListRules 1 []).getD []

/-- A fresh server answers the client's request to add a rule. -/
def afterAdd (args : AddRuleArgs) : Handled kDefaultMaxRules :=
  ControlCore.fresh.handle (addRuleRequest args) (List.replicate 24 0)

/-- The server then answers the client's request to list the rules. -/
def afterList (c : ControlCore kDefaultMaxRules) : Handled kDefaultMaxRules :=
  c.handle listRulesRequest (List.replicate 64 0)

/-- Arguments whose bytes are symmetric, and the rule they make. -/
def symmetricArgs : AddRuleArgs :=
  { ruleId := 0x01000001, port := 0x5050, prob := 0x1010, seed := 0 }

def symmetricRule : ChaosRule :=
  { id := 0x01000001, dstPort := 0x5050, probability := 0x1010, protocol := 6, action := .drop }

/-- A rule with symmetric bytes arrives at the server and comes back. -/
theorem rule_payload_agrees_iff_symmetric :
    (∃ rule, (afterAdd symmetricArgs).core.rules = [rule] ∧ symmetricArgs.Arrives rule) ∧
      (receiveReply (afterList (afterAdd symmetricArgs).core).sent).bind showRules =
        some (.shown [symmetricRule.members]) := by
  -- One evaluation of the requests and the replies serves all the hypotheses.
  obtain ⟨⟨hdecoded, hopcode, hsent, hok⟩, hrules, hdecoded', hopcode', hok'⟩ :
      ((decodeMessage (addRuleRequest symmetricArgs)).status = .ok ∧
        (decodeMessage (addRuleRequest symmetricArgs)).message.header.opcode = .addRule ∧
        addRulePayload symmetricArgs =
          some (decodeMessage (addRuleRequest symmetricArgs)).message.payload ∧
        ((ControlCore.fresh : ControlCore kDefaultMaxRules).handle (addRuleRequest symmetricArgs)
          (List.replicate 24 0)).result.status = .ok) ∧
      (afterAdd symmetricArgs).core.rules = [symmetricRule] ∧
      (decodeMessage listRulesRequest).status = .ok ∧
      (decodeMessage listRulesRequest).message.header.opcode = .listRules ∧
      ((afterAdd symmetricArgs).core.handle listRulesRequest
        (List.replicate 64 0)).result.status = .ok := by
    decide +kernel
  constructor
  · obtain ⟨payload, hpayload, hadd⟩ := rule_payload_agrees_iff.1 symmetricArgs
      ⟨by decide, by decide, by decide, by decide, by decide⟩
    obtain ⟨rule, hrule, hiff⟩ := hadd (ControlCore.fresh : ControlCore kDefaultMaxRules)
      (addRuleRequest symmetricArgs) (List.replicate 24 0) hdecoded hopcode
      (Option.some.inj (hsent.symm.trans hpayload)) hok
    exact ⟨rule, hrule, hiff.mpr ⟨by decide, by decide, by decide, by decide, by decide⟩⟩
  · obtain ⟨shown, hshown, hall⟩ := rule_payload_agrees_iff.2 (afterAdd symmetricArgs).core
      listRulesRequest (List.replicate 64 0) hdecoded' hopcode' hok'
    rw [hrules] at hall
    cases hall with
    | cons hfields hnil =>
      cases hnil
      have hsymmetric : symmetricRule.ByteSymmetric := by
        unfold ChaosRule.ByteSymmetric
        decide
      rw [← hfields.mpr hsymmetric]
      exact hshown

/-- The client's default rule, as the server stores it: the seed, the id, the port and the
probability are reversed. -/
def reversedRule : ChaosRule :=
  { seed := 0xEFBE000000000000, id := 0x01000000, dstPort := 36895, probability := 4135
    protocol := 6, action := .drop }

/-- The default rule of the client, for port 8080, is stored for port 36895, and what is stored
for port 8080 is shown for port 36895. -/
theorem default_rule_reversed :
    (({} : AddRuleArgs).InRange ∧ (afterAdd {}).result.status = .ok ∧
      (afterAdd {}).core.rules = [reversedRule] ∧ ¬ ({} : AddRuleArgs).Arrives reversedRule) ∧
    ∃ c : ControlCore kDefaultMaxRules, c.rules = [{ dstPort := 8080 }] ∧
      (afterList c).result.status = .ok ∧
      (receiveReply (afterList c).sent).bind showRules =
        some (.shown [[0, 0, 0, 0, 0, 0, 36895, 0, 0, 0, 1]]) := by
  constructor
  · have hadd : (afterAdd {}).result.status = .ok ∧ (afterAdd {}).core.rules = [reversedRule] := by
      decide +kernel
    refine ⟨⟨by decide, by decide, by decide, by decide, by decide⟩, hadd.1, hadd.2, ?_⟩
    intro harrives
    exact absurd harrives.dstPort_eq (by decide)
  · refine ⟨⟨(RuleTable.empty.add { dstPort := 8080 }).2, {}, false⟩, ?_⟩
    decide +kernel

end Client

end ChronosX
