import ChronosX.Protocol.Basic
import ChronosX.Chaos.Basic

/-!
# The rule table

`RuleTable` of `protocol.hpp`, and the bytes of a rule. Rules cross the wire as the struct in
memory, on a little-endian host: `memcpy` to and from a rule is reading and writing its layout in
that order. Seen through `rules()` the table is a list of bounded length.
-/

namespace ChronosX

open ByteLayout

/-! ### A rule in memory -/

/-- The members of `ChaosRule` up to `enabled`; there is no padding between them. -/
def chaosRuleMembers : List Item :=
  [.field 8, .field 8, .field 4, .field 4, .field 4, .field 2, .field 2, .field 2, .field 1,
    .field 1, .field 1]

/-- The layout of `ChaosRule`, whose last three bytes are `reserved`. -/
def chaosRuleLayout : List Item := chaosRuleMembers ++ [.field 1, .field 1, .field 1]

namespace ChaosRule

/-- The values of the members up to `enabled`. -/
def members (rule : ChaosRule) : List ℕ :=
  [rule.seed.toNat, rule.delayNs.toNat, rule.id.toNat, rule.srcIp.toNat, rule.dstIp.toNat,
    rule.srcPort.toNat, rule.dstPort.toNat, rule.probability.toNat, rule.protocol.toNat,
    rule.action.raw.toNat, rule.enabled.toNat]

/-- The values of `reserved`. -/
def reservedBytes (rule : ChaosRule) : List ℕ :=
  [rule.reserved.1.toNat, rule.reserved.2.1.toNat, rule.reserved.2.2.toNat]

def ofFields : List ℕ → ChaosRule
  | [seed, delayNs, id, srcIp, dstIp, srcPort, dstPort, probability, protocol, action, enabled,
      reserved0, reserved1, reserved2] =>
    { seed := .ofNat seed, delayNs := .ofNat delayNs, id := .ofNat id, srcIp := .ofNat srcIp
      dstIp := .ofNat dstIp, srcPort := .ofNat srcPort, dstPort := .ofNat dstPort
      probability := .ofNat probability, protocol := .ofNat protocol, action := ⟨.ofNat action⟩
      enabled := .ofNat enabled
      reserved := (.ofNat reserved0, .ofNat reserved1, .ofNat reserved2) }
  | _ => {}

/-- The bytes of a rule in memory. -/
def toMemory (rule : ChaosRule) : List Byte :=
  write .little chaosRuleLayout (rule.members ++ rule.reservedBytes)

/-- The rule that `std::memcpy` of these bytes makes. -/
def ofMemory (bytes : List Byte) : ChaosRule := ofFields (read .little chaosRuleLayout bytes)

lemma fits_members (rule : ChaosRule) : fits chaosRuleMembers rule.members = true := by
  simp only [chaosRuleMembers, members, fits, toNat_lt_one, toNat_lt_two, toNat_lt_four,
    toNat_lt_eight, decide_true, Bool.and_true]

lemma fits_reservedBytes (rule : ChaosRule) :
    fits [.field 1, .field 1, .field 1] rule.reservedBytes = true := by
  simp only [reservedBytes, fits, toNat_lt_one, decide_true, Bool.and_true]

/-- A rule copied from memory holds what its bytes hold. -/
lemma fields_ofMemory (bytes : List Byte) :
    (ofMemory bytes).members ++ (ofMemory bytes).reservedBytes =
      read .little chaosRuleLayout bytes := by
  have h := fits_read .little chaosRuleLayout bytes
  simp only [chaosRuleLayout, chaosRuleMembers, List.cons_append, List.nil_append,
    ByteLayout.read, fits, Bool.and_eq_true, decide_eq_true_eq] at h
  obtain ⟨h1, h2, h3, h4, h5, h6, h7, h8, h9, h10, h11, h12, h13, h14, -⟩ := h
  simp only [ofMemory, chaosRuleLayout, chaosRuleMembers, List.cons_append, List.nil_append,
    ByteLayout.read, ofFields, members, reservedBytes]
  rw [UInt64.toNat_ofNat_of_lt' h1, UInt64.toNat_ofNat_of_lt' h2, UInt32.toNat_ofNat_of_lt' h3,
    UInt32.toNat_ofNat_of_lt' h4, UInt32.toNat_ofNat_of_lt' h5, UInt16.toNat_ofNat_of_lt' h6,
    UInt16.toNat_ofNat_of_lt' h7, UInt16.toNat_ofNat_of_lt' h8, UInt8.toNat_ofNat_of_lt' h9,
    UInt8.toNat_ofNat_of_lt' h10, UInt8.toNat_ofNat_of_lt' h11, UInt8.toNat_ofNat_of_lt' h12,
    UInt8.toNat_ofNat_of_lt' h13, UInt8.toNat_ofNat_of_lt' h14]

lemma members_ofMemory (bytes : List Byte) :
    (ofMemory bytes).members = read .little chaosRuleMembers bytes := by
  have h := fields_ofMemory bytes
  have hlength : (ofMemory bytes).members.length =
      (read .little chaosRuleMembers bytes).length := by
    simp only [members, chaosRuleMembers, ByteLayout.read, List.length_cons, List.length_nil]
  rw [chaosRuleLayout, read_append] at h
  exact (List.append_inj h hlength).1

/-- A rule is kept byte for byte. -/
lemma toMemory_ofMemory {bytes : List Byte} (h : bytes.length = size chaosRuleLayout) :
    (ofMemory bytes).toMemory = bytes := by
  have hpad : Item.pad ∉ chaosRuleLayout := by decide
  rw [toMemory, fields_ofMemory, write_read .little hpad h.ge]
  exact List.take_of_length_le h.le

/-- A rule in memory begins with its members. -/
lemma toMemory_eq (rule : ChaosRule) :
    rule.toMemory = write .little chaosRuleMembers rule.members ++
      write .little [.field 1, .field 1, .field 1] rule.reservedBytes :=
  write_append .little rule.fits_members _ _

lemma fits_fields (rule : ChaosRule) :
    fits chaosRuleLayout (rule.members ++ rule.reservedBytes) = true := by
  simp only [chaosRuleLayout, chaosRuleMembers, members, reservedBytes, List.cons_append,
    List.nil_append, fits, toNat_lt_one, toNat_lt_two, toNat_lt_four, toNat_lt_eight, decide_true,
    Bool.and_true]

/-- A rule copied to memory and back is the same. -/
lemma ofMemory_toMemory (rule : ChaosRule) : ofMemory rule.toMemory = rule := by
  have hread : read .little chaosRuleLayout (rule.toMemory ++ []) = _ :=
    read_write rule.fits_fields []
  rw [List.append_nil, rereadAll_self .little rule.fits_fields] at hread
  rw [ofMemory, hread]
  simp only [members, reservedBytes, List.cons_append, List.nil_append, ofFields,
    UInt64.ofNat_toNat, UInt32.ofNat_toNat, UInt16.ofNat_toNat, UInt8.ofNat_toNat]

lemma length_toMemory (rule : ChaosRule) : rule.toMemory.length = size chaosRuleLayout := by
  rw [toMemory_eq, List.length_append, length_write rule.fits_members,
    length_write rule.fits_reservedBytes]
  rfl

lemma length_flatMap_toMemory (rules : List ChaosRule) :
    (rules.flatMap toMemory).length = rules.length * size chaosRuleLayout := by
  induction rules with
  | nil => exact (Nat.zero_mul _).symm
  | cons rule rules ih =>
    rw [List.flatMap_cons, List.length_append, ih, List.length_cons, Nat.succ_mul, Nat.add_comm,
      rule.length_toMemory]

end ChaosRule

/-! ### The table -/

/-- The loop of `remove_at`: each of `remaining` slots from `current` on moves down by one. -/
def moveDown : (remaining current : ℕ) → List ChaosRule → List ChaosRule
  | 0, _, slots                   => slots
  | remaining + 1, current, slots =>
    moveDown remaining (current + 1) (slots.set (current - 1) (slots.getD current {}))

/-- The loop of `clear`: the first `count` slots are reset. -/
def resetSlots : (count : ℕ) → List ChaosRule → List ChaosRule
  | 0, slots         => slots
  | count + 1, slots => (resetSlots count slots).set count {}

@[simp] lemma length_moveDown (remaining current : ℕ) (slots : List ChaosRule) :
    (moveDown remaining current slots).length = slots.length := by
  induction remaining generalizing current slots with
  | zero => rfl
  | succ remaining ih => rw [moveDown, ih, List.length_set]

@[simp] lemma length_resetSlots (count : ℕ) (slots : List ChaosRule) :
    (resetSlots count slots).length = slots.length := by
  induction count with
  | zero => rfl
  | succ count ih => rw [resetSlots, List.length_set, ih]

/-- `RuleTable`: the array `rules_` and the number `count_` of slots in use. -/
structure RuleTable (maxRules : ℕ) where
  slots : List ChaosRule
  count : ℕ
  length_slots : slots.length = maxRules
  count_le : count ≤ maxRules

namespace RuleTable

variable {maxRules : ℕ}

def empty : RuleTable maxRules :=
  ⟨List.replicate maxRules {}, 0, List.length_replicate, Nat.zero_le _⟩

variable (t : RuleTable maxRules)

def add (rule : ChaosRule) : ProtocolStatus × RuleTable maxRules :=
  if h : t.count ≥ maxRules then (.ruleTableFull, t)
  else
    (.ok, ⟨t.slots.set t.count rule, t.count + 1, by rw [List.length_set, t.length_slots],
      Nat.lt_of_not_ge h⟩)

/-- `remove_at`. -/
def removeAt (index : ℕ) : ProtocolStatus × RuleTable maxRules :=
  if index ≥ t.count then (.ruleIndexOutOfRange, t)
  else
    let slots := moveDown (t.count - (index + 1)) (index + 1) t.slots
    (.ok, ⟨slots.set (t.count - 1) {}, t.count - 1,
      by rw [List.length_set, length_moveDown, t.length_slots],
      (Nat.sub_le _ _).trans t.count_le⟩)

def clear : RuleTable maxRules :=
  ⟨resetSlots t.count t.slots, 0, by rw [length_resetSlots, t.length_slots], Nat.zero_le _⟩

def rules : List ChaosRule := t.slots.take t.count

/-! ### The table as a list -/

lemma count_le_length : t.count ≤ t.slots.length := t.count_le.trans_eq t.length_slots.symm

@[simp] lemma length_rules : t.rules.length = t.count :=
  List.length_take_of_le t.count_le_length

lemma rules_clear : t.clear.rules = [] := rfl

/-- A table with a free slot takes the rule at the end of its list. -/
lemma add_of_lt (h : t.count < maxRules) (rule : ChaosRule) :
    (t.add rule).1 = .ok ∧ (t.add rule).2.rules = t.rules ++ [rule] := by
  have hslot : t.count < t.slots.length := h.trans_eq t.length_slots.symm
  rw [add, dif_neg (Nat.not_le_of_lt h)]
  refine ⟨rfl, ?_⟩
  simp only [rules]
  rw [List.take_add_one, List.getElem?_set_self hslot, List.take_set_of_le (Nat.le_refl _)]
  rfl

lemma add_of_ge (h : maxRules ≤ t.count) (rule : ChaosRule) :
    t.add rule = (.ruleTableFull, t) := dif_pos h

end RuleTable

/-- The slots in the range of the loop take the rule of their successor. -/
lemma getElem?_moveDown {remaining current : ℕ} {slots : List ChaosRule} (hpos : 0 < current)
    (hbound : current + remaining ≤ slots.length) (i : ℕ) :
    (moveDown remaining current slots)[i]? =
      if current ≤ i + 1 ∧ i + 1 < current + remaining then slots[i + 1]? else slots[i]? := by
  induction remaining generalizing current slots with
  | zero =>
    rw [moveDown, if_neg]
    omega
  | succ remaining ih =>
    rw [moveDown, ih (Nat.succ_pos _) (by rw [List.length_set]; omega)]
    have hcurrent : current < slots.length := by omega
    rw [List.getElem?_set, List.getElem?_set]
    -- The slot before `current` is the one this iteration has written.
    by_cases hi : i + 1 = current
    · subst hi
      rw [if_neg (by omega), if_pos (by omega), if_pos (by omega), if_pos (by omega)]
      rw [List.getD_eq_getElem?_getD, List.getElem?_eq_getElem hcurrent]
      rfl
    · by_cases hrange : current + 1 ≤ i + 1 ∧ i + 1 < current + 1 + remaining
      · rw [if_pos hrange, if_neg (by omega), if_pos (by omega)]
      · rw [if_neg hrange, if_neg (by omega), if_neg (by omega)]

/-- Removing a rule deletes the element at its index. -/
lemma RuleTable.removeAt_of_lt {maxRules index : ℕ} (t : RuleTable maxRules)
    (h : index < t.count) :
    (t.removeAt index).1 = .ok ∧ (t.removeAt index).2.rules = t.rules.eraseIdx index := by
  have hcount := t.count_le_length
  rw [removeAt, if_neg (Nat.not_le_of_lt h)]
  refine ⟨rfl, ?_⟩
  apply List.ext_getElem?
  intro i
  simp only [rules]
  rw [List.take_set_of_le (Nat.le_refl _), List.getElem?_take, List.getElem?_eraseIdx,
    List.getElem?_take, List.getElem?_take, getElem?_moveDown (Nat.succ_pos _) (by omega)]
  by_cases hi : i < index
  · rw [if_pos hi, if_pos (by omega), if_neg (by omega), if_pos (by omega)]
  · rw [if_neg hi]
    by_cases hlast : i < t.count - 1
    · rw [if_pos hlast, if_pos (by omega), if_pos (by omega)]
    · rw [if_neg hlast, if_neg (by omega)]

end ChronosX
