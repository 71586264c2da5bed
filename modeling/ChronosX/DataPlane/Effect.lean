import ChronosX.DataPlane.Permutation
import ChronosX.DataPlane.TurnAround

/-!
# The exact effect of a batch

What `process_packet_batch` does to the UMEM, byte by byte. One descriptor rewrites its frame in
one of two ways: not at all, or by `turnAround`, which depends on the packet found in the frame
and on the rules. The loop bodies of descriptors with disjoint byte ranges do not notice one
another, so a batch does to each frame what its own descriptor does to it.
-/

namespace ChronosX

open Mem

/-! ### The frame of a descriptor -/

/-- The packet that `parse_packet` finds in the frame of a descriptor. -/
def packetOf (base : ℕ) (d : PacketDescriptor) (m : Umem) : PacketView :=
  (run (parsePacket (some (base + d.frameAddress.toNat)) d.frameLength.toNat) m).1

/-- The descriptor passes the check at the start of the loop body. -/
def PacketDescriptor.Valid (umemBase : Option ℕ) (umemSizeBytes : UInt64) (d : PacketDescriptor) :
    Prop :=
  (umemBase.isSome && descriptorWithinUmem d umemSizeBytes) = true

instance (umemBase : Option ℕ) (umemSizeBytes : UInt64) (d : PacketDescriptor) :
    Decidable (d.Valid umemBase umemSizeBytes) :=
  inferInstanceAs (Decidable (_ = true))

section

variable (rules : List ChaosRule) (packet : PacketView)

/-- The packet is accepted, and the decision is neither to drop nor to delay it. -/
def Forwards : Prop :=
  packet.ok = true ∧ (decidePacketFast packet rules).shouldDrop = false ∧
    (decidePacketFast packet rules).shouldDelay = false

/-- The decision is to corrupt the packet, and it has a payload. -/
def Corrupts : Prop :=
  (decidePacketFast packet rules).shouldCorrupt = true ∧ packet.payloadLength ≠ 0

instance : Decidable (Forwards rules packet) := inferInstanceAs (Decidable (_ ∧ _ ∧ _))

instance : Decidable (Corrupts rules packet) := inferInstanceAs (Decidable (_ ∧ _))

/-- The offset in the frame of the payload byte that the hash selects. -/
def corruptedOffset : ℕ :=
  packet.payloadOffset + (decidePacketFast packet rules).hash.toNat % packet.payloadLength

/-- What goes to an output for the frame of a descriptor with the packet. -/
def processedFrame (d : PacketDescriptor) : ProcessedFrame :=
  let decision := if packet.ok then decidePacketFast packet rules else passDecision
  { frameAddress := d.frameAddress, frameLength := d.frameLength
    ruleId := decision.ruleId, action := decision.action }

/-- What goes to the wheel. -/
def delayedFrame (d : PacketDescriptor) : DelayedFrame where
  frameAddress := d.frameAddress
  frameLength := d.frameLength
  ruleId := (decidePacketFast packet rules).ruleId

/-- The verdict on a valid descriptor with the packet. -/
def verdictOf (tickNs : UInt64) (d : PacketDescriptor) : Verdict :=
  if packet.ok = false then .malformed true
  else if (decidePacketFast packet rules).shouldDrop then .drop
  else if (decidePacketFast packet rules).shouldDelay then
    .delay (delayedFrame rules packet d)
      (delayNsToTicks (decidePacketFast packet rules).delayNs tickNs)
  else .transmit (decide (Corrupts rules packet))

/-- The memory after the decision to corrupt, or not to corrupt, has been applied. -/
def corruptPayload (frame : ℕ) (m : Umem) : Umem :=
  if Corrupts rules packet then flipBit (frame + corruptedOffset rules packet) m else m

/-- The memory after the frame with the packet has been sent on. -/
def turnAround (frame : ℕ) (m : Umem) : Umem := swapMacs frame (corruptPayload rules packet frame m)

end

lemma PacketDescriptor.valid_iff (umemBase : Option ℕ) (umemSizeBytes : UInt64)
    (d : PacketDescriptor) :
    d.Valid umemBase umemSizeBytes ↔ ∃ base, umemBase = some base ∧
      d.frameAddress.toNat + d.frameLength.toNat ≤ umemSizeBytes.toNat := by
  rw [Valid, Bool.and_eq_true_iff, descriptorWithinUmem_iff, Option.isSome_iff_exists,
    exists_and_right]

lemma parsed_packetOf (base : ℕ) (d : PacketDescriptor) (m : Umem) :
    Parsed (base + d.frameAddress.toNat) d.frameLength.toNat (packetOf base d m) :=
  (parsePacket_sat _ _ m).post.2

lemma run_parsePacket_eq (base : ℕ) (d : PacketDescriptor) (m : Umem) :
    run (parsePacket (some (base + d.frameAddress.toNat)) d.frameLength.toNat) m =
      (packetOf base d m, m) :=
  Prod.ext rfl (parsePacket_sat _ _ m).post.1

/-! ### One descriptor -/

section

variable {frame length : ℕ} {packet : PacketView} (rules : List ChaosRule) (m : Umem)

lemma run_applyCorruption (hpacket : Parsed frame length packet) (hok : packet.ok = true) :
    run (applyCorruption (decidePacketFast packet rules) (some frame) packet) m =
      (decide (Corrupts rules packet), corruptPayload rules packet frame m) := by
  rw [applyCorruption, corruptPayload]
  by_cases hcorrupt : (decidePacketFast packet rules).shouldCorrupt = true
  · rw [if_pos hcorrupt, corruptPacketPayload]
    by_cases hpayload : packet.payloadLength = 0
    · have hnot : ¬ Corrupts rules packet := fun h => h.2 hpayload
      rw [if_pos (Or.inr (Or.inl hpayload)), if_neg hnot, decide_eq_false hnot]
      rfl
    · have hlt := (hpacket.nested hok).payload_lt (decidePacketFast packet rules).hash hpayload
      have hcorrupts : Corrupts rules packet := ⟨hcorrupt, hpayload⟩
      rw [if_neg, if_neg (Nat.not_le.mpr hlt), if_pos hcorrupts, decide_eq_true hcorrupts]
      · rfl
      · rw [hok]
        rintro (h | h | h)
        · cases h
        · exact hpayload h
        · omega
  · have hnot : ¬ Corrupts rules packet := fun h => hcorrupt h.1
    rw [if_neg hcorrupt, if_neg hnot, decide_eq_false hnot]
    rfl

lemma run_swapEthernetMacs (h : kEthernetHeaderBytes ≤ length) :
    (run (swapEthernetMacs frame length) m).2 = swapMacs frame m :=
  (swapEthernetMacs_sat frame length m h).post

/-- The offset that the hash selects lies in the payload, behind the headers. -/
lemma corruptedOffset_mem (hpacket : Parsed frame length packet) (hok : packet.ok = true)
    (hcorrupts : Corrupts rules packet) :
    34 ≤ packet.payloadOffset ∧ packet.payloadOffset ≤ corruptedOffset rules packet ∧
      corruptedOffset rules packet < packet.payloadOffset + packet.payloadLength ∧
      packet.payloadOffset + packet.payloadLength ≤ length := by
  have hnested := hpacket.nested hok
  have hheader := hnested.header_le
  have hl4 := hnested.l4Offset_le
  have hpayload := hnested.payload_le
  have htotal := hnested.total_le
  rw [hpacket.frameLength_eq] at htotal
  refine ⟨by omega, Nat.le_add_right _ _, ?_, by omega⟩
  apply Nat.add_lt_add_left
  exact Nat.mod_lt _ (Nat.pos_of_ne_zero hcorrupts.2)

end

section

variable (umemSizeBytes : UInt64) (rules : List ChaosRule) (tickNs : UInt64)

/-- What judging a valid descriptor returns, and what it does to the UMEM. -/
lemma run_judge (base : ℕ) {d : PacketDescriptor} (m : Umem)
    (hvalid : d.Valid (some base) umemSizeBytes) :
    run (judge (some base) umemSizeBytes rules tickNs d) m =
      ((processedFrame rules (packetOf base d m) d, verdictOf rules (packetOf base d m) tickNs d),
        if Forwards rules (packetOf base d m) then
          turnAround rules (packetOf base d m) (base + d.frameAddress.toNat) m
        else m) := by
  have hpacket := parsed_packetOf base d m
  have hparse := run_parsePacket_eq base d m
  generalize packetOf base d m = packet at hpacket hparse
  simp only [PacketDescriptor.Valid, Option.isSome_some, Bool.true_and] at hvalid
  simp only [judge, Option.isSome_some, hvalid, Bool.and_self, Bool.not_true, Bool.false_or,
    if_true, Option.map_some, run_bind, hparse]
  cases hok : packet.ok with
  | false =>
    have hnot : ¬ Forwards rules packet := fun h => Bool.false_ne_true (hok.symm.trans h.1)
    rw [if_neg hnot, verdictOf, if_pos hok, processedFrame, hok]
    rfl
  | true =>
    have hok' : ¬ packet.ok = false := fun h => Bool.false_ne_true (h.symm.trans hok)
    rw [verdictOf, if_neg hok', processedFrame, hok]
    simp only [Bool.not_true, Bool.false_eq_true, if_false, if_true]
    cases hdrop : (decidePacketFast packet rules).shouldDrop with
    | true =>
      have hnot : ¬ Forwards rules packet := fun h => Bool.false_ne_true (h.2.1.symm.trans hdrop)
      rw [if_neg hnot]
      rfl
    | false =>
      cases hdelay : (decidePacketFast packet rules).shouldDelay with
      | true =>
        have hnot : ¬ Forwards rules packet :=
          fun h => Bool.false_ne_true (h.2.2.symm.trans hdelay)
        rw [if_neg hnot]
        rfl
      | false =>
        rw [if_pos (show Forwards rules packet from ⟨hok, hdrop, hdelay⟩)]
        simp only [Bool.false_eq_true, if_false, run_bind, run_pure,
          run_swapEthernetMacs _ (hpacket.ethernet_le hok),
          run_applyCorruption rules m hpacket hok]
        rfl

end

/-! ### The bytes of a frame that is sent on -/

/-- From `m` to `m'`, the MAC addresses at the start of the frame are exchanged, the selected
payload byte of a packet to corrupt has bit 0 flipped, and the other bytes are kept. -/
structure SentOn (rules : List ChaosRule) (packet : PacketView) (frame length : ℕ) (m m' : Umem) :
    Prop where
  destination : ∀ i < 6, m' (frame + i) = m (frame + (i + 6))
  source : ∀ i < 6, m' (frame + (i + 6)) = m (frame + i)
  selected : Corrupts rules packet →
    packet.payloadOffset ≤ corruptedOffset rules packet ∧
    corruptedOffset rules packet < packet.payloadOffset + packet.payloadLength ∧
    packet.payloadOffset + packet.payloadLength ≤ length
  corrupted : Corrupts rules packet →
    m' (frame + corruptedOffset rules packet) = m (frame + corruptedOffset rules packet) ^^^ 0x01
  kept : ∀ i, 12 ≤ i → i < length → (Corrupts rules packet → i ≠ corruptedOffset rules packet) →
    m' (frame + i) = m (frame + i)

section

variable {frame length : ℕ} {packet : PacketView} {rules : List ChaosRule} {m : Umem}

lemma swapMacs_low {i : ℕ} (hi : i < 6) : swapMacs frame m (frame + i) = m (frame + (i + 6)) :=
  if_pos ⟨Nat.le_add_right _ _, Nat.add_lt_add_left hi _⟩

lemma swapMacs_high {i : ℕ} (hi : i < 6) : swapMacs frame m (frame + (i + 6)) = m (frame + i) := by
  rw [swapMacs, if_neg (by omega), if_pos ⟨by omega, by omega⟩]
  rfl

lemma swapMacs_behind {i : ℕ} (hi : 12 ≤ i) : swapMacs frame m (frame + i) = m (frame + i) := by
  rw [swapMacs, if_neg (by omega), if_neg (by omega)]

lemma flipBit_self (x : ℕ) : flipBit x m x = m x ^^^ 0x01 := Function.update_self _ _ _

lemma flipBit_of_ne {x y : ℕ} (h : y ≠ x) : flipBit x m y = m y := Function.update_of_ne h _ _

lemma xor_one_ne (b : Byte) : b ^^^ 0x01 ≠ b := by
  intro h
  have hzero := congrArg (b ^^^ ·) h
  simp only [← UInt8.xor_assoc, UInt8.xor_self, UInt8.zero_xor] at hzero
  exact absurd hzero (by decide)

/-- Other bytes than the selected one are kept. -/
lemma corruptPayload_of_ne {i : ℕ}
    (hi : Corrupts rules packet → i ≠ corruptedOffset rules packet) :
    corruptPayload rules packet frame m (frame + i) = m (frame + i) := by
  rw [corruptPayload]
  split_ifs with hcorrupts
  · exact flipBit_of_ne fun h => hi hcorrupts (Nat.add_left_cancel h)
  · rfl

lemma corruptPayload_selected (hcorrupts : Corrupts rules packet) :
    corruptPayload rules packet frame m (frame + corruptedOffset rules packet) =
      m (frame + corruptedOffset rules packet) ^^^ 0x01 := by
  rw [corruptPayload, if_pos hcorrupts, flipBit_self]

/-- `turnAround` does to an accepted packet's frame what `SentOn` says. -/
lemma sentOn_turnAround (hpacket : Parsed frame length packet) (hok : packet.ok = true) :
    SentOn rules packet frame length m (turnAround rules packet frame m) := by
  have hselected := corruptedOffset_mem rules hpacket hok
  -- the payload lies behind the MAC addresses
  have hfront : ∀ i < 12, Corrupts rules packet → i ≠ corruptedOffset rules packet := by
    intro i hi hcorrupts
    obtain ⟨hheader, hle, -, -⟩ := hselected hcorrupts
    omega
  constructor
  · intro i hi
    rw [turnAround, swapMacs_low hi, corruptPayload_of_ne (hfront _ (by omega))]
  · intro i hi
    rw [turnAround, swapMacs_high hi, corruptPayload_of_ne (hfront _ (by omega))]
  · exact fun hcorrupts => (hselected hcorrupts).2
  · intro hcorrupts
    obtain ⟨hheader, hle, -, -⟩ := hselected hcorrupts
    rw [turnAround, swapMacs_behind (by omega), corruptPayload_selected hcorrupts]
  · intro i hbehind _ hi
    rw [turnAround, swapMacs_behind hbehind, corruptPayload_of_ne hi]

/-- Only the bytes of the frame matter. -/
lemma SentOn.congr {m' m'' : Umem} (h : SentOn rules packet frame length m m')
    (hlength : kEthernetHeaderBytes ≤ length) (hsame : SameBytes frame length m' m'') :
    SentOn rules packet frame length m m'' := by
  simp only [kEthernetHeaderBytes] at hlength
  have hbyte : ∀ i < length, m'' (frame + i) = m' (frame + i) := fun i hi =>
    hsame (frame + i) ⟨Nat.le_add_right _ _, Nat.add_lt_add_left hi _⟩
  constructor
  · intro i hi
    rw [hbyte i (by omega), h.destination i hi]
  · intro i hi
    rw [hbyte (i + 6) (by omega), h.source i hi]
  · exact h.selected
  · intro hcorrupts
    obtain ⟨-, hlt, hle⟩ := h.selected hcorrupts
    rw [hbyte _ (by omega), h.corrupted hcorrupts]
  · intro i hbehind hi hne
    rw [hbyte i hi, h.kept i hbehind hi hne]

end

/-! ### A whole batch -/

section

variable {shape : WheelShape} {umemBase : Option ℕ} {umemSizeBytes : UInt64}
  (rules : List ChaosRule) (tickNs : UInt64) {ds : List PacketDescriptor}
  (timingWheel : TimingWheel shape) (txOutput recycleOutput : List ProcessedFrame) (m : Umem)

/-- The valid descriptors of the batch have disjoint byte ranges. -/
def ValidDisjoint (umemBase : Option ℕ) (umemSizeBytes : UInt64) (ds : List PacketDescriptor) :
    Prop :=
  ds.Pairwise fun d d' => d.Valid umemBase umemSizeBytes → d'.Valid umemBase umemSizeBytes →
    d.Disjoint d'

lemma OwnByte.valid {d : PacketDescriptor} {x : ℕ} (h : OwnByte umemBase umemSizeBytes d x) :
    d.Valid umemBase umemSizeBytes := by
  obtain ⟨base, hbase, hwithin, -⟩ := h
  exact (d.valid_iff _ _).mpr ⟨base, hbase, hwithin⟩

/-- A batch does to the bytes of a valid descriptor what the descriptor does alone, and nothing
to other bytes. -/
lemma run_processPacketBatch_snd (hdisjoint : ValidDisjoint umemBase umemSizeBytes ds) :
    let m' := (run (processPacketBatch umemBase umemSizeBytes rules tickNs ds timingWheel txOutput
      recycleOutput) m).2
    (∀ d ∈ ds, ∀ x, OwnByte umemBase umemSizeBytes d x →
      m' x = (run (judge umemBase umemSizeBytes rules tickNs d) m).2 x) ∧
    ∀ x, (∀ d ∈ ds, ¬ OwnByte umemBase umemSizeBytes d x) → m' x = m x := by
  intro m'
  have hm' : m' = (run (each (judge umemBase umemSizeBytes rules tickNs) ds) m).2 := by
    rw [← judgeAll_eq_each]
    exact congrArg Prod.snd (run_processDescriptors umemBase umemSizeBytes rules tickNs _ ds m)
  rw [hm']
  refine (run_each (fun d m => (judge_sat umemBase umemSizeBytes rules tickNs d m).accesses_ok)
    (hdisjoint.imp ?_) m).2
  intro d d' h x hx hx'
  exact (h hx.valid hx'.valid).ownByte umemBase umemSizeBytes x hx hx'

/-- The bytes of a valid descriptor after the batch. -/
lemma sameBytes_processPacketBatch {base : ℕ}
    (hdisjoint : ValidDisjoint (some base) umemSizeBytes ds) {d : PacketDescriptor} (hd : d ∈ ds)
    (hvalid : d.Valid (some base) umemSizeBytes) :
    SameBytes (base + d.frameAddress.toNat) d.frameLength.toNat
      (if Forwards rules (packetOf base d m) then
        turnAround rules (packetOf base d m) (base + d.frameAddress.toNat) m
      else m)
      (run (processPacketBatch (some base) umemSizeBytes rules tickNs ds timingWheel txOutput
        recycleOutput) m).2 := by
  intro x hx
  obtain ⟨base', hbase, hwithin⟩ := (d.valid_iff _ _).mp hvalid
  cases hbase
  rw [(run_processPacketBatch_snd rules tickNs timingWheel txOutput recycleOutput m hdisjoint).1 d hd
    x ⟨base, rfl, hwithin, hx⟩, run_judge umemSizeBytes rules tickNs base m hvalid]

end

/-- A batch whose valid descriptors have disjoint byte ranges. Bytes outside these ranges are
unchanged. The frame of a valid descriptor is unchanged when its packet is malformed, dropped or
delayed; otherwise its MAC addresses are exchanged and, exactly when the decision is to corrupt a
packet with a payload, bit 0 of the byte that the hash selects is flipped. Packet, decision and
hash are those of the bytes before the batch. -/
theorem processPacketBatch_effect {shape : WheelShape} (umemBase : Option ℕ)
    (umemSizeBytes : UInt64) (rules : List ChaosRule) (tickNs : UInt64) (ds : List PacketDescriptor)
    (timingWheel : TimingWheel shape) (txOutput recycleOutput : List ProcessedFrame) (m : Umem)
    (hdisjoint : ValidDisjoint umemBase umemSizeBytes ds) :
    let m' := (run (processPacketBatch umemBase umemSizeBytes rules tickNs ds timingWheel txOutput
      recycleOutput) m).2
    (∀ x, (∀ d ∈ ds, ¬ OwnByte umemBase umemSizeBytes d x) → m' x = m x) ∧
    ∀ base, umemBase = some base → ∀ d ∈ ds, d.Valid umemBase umemSizeBytes →
      let frame := base + d.frameAddress.toNat
      let packet := packetOf base d m
      let decision := decidePacketFast packet rules
      (packet.ok = false ∨ decision.action = .drop ∨ decision.action = .delay →
        SameBytes frame d.frameLength.toNat m m') ∧
      (packet.ok = true → decision.action ≠ .drop → decision.action ≠ .delay →
        SentOn rules packet frame d.frameLength.toNat m m') := by
  intro m'
  refine ⟨(run_processPacketBatch_snd rules tickNs timingWheel txOutput recycleOutput m
    hdisjoint).2, ?_⟩
  rintro base rfl d hd hvalid frame packet decision
  have hbytes := sameBytes_processPacketBatch rules tickNs timingWheel txOutput recycleOutput m
    hdisjoint hd hvalid
  constructor
  · intro hstays
    rw [if_neg] at hbytes
    · exact hbytes
    · rintro ⟨hok, hdrop, hdelay⟩
      rcases hstays with h | h | h
      · exact Bool.false_ne_true (h.symm.trans hok)
      · exact beq_eq_false_iff_ne.mp hdrop h
      · exact beq_eq_false_iff_ne.mp hdelay h
  · intro hok hdrop hdelay
    have hforwards : Forwards rules packet :=
      ⟨hok, beq_eq_false_iff_ne.mpr hdrop, beq_eq_false_iff_ne.mpr hdelay⟩
    have hpacket := parsed_packetOf base d m
    rw [if_pos hforwards] at hbytes
    exact (sentOn_turnAround hpacket hok).congr (hpacket.ethernet_le hok) hbytes

/-- A batch with a datagram to corrupt, a frame that holds no packet, and a descriptor that
reaches beyond the UMEM: the only payload byte of the datagram has its bit flipped. -/
theorem processPacketBatch_effect_udpFrame :
    let ds : List PacketDescriptor := [⟨0, 43, 0⟩, ⟨2048, 60, 0⟩, ⟨0, 5000, 0⟩]
    let rules : List ChaosRule := [{ probability := 10000, action := .corrupt }]
    let m' := (run (processPacketBatch (some 0) 4096 rules 1000000 ds
      (.fresh : TimingWheel eightSlots) [{}] [{}]) (udpFrame 1)).2
    m' 42 = 1 ∧ SameBytes 2048 60 (udpFrame 1) m' := by
  intro ds rules m'
  have hdisjoint : ValidDisjoint (some 0) 4096 ds := by
    have hinvalid : ¬ PacketDescriptor.Valid (some 0) 4096 ⟨0, 5000, 0⟩ := by decide
    refine .cons ?_ (.cons ?_ (List.pairwise_singleton _ _))
    · rintro d' hd' - hvalid
      rcases List.mem_pair.mp hd' with rfl | rfl
      · rintro x ⟨-, hlt⟩ ⟨hle, -⟩
        exact Nat.not_lt.mpr hle (hlt.trans (by decide))
      · exact absurd hvalid hinvalid
    · rintro d' hd' - hvalid
      cases List.mem_singleton.mp hd'
      exact absurd hvalid hinvalid
  have heffect := (processPacketBatch_effect (some 0) 4096 rules 1000000 ds
    (.fresh : TimingWheel eightSlots) [{}] [{}] (udpFrame 1) hdisjoint).2 0 rfl
  constructor
  · have hdatagram := (heffect ⟨0, 43, 0⟩ List.mem_cons_self (by decide)).2
      (by decide +kernel) (by decide +kernel) (by decide +kernel)
    exact (hdatagram.corrupted (by decide +kernel)).trans (by decide +kernel)
  · exact (heffect ⟨2048, 60, 0⟩ (by decide) (by decide)).1 (Or.inl (by decide +kernel))

end ChronosX
