import ChronosX.Demo.Packets
import ChronosX.DataPlane.Forwarding
import ChronosX.ControlPlane.RuleList
import ChronosX.Allocator.Basic

/-!
# The demo

`run_demo` of `main.cpp` is the one place where the control plane and the data plane meet: rules are
sent to the control plane as requests, test packets are built in frames from the allocator, and the
data plane processes them under the rules of the core. The rules, the destination ports and the size
of the payload are arguments here; what is printed is left out.

The data plane then does with each packet what the first 128 of the rules decide for its port.
Nothing on the way is lost: a rule comes out of its request as it went in, the packets do not
overwrite each other, and the outputs and the slots of the wheel have room.
-/

namespace ChronosX

open Mem ByteLayout

def kDemoFrameCount : ℕ := 16
def kDemoTimingSlots : UInt64 := 64
def kDemoMaxFramesPerSlot : ℕ := 16

/-- `FrameAllocator<kDemoFrameCount>`. -/
def demoUmem : UmemShape where
  frameCount := kDemoFrameCount
  frameSize := ⟨UInt64.ofNat kDefaultFrameSizeBytes, by decide⟩
  frameCount_pos := by decide
  frameSize_ge := by decide
  frameCount_le := by decide
  umemSize_lt := by decide

/-- `TimingWheel<kDemoTimingSlots, kDemoMaxFramesPerSlot>`. -/
def demoWheel : WheelShape where
  slotCount := ⟨kDemoTimingSlots, by decide⟩
  maxFramesPerSlot := kDemoMaxFramesPerSlot
  maxFramesPerSlot_pos := by decide

/-- The lambda `install_rule`. -/
def installRule (controlCore : ControlPlaneCore) (rule : ChaosRule) : ControlPlaneCore :=
  let request := List.replicate 512 0
  let response := List.replicate 512 0
  let (encoded, request) :=
    encodeMessage { opcode := .addRule, sequence := rule.id } rule.toMemory request
  controlCore.afterRequest (request.take encoded.bytesWritten) response

/-- The loop that allocates a frame for each of `count` packets. -/
def allocateHandles {shape : UmemShape} (count : ℕ) (allocator : FrameAllocator shape) :
    List FrameHandle × FrameAllocator shape :=
  FrameAllocator.allocateEach .dataPlane false count allocator

/-- The descriptor of a test packet in a frame. -/
def testDescriptor (handle : FrameHandle) (payloadSize : ℕ) : PacketDescriptor where
  frameAddress := handle.address
  frameLength := UInt32.ofNat
    (kEthernetHeaderBytes + kIPv4BaseHeaderBytes + kTCPBaseHeaderBytes + payloadSize)
  options := 0

/-- The loop that builds the packets, each with its port in its frame. -/
def buildPackets (payloadSize : ℕ) : List (UInt16 × FrameHandle) → UmemProg (List PacketDescriptor)
  | []                     => return []
  | (port, handle) :: rest => do
    buildTestPacket handle.address.toNat port payloadSize
    let descriptors ← buildPackets payloadSize rest
    return testDescriptor handle payloadSize :: descriptors

/-- What `run_demo` leaves. -/
structure Demo where
  controlCore : ControlPlaneCore
  batch : Batch demoWheel

/-- `run_demo` with other rules, ports and payloads. `process_packet_batch` is called without the
size of the UMEM, so it takes the largest value. -/
def runDemoWith (rules : List ChaosRule) (ports : List UInt16) (payloadSize : ℕ) : Demo :=
  let controlCore := rules.foldl installRule .fresh
  let handles := (allocateHandles ports.length (.fresh : FrameAllocator demoUmem)).1
  let (rxDescriptors, umem) := run (buildPackets payloadSize (ports.zip handles)) fun _ => 0
  let (batch, _) := run (processPacketBatch (some 0) (UInt64.ofNat (2 ^ 64 - 1))
    controlCore.rules kDefaultTimingWheelTickNs rxDescriptors .fresh
    (List.replicate ports.length {}) (List.replicate ports.length {})) umem
  { controlCore, batch }

/-- `drop_rule` and `delay_rule`. -/
def demoRules : List ChaosRule :=
  [{ seed := 0xBEEF, id := 1, dstPort := 8080, probability := kProbabilityScale
     protocol := kIPv4ProtocolTCP, action := .drop, enabled := 1 },
   { seed := 0xCAFE, delayNs := 100000, id := 2, dstPort := 9090
     probability := kProbabilityScale / 2, protocol := kIPv4ProtocolTCP, action := .delay
     enabled := 1 }]

/-- The ports of `test_packets`. -/
def demoPorts : List UInt16 := [8080, 9090, 443, 8080]

def runDemo : Demo := runDemoWith demoRules demoPorts 32

/-! ### Installing rules -/

/-- The request that `install_rule` sends. -/
def installRequest (rule : ChaosRule) : List Byte :=
  (MessageHeader.sealed { opcode := .addRule, sequence := rule.id } rule.toMemory).message
    rule.toMemory

lemma installRule_eq (core : ControlPlaneCore) (rule : ChaosRule) :
    installRule core rule = core.afterRequest (installRequest rule) (List.replicate 512 0) := by
  have hlength : rule.toMemory.length = 40 := rule.length_toMemory
  have hpayload : rule.toMemory.length ≤ kMaxControlPayloadBytes := by
    rw [hlength]
    decide
  have hroom : kProtocolHeaderBytes + rule.toMemory.length ≤
      (List.replicate 512 (0 : Byte)).length := by
    rw [hlength, List.length_replicate]
    decide
  rw [installRule, encodeMessage_eq _ hpayload hroom]
  dsimp only
  rw [List.take_left' (MessageHeader.length_message _ _), installRequest]

lemma requested_installRequest (rule : ChaosRule) :
    RuleChange.requested (installRequest rule) = some (.append rule) := by
  have hlength : rule.toMemory.length = size chaosRuleLayout := rule.length_toMemory
  have hpayload : rule.toMemory.length ≤ kMaxControlPayloadBytes := by
    rw [hlength]
    decide
  have hdecoded := decodeMessage_sealed_self { opcode := .addRule, sequence := rule.id } hpayload
  have hopcode : (MessageHeader.sealed { opcode := .addRule, sequence := rule.id }
    rule.toMemory).opcode = .addRule := rfl
  simp only [RuleChange.requested, installRequest, hdecoded, hopcode, hlength, if_true,
    ne_eq, not_true_eq_false, if_false, rule.ofMemory_toMemory]

/-- The core has the first rules that were installed, and they are published. -/
lemma foldl_installRule (rules : List ChaosRule) :
    let core := rules.foldl installRule .fresh
    core.rules = rules.take kDefaultMaxRules ∧
      ControlPlaneCore.Reachable ControlPlaneCore.ReplyFits core := by
  induction rules using List.reverseRecOn with
  | nil => exact ⟨rfl, .fresh⟩
  | append_singleton rules rule ih =>
    obtain ⟨hrules, hreachable⟩ := ih
    have hroom : kProtocolHeaderBytes ≤ (List.replicate 512 (0 : Byte)).length := by
      rw [List.length_replicate]
      decide
    rw [List.foldl_append, List.foldl_cons, List.foldl_nil, installRule_eq]
    refine ⟨?_, .request _ _ hreachable (Or.inl hroom)⟩
    have hstep : ruleListStep kDefaultMaxRules (rules.take kDefaultMaxRules) (installRequest rule) =
        if (rules.take kDefaultMaxRules).length < kDefaultMaxRules then
          rules.take kDefaultMaxRules ++ [rule]
        else rules.take kDefaultMaxRules := by
      rw [ruleListStep, requested_installRequest]
      rfl
    rw [ControlPlaneCore.afterRequest_rules, hrules, hstep, List.length_take]
    by_cases hfull : rules.length < kDefaultMaxRules
    · rw [if_pos (Nat.lt_of_le_of_lt (Nat.min_le_right _ _) hfull), List.take_of_length_le hfull.le,
        List.take_of_length_le]
      rw [List.length_append]
      exact hfull
    · rw [Nat.not_lt] at hfull
      rw [Nat.min_eq_left hfull, if_neg (Nat.lt_irrefl _), List.take_append_of_le_length hfull]

/-! ### Building packets -/

/-- The packets of the demo with their ports and frames: the first in the first frame and so on. -/
def demoPackets (ports : List UInt16) : List (UInt16 × FrameHandle) :=
  ports.zip ((List.finRange demoUmem.frameCount).map demoUmem.handle)

lemma zip_allocateHandles {ports : List UInt16} (h : ports.length ≤ kDemoFrameCount) :
    ports.zip (allocateHandles ports.length (.fresh : FrameAllocator demoUmem)).1 =
      demoPackets ports := by
  have hlength : ports.length ≤ (FrameAllocator.fresh : FrameAllocator demoUmem).freeStack.length :=
    h.trans_eq List.length_finRange.symm
  have hhandles : ((List.finRange demoUmem.frameCount).map demoUmem.handle).length =
      kDemoFrameCount := by
    rw [List.length_map, List.length_finRange]
    rfl
  have hzip : demoPackets ports = (ports.take (min ports.length _)).zip (List.take _ _) :=
    List.zip_eq_zip_take_min
  rw [hhandles, Nat.min_eq_left h, List.take_length] at hzip
  rw [allocateHandles, FrameAllocator.allocateEach_eq hlength, List.map_take, hzip]
  rfl

section

variable {payloadSize : ℕ} {ports : List UInt16}

lemma run_buildPackets_fst (payloadSize : ℕ) (l : List (UInt16 × FrameHandle)) (m : Umem) :
    (run (buildPackets payloadSize l) m).1 =
      l.map fun packet => testDescriptor packet.2 payloadSize := by
  induction l generalizing m with
  | nil => rfl
  | cons packet l ih =>
    simp only [buildPackets, run_bind, run_pure, ih, List.map_cons]

lemma frameLength_testDescriptor (h : 54 + payloadSize ≤ kDefaultFrameSizeBytes)
    (handle : FrameHandle) : (testDescriptor handle payloadSize).frameLength.toNat =
      54 + payloadSize := by
  refine UInt32.toNat_ofNat_of_lt' ?_
  exact Nat.lt_of_le_of_lt h (by decide)

/-- Packets in different frames do not overlap. -/
lemma disjoint_demoPackets (h : 54 + payloadSize ≤ kDefaultFrameSizeBytes) (ports : List UInt16) :
    (demoPackets ports).Pairwise fun packet packet' =>
      (testDescriptor packet.2 payloadSize).Disjoint (testDescriptor packet'.2 payloadSize) := by
  rw [List.pairwise_iff_getElem]
  intro i j hi hj hlt x hx hx'
  rw [frameLength_testDescriptor h] at hx hx'
  have hsize : demoUmem.frameSize.toNat = 4096 := rfl
  simp only [demoPackets, List.getElem_zip, List.getElem_map, List.getElem_finRange, InFrame,
    testDescriptor, UmemShape.handle_address, hsize, Fin.val_cast] at hx hx'
  rw [kDefaultFrameSizeBytes] at h
  omega

/-- The packets lie in the UMEM. -/
lemma address_demoPackets_lt {packet : UInt16 × FrameHandle} (h : packet ∈ demoPackets ports) :
    packet.2.address.toNat < kDemoFrameCount * kDefaultFrameSizeBytes := by
  obtain ⟨-, hhandle⟩ := List.of_mem_zip h
  obtain ⟨i, -, hi⟩ := List.mem_map.mp hhandle
  rw [← hi, UmemShape.handle_address]
  exact Nat.mul_lt_mul_of_pos_right i.isLt (by decide)

/-- What is built in other frames does not matter. -/
lemma sameBytes_buildPackets (h : 54 + payloadSize ≤ kDefaultFrameSizeBytes)
    {d : PacketDescriptor} {l : List (UInt16 × FrameHandle)}
    (hdisjoint : ∀ packet ∈ l, d.Disjoint (testDescriptor packet.2 payloadSize)) (m : Umem) :
    SameBytes d.frameAddress.toNat d.frameLength.toNat m
      (run (buildPackets payloadSize l) m).2 := by
  induction l generalizing m with
  | nil => exact SameBytes.refl m
  | cons packet l ih =>
    rw [List.forall_mem_cons] at hdisjoint
    simp only [buildPackets, run_bind, run_pure]
    refine SameBytes.trans (fun x hx => ?_) (ih hdisjoint.2 _)
    have hother := hdisjoint.1 x hx
    rw [frameLength_testDescriptor h] at hother
    exact withTestPacket_outside packet.2.address.toNat packet.1 payloadSize m hother

/-- The parser finds each packet as it was built. -/
lemma packetOf_buildPackets (h : 54 + payloadSize ≤ kDefaultFrameSizeBytes)
    {l : List (UInt16 × FrameHandle)}
    (hdisjoint : l.Pairwise fun packet packet' =>
      (testDescriptor packet.2 payloadSize).Disjoint (testDescriptor packet'.2 payloadSize))
    (m : Umem) : ∀ packet ∈ l,
      packetOf 0 (testDescriptor packet.2 payloadSize) (run (buildPackets payloadSize l) m).2 =
        testView packet.2.address.toNat packet.1 payloadSize := by
  induction l generalizing m with
  | nil => exact fun _ hmem => absurd hmem List.not_mem_nil
  | cons packet l ih =>
    obtain ⟨hfirst, hrest⟩ := List.pairwise_cons.mp hdisjoint
    rw [List.forall_mem_cons]
    simp only [buildPackets, run_bind, run_pure]
    refine ⟨?_, ih hrest _⟩
    rw [packetOf_congr (sameBytes_buildPackets h hfirst _), packetOf, frameLength_testDescriptor h,
      Nat.zero_add]
    have hwrapped : 40 ≤ (40 + payloadSize) % 2 ^ 16 := by
      rw [kDefaultFrameSizeBytes] at h
      omega
    exact ((accepts_testPacket packet.2.address.toNat packet.1 payloadSize m).mpr
      ⟨hwrapped, rfl⟩).1

/-! ### Decisions and outputs -/

/-- The decision on a test packet, which depends on its port and on the size of its payload. -/
def testDecision (rules : List ChaosRule) (payloadSize : ℕ) (port : UInt16) : ChaosDecision :=
  decidePacketFast (testView 0 port payloadSize) rules

lemma decidePacketFast_testView (rules : List ChaosRule) (frame : ℕ) (port : UInt16) :
    decidePacketFast (testView frame port payloadSize) rules =
      testDecision rules payloadSize port := by
  rw [testDecision]
  induction rules with
  | nil => rfl
  | cons rule rules ih =>
    rw [decidePacketFast, decidePacketFast, ih]
    rfl

namespace ChaosDecision

variable (decision : ChaosDecision)

/-- The packet is sent on. -/
def sendsOn : Bool := !decision.shouldDrop && !decision.shouldDelay

/-- The ticks that the packet is delayed by. -/
def ticks : UInt64 := delayNsToTicks decision.delayNs kDefaultTimingWheelTickNs

/-- The packet is delayed by no more ticks than there are slots. -/
def holds : Bool := decision.shouldDelay && decide (decision.ticks ≤ kDemoTimingSlots)

/-- What goes to an output for the packet. -/
def processed (d : PacketDescriptor) : ProcessedFrame where
  frameAddress := d.frameAddress
  frameLength := d.frameLength
  ruleId := decision.ruleId
  action := decision.action

/-- What goes to a fresh wheel for the packet. -/
def delayed (d : PacketDescriptor) : DelayedFrame where
  frameAddress := d.frameAddress
  frameLength := d.frameLength
  ruleId := decision.ruleId
  releaseTick := (.fresh : TimingWheel demoWheel).releaseTick decision.ticks

variable {decision} in
lemma shouldDelay_eq_false (h : decision.shouldDrop = true) : decision.shouldDelay = false := by
  rw [shouldDrop, beq_iff_eq] at h
  rw [shouldDelay, h]
  rfl

end ChaosDecision

/-- What a frame adds to the batch of the demo is what the decision says. -/
structure Share.Follows (share : Share) (decision : ChaosDecision) (d : PacketDescriptor) :
    Prop where
  tx_eq : share.tx = if decision.sendsOn then [decision.processed d] else []
  recycle_eq : share.recycle =
    if !decision.sendsOn && !decision.holds then [decision.processed d] else []
  delayed_eq : share.delayed = if decision.holds then [decision.delayed d] else []
  seen_eq : share.stats.packetsSeen = 1
  dropped_eq : share.stats.packetsDropped = share.recycle.length
  waiting_eq : share.stats.packetsDelayed = share.delayed.length
  malformed_eq : share.stats.packetsMalformed = 0
  overflows_eq : share.stats.outputOverflows = 0

/-- The packet of the demo, judged by the rules. -/
def judgedPacket (rules : List ChaosRule) (payloadSize : ℕ) (packet : UInt16 × FrameHandle) :
    Judged :=
  let d := testDescriptor packet.2 payloadSize
  let view := testView packet.2.address.toNat packet.1 payloadSize
  (d, processedFrame rules view d, verdictOf rules view kDefaultTimingWheelTickNs d)

lemma follows_share {rules : List ChaosRule} {view : PacketView} (hok : view.ok = true)
    {decision : ChaosDecision} (hdecision : decidePacketFast view rules = decision)
    (d : PacketDescriptor) :
    (Judged.share kDemoTimingSlots 0 (d, processedFrame rules view d,
      verdictOf rules view kDefaultTimingWheelTickNs d)).Follows decision d := by
  have hticks : delayNsToTicks decision.delayNs kDefaultTimingWheelTickNs = decision.ticks := rfl
  have hprocessed : processedFrame rules view d = decision.processed d := by
    simp only [processedFrame, hok, hdecision, if_true]
    rfl
  rw [hprocessed, verdictOf, hok, hdecision, hticks, if_neg Bool.noConfusion]
  by_cases hdrop : decision.shouldDrop = true
  · have hdelay := ChaosDecision.shouldDelay_eq_false hdrop
    rw [if_pos hdrop]
    constructor <;> simp [Judged.share, ChaosDecision.sendsOn, ChaosDecision.holds, hdrop, hdelay]
  rw [if_neg hdrop]
  rw [Bool.not_eq_true] at hdrop
  by_cases hdelay : decision.shouldDelay = true
  · rw [if_pos hdelay]
    by_cases hlate : decision.ticks > kDemoTimingSlots
    · have hholds : ¬ decision.ticks ≤ kDemoTimingSlots := UInt64.not_le.mpr hlate
      constructor <;>
        simp [Judged.share, ChaosDecision.sendsOn, ChaosDecision.holds, hdelay, hlate, hholds]
    · have hholds : decision.ticks ≤ kDemoTimingSlots := UInt64.not_lt.mp hlate
      have hdelayed : { delayedFrame rules view d with
          releaseTick := 0 + if decision.ticks = 0 then 1 else decision.ticks } =
          decision.delayed d := by
        rw [delayedFrame, hdecision]
        rfl
      constructor
      case delayed_eq =>
        simp only [Judged.share, if_neg hlate, ChaosDecision.holds, hdelay, decide_eq_true hholds,
          Bool.and_self, if_true, hdelayed]
      all_goals
        simp [Judged.share, ChaosDecision.sendsOn, ChaosDecision.holds, hdelay, hlate, hholds]
  · rw [if_neg hdelay]
    rw [Bool.not_eq_true] at hdelay
    constructor <;> simp [Judged.share, ChaosDecision.sendsOn, ChaosDecision.holds, hdrop, hdelay]

lemma flatMap_ite_singleton {α β : Type} (l : List α) (p : α → Bool) (f : α → β) :
    (l.flatMap fun x => if p x then [f x] else []) = (l.filter p).map f := by
  induction l with
  | nil => rfl
  | cons x l ih =>
    rw [List.flatMap_cons, ih, List.filter_cons]
    split_ifs <;> rfl

/-- A counter of a batch is the sum of what the frames add to it. -/
lemma foldl_add_counter {counter : DataPlaneBatchStats → ℕ}
    (hadd : ∀ s t, counter (s.add t) = counter s + counter t) (shares : List Share)
    (s : DataPlaneBatchStats) :
    counter (shares.foldl (fun s share => s.add share.stats) s) =
      counter s + (shares.map fun share => counter share.stats).sum := by
  induction shares generalizing s with
  | nil => rfl
  | cons share shares ih =>
    rw [List.foldl_cons, ih, hadd, List.map_cons, List.sum_cons, Nat.add_assoc]

/-- What the packets of the demo add to the batch. -/
def demoShares (rules : List ChaosRule) (ports : List UInt16) (payloadSize : ℕ) : List Share :=
  (demoPackets ports).map fun packet =>
    (judgedPacket rules payloadSize packet).share kDemoTimingSlots 0

lemma follows_packet (rules : List ChaosRule) (packet : UInt16 × FrameHandle) :
    ((judgedPacket rules payloadSize packet).share kDemoTimingSlots 0).Follows
      (testDecision rules payloadSize packet.1) (testDescriptor packet.2 payloadSize) :=
  follows_share rfl (decidePacketFast_testView rules _ _) _

/-- The frames that go to one output. -/
lemma flatMap_demoShares (rules : List ChaosRule) (ports : List UInt16) (payloadSize : ℕ) {α : Type}
    {output : Share → List α} {p : ChaosDecision → Bool}
    {f : ChaosDecision → PacketDescriptor → α}
    (h : ∀ share decision d, Share.Follows share decision d →
      output share = if p decision then [f decision d] else []) :
    (demoShares rules ports payloadSize).flatMap output =
      ((demoPackets ports).filter fun packet => p (testDecision rules payloadSize packet.1)).map
        fun packet => f (testDecision rules payloadSize packet.1)
          (testDescriptor packet.2 payloadSize) := by
  rw [demoShares, List.flatMap_map, ← flatMap_ite_singleton]
  exact List.flatMap_congr fun packet _ => h _ _ _ (follows_packet rules packet)

/-- What the packets add to a counter. -/
lemma foldl_demoShares (rules : List ChaosRule) (ports : List UInt16) (payloadSize : ℕ)
    {counter : DataPlaneBatchStats → ℕ}
    (hadd : ∀ s t, counter (s.add t) = counter s + counter t) (hzero : counter {} = 0)
    {weight : Share → ℕ}
    (h : ∀ share decision d, Share.Follows share decision d → counter share.stats = weight share) :
    counter ((demoShares rules ports payloadSize).foldl (fun s share => s.add share.stats) {}) =
      ((demoShares rules ports payloadSize).map weight).sum := by
  rw [foldl_add_counter hadd, hzero, Nat.zero_add, demoShares, List.map_map, List.map_map]
  exact congrArg List.sum
    (List.map_congr_left fun packet _ => h _ _ _ (follows_packet rules packet))

lemma length_demoPackets (h : ports.length ≤ kDemoFrameCount) :
    (demoPackets ports).length = ports.length := by
  rw [demoPackets, List.length_zip, List.length_map, List.length_finRange]
  exact Nat.min_eq_left h

/-- The batch of the demo before the packets. -/
def demoBatch (count : ℕ) : Batch demoWheel where
  timingWheel := .fresh
  txOutput := List.replicate count {}
  recycleOutput := List.replicate count {}

/-- All packets of the demo find room. -/
lemma gains_demo (rules : List ChaosRule) (payloadSize : ℕ) (h : ports.length ≤ kDemoFrameCount) :
    (demoBatch ports.length).Gains (demoShares rules ports payloadSize)
      ((demoBatch ports.length).routeAll
        ((demoPackets ports).map (judgedPacket rules payloadSize))) := by
  have hlength : ((demoPackets ports).map (judgedPacket rules payloadSize)).length =
      ports.length := by
    rw [List.length_map, length_demoPackets h]
  have hroom : 0 + ((demoPackets ports).map (judgedPacket rules payloadSize)).length ≤
      (List.replicate ports.length ({} : ProcessedFrame)).length := by
    rw [hlength, Nat.zero_add, List.length_replicate]
  have hshares : demoShares rules ports payloadSize =
      ((demoPackets ports).map (judgedPacket rules payloadSize)).map
        (·.share kDemoTimingSlots 0) := by
    rw [List.map_map]
    rfl
  have hdelayed : ((demoBatch ports.length).delayedFrames
      ((demoPackets ports).map (judgedPacket rules payloadSize))).length ≤
        kDemoMaxFramesPerSlot := by
    have heq : (demoBatch ports.length).delayedFrames
        ((demoPackets ports).map (judgedPacket rules payloadSize)) =
        (demoShares rules ports payloadSize).flatMap (·.delayed) :=
      congrArg (List.flatMap Share.delayed) hshares.symm
    rw [heq, flatMap_demoShares rules ports payloadSize fun _ _ _ h => h.delayed_eq,
      List.length_map]
    exact (List.length_filter_le _ _).trans ((length_demoPackets h).trans_le h)
  have hfits : (demoBatch ports.length).timingWheel.Fits ((demoBatch ports.length).delayedFrames
      ((demoPackets ports).map (judgedPacket rules payloadSize))) := by
    intro j
    have hcount : ((demoBatch ports.length).timingWheel.slots j).count = 0 := rfl
    rw [hcount, Nat.zero_add]
    exact (List.length_filter_le _ _).trans hdelayed
  rw [hshares]
  exact Batch.gains_routeAll _ _ hroom hroom (Batch.scheduleStatuses_of_fits _ _ hroom hroom hfits)

/-- The batch of the demo. -/
lemma batch_runDemoWith (rules : List ChaosRule) (hports : ports.length ≤ kDemoFrameCount)
    (hsize : 54 + payloadSize ≤ kDefaultFrameSizeBytes) :
    (runDemoWith rules ports payloadSize).batch =
      (demoBatch ports.length).routeAll ((demoPackets ports).map
        (judgedPacket (rules.take kDefaultMaxRules) payloadSize)) := by
  obtain ⟨hrules, -⟩ := foldl_installRule rules
  have hdisjoint := disjoint_demoPackets hsize ports
  have hview := packetOf_buildPackets hsize hdisjoint fun _ => 0
  have hbuilt := run_buildPackets_fst payloadSize (demoPackets ports) fun _ => 0
  simp only [runDemoWith, zip_allocateHandles hports, hrules, hbuilt, processPacketBatch,
    run_processDescriptors]
  rw [zip_judgeAll _ _ _ _ (List.pairwise_map.mpr hdisjoint), List.map_map]
  refine congrArg _ (List.map_congr_left fun packet hpacket => ?_)
  have hvalid : (testDescriptor packet.2 payloadSize).Valid (some 0)
      (UInt64.ofNat (2 ^ 64 - 1)) := by
    refine (PacketDescriptor.valid_iff _ _ _).mpr ⟨0, rfl, ?_⟩
    rw [frameLength_testDescriptor hsize]
    have haddress := address_demoPackets_lt hpacket
    have hmax : (UInt64.ofNat (2 ^ 64 - 1)).toNat = 2 ^ 64 - 1 := rfl
    have hframe : (testDescriptor packet.2 payloadSize).frameAddress = packet.2.address := rfl
    rw [kDemoFrameCount, kDefaultFrameSizeBytes] at haddress
    rw [kDefaultFrameSizeBytes] at hsize
    rw [hmax, hframe]
    omega
  rw [Function.comp_apply, judged, run_judge _ _ _ 0 _ hvalid, hview packet hpacket]
  rfl

end

/-- The demo applies the rules. The control plane has and publishes the first 128 rules that are
sent to it, and these decide on each packet by its port: the packets that are neither dropped nor
delayed are sent on, those that are delayed by at most 64 ticks wait in the slots of their release
ticks, and the others are recycled, all in the order of the ports. No packet is found malformed and
no output overflows. -/
theorem demo_applies_rules (rules : List ChaosRule) (ports : List UInt16) (payloadSize : ℕ)
    (hports : ports.length ≤ kDemoFrameCount)
    (hsize : 54 + payloadSize ≤ kDefaultFrameSizeBytes) :
    let demo := runDemoWith rules ports payloadSize
    let installed := rules.take kDefaultMaxRules
    let decision := fun packet : UInt16 × FrameHandle => testDecision installed payloadSize packet.1
    let descriptor := fun packet : UInt16 × FrameHandle => testDescriptor packet.2 payloadSize
    let packets := demoPackets ports
    let sent := packets.filter fun packet => (decision packet).sendsOn
    let held := packets.filter fun packet => (decision packet).holds
    let recycled := packets.filter fun packet =>
      !(decision packet).sendsOn && !(decision packet).holds
    let stats := demo.batch.result.stats
    demo.controlCore.rules = installed ∧ demo.controlCore.currentRules = installed ∧
    demo.batch.tx = sent.map (fun packet => (decision packet).processed (descriptor packet)) ∧
    demo.batch.recycle =
      recycled.map (fun packet => (decision packet).processed (descriptor packet)) ∧
    (∀ j, (demo.batch.timingWheel.slots j).frames =
      (held.map fun packet => (decision packet).delayed (descriptor packet)).filter
        fun frame => demoWheel.slotCount.slot frame.releaseTick = j) ∧
    stats.packetsSeen = ports.length ∧ stats.packetsDropped = recycled.length ∧
    stats.packetsDelayed = held.length ∧ stats.packetsMalformed = 0 ∧
    stats.outputOverflows = 0 := by
  intro demo installed decision descriptor packets sent held recycled stats
  obtain ⟨hrules, hreachable⟩ := foldl_installRule rules
  have hgains := gains_demo installed payloadSize hports
  rw [← batch_runDemoWith rules hports hsize] at hgains
  have hsent : (demoShares installed ports payloadSize).flatMap (·.tx) = _ :=
    flatMap_demoShares installed ports payloadSize fun _ _ _ h => h.tx_eq
  have hrecycled : (demoShares installed ports payloadSize).flatMap (·.recycle) =
      recycled.map fun packet => (decision packet).processed (descriptor packet) :=
    flatMap_demoShares installed ports payloadSize (p := fun d => !d.sendsOn && !d.holds)
      fun _ _ _ h => h.recycle_eq
  have hheld : (demoShares installed ports payloadSize).flatMap (·.delayed) =
      held.map fun packet => (decision packet).delayed (descriptor packet) :=
    flatMap_demoShares installed ports payloadSize fun _ _ _ h => h.delayed_eq
  have hstats : stats = (demoShares installed ports payloadSize).foldl
      (fun s share => s.add share.stats) {} := hgains.stats_eq
  refine ⟨hrules, hreachable.coherent.trans hrules, hgains.tx_eq.trans hsent,
    hgains.recycle_eq.trans hrecycled, fun j => ?_, ?_, ?_, ?_, ?_, ?_⟩
  · rw [hgains.accepted j, hheld]
    rfl
  · rw [hstats, foldl_demoShares installed ports payloadSize (fun _ _ => rfl) rfl
      fun _ _ _ h => h.seen_eq, List.map_const', List.sum_replicate, smul_eq_mul, Nat.mul_one,
      demoShares, List.length_map, length_demoPackets hports]
  · rw [hstats, foldl_demoShares installed ports payloadSize (fun _ _ => rfl) rfl
      fun _ _ _ h => h.dropped_eq, ← List.length_flatMap, hrecycled, List.length_map]
  · rw [hstats, foldl_demoShares installed ports payloadSize (fun _ _ => rfl) rfl
      fun _ _ _ h => h.waiting_eq, ← List.length_flatMap, hheld, List.length_map]
  · rw [hstats, foldl_demoShares installed ports payloadSize (fun _ _ => rfl) rfl
      fun _ _ _ h => h.malformed_eq, List.map_const', List.sum_replicate, smul_zero]
  · rw [hstats, foldl_demoShares installed ports payloadSize (fun _ _ => rfl) rfl
      fun _ _ _ h => h.overflows_eq, List.map_const', List.sum_replicate, smul_zero]

/-- The demo as it is: the two packets to port 8080 are dropped, and the roll of the delay rule lets
the packet to port 9090 pass. -/
theorem demo_applies_rules_runDemo :
    runDemo.controlCore.currentRules = demoRules ∧
    runDemo.batch.tx.map (·.frameAddress) = [4096, 8192] ∧
    runDemo.batch.recycle.map (·.frameAddress) = [0, 12288] ∧
    runDemo.batch.result.stats.packetsDropped = 2 := by
  obtain ⟨-, hrules, htx, hrecycle, -, -, hdropped, -⟩ :=
    demo_applies_rules demoRules demoPorts 32 (by decide) (by decide)
  refine ⟨hrules, ?_, ?_, ?_⟩
  · rw [runDemo, htx]
    decide +kernel
  · rw [runDemo, hrecycle]
    decide +kernel
  · rw [runDemo, hdropped]
    decide +kernel

end ChronosX
