import ChronosX.DataPlane.Delay

/-!
# A batch of disjoint frames

A batch of valid descriptors with disjoint byte ranges forwards each packet as it was found at the
start of the batch. With no rules every decision is to pass, and the batch is a filter: the frames
that hold a packet have their MAC addresses exchanged and go to the TX output, the others go to the
recycle output as they are, both in the order of the batch, and the timing wheel is not used.
-/

namespace ChronosX

open Mem

/-- The frame of the descriptor holds a packet that the parser accepts. -/
def PacketDescriptor.HoldsPacket (d : PacketDescriptor) (m : Umem) : Bool := (packetOf 0 d m).ok

/-- What goes to an output for a descriptor when there are no rules. -/
def PacketDescriptor.passed (d : PacketDescriptor) : ProcessedFrame where
  frameAddress := d.frameAddress
  frameLength := d.frameLength
  ruleId := passDecision.ruleId
  action := passDecision.action

/-- The UMEM with the MAC addresses of the frames exchanged, one frame after another. -/
def swapAll (ds : List PacketDescriptor) (m : Umem) : Umem :=
  ds.foldl (fun m d => swapMacs d.frameAddress.toNat m) m

section

variable (umemSizeBytes : UInt64) (tickNs : UInt64)

/-! ### One descriptor -/

lemma not_corrupts_nil (packet : PacketView) : ¬ Corrupts [] packet := fun h => nomatch h.1

lemma turnAround_nil (packet : PacketView) (frame : ℕ) (m : Umem) :
    turnAround [] packet frame m = swapMacs frame m := by
  rw [turnAround, corruptPayload, if_neg (not_corrupts_nil packet)]

lemma forwards_nil (packet : PacketView) : Forwards [] packet ↔ packet.ok = true :=
  ⟨fun h => h.1, fun h => ⟨h, rfl, rfl⟩⟩

/-- Judging a valid descriptor without rules. -/
lemma run_judge_nil {d : PacketDescriptor} (m : Umem) (hvalid : d.Valid (some 0) umemSizeBytes) :
    run (judge (some 0) umemSizeBytes [] tickNs d) m =
      ((d.passed, if d.HoldsPacket m then .transmit false else .malformed true),
        if d.HoldsPacket m then swapMacs d.frameAddress.toNat m else m) := by
  rw [run_judge umemSizeBytes [] tickNs 0 m hvalid, turnAround_nil, Nat.zero_add,
    PacketDescriptor.HoldsPacket]
  have hprocessed : processedFrame [] (packetOf 0 d m) d = d.passed := by
    simp only [processedFrame, decidePacketFast, ite_self]
    rfl
  rw [hprocessed, if_congr (forwards_nil _) rfl rfl]
  cases hok : (packetOf 0 d m).ok with
  | false => simp [verdictOf, hok]
  | true =>
    have hnot := not_corrupts_nil (packetOf 0 d m)
    have hdrop : (decidePacketFast (packetOf 0 d m) []).shouldDrop = false := rfl
    have hdelay : (decidePacketFast (packetOf 0 d m) []).shouldDelay = false := rfl
    simp [verdictOf, hok, hnot, hdrop, hdelay]

lemma judged_nil {d : PacketDescriptor} (m : Umem) (hvalid : d.Valid (some 0) umemSizeBytes) :
    judged (some 0) umemSizeBytes [] tickNs m d =
      (d, d.passed, if d.HoldsPacket m then .transmit false else .malformed true) := by
  rw [judged, run_judge_nil umemSizeBytes tickNs m hvalid]

end

/-! ### The UMEM -/

/-- The UMEM after the packets to forward have been sent on, one after another. The packets and
the decisions are those found in the memory `m`. -/
def forwardAll (rules : List ChaosRule) (m : Umem) (ds : List PacketDescriptor) (m' : Umem) : Umem :=
  ds.foldl (fun m' d =>
    if Forwards rules (packetOf 0 d m) then
      turnAround rules (packetOf 0 d m) d.frameAddress.toNat m'
    else m') m'

section

variable (umemSizeBytes : UInt64) (rules : List ChaosRule) (tickNs : UInt64)

/-- The packet in a frame depends on the bytes of the frame alone. -/
lemma packetOf_congr {d : PacketDescriptor} {m m' : Umem}
    (h : SameBytes d.frameAddress.toNat d.frameLength.toNat m m') :
    packetOf 0 d m' = packetOf 0 d m := by
  rw [packetOf, packetOf, Nat.zero_add, h.parsePacket_eq]

/-- Judging a descriptor leaves disjoint frames alone. -/
lemma sameBytes_judge {d d' : PacketDescriptor} (hdisjoint : d.Disjoint d') (m : Umem) :
    SameBytes d'.frameAddress.toNat d'.frameLength.toNat m
      (run (judge (some 0) umemSizeBytes rules tickNs d) m).2 := by
  intro x hx
  refine run_of_notMem_accesses _ m fun haccess => ?_
  obtain ⟨base, hbase, -, hown⟩ :=
    (judge_sat (some 0) umemSizeBytes rules tickNs d m).accesses_ok x haccess
  cases hbase
  rw [Nat.zero_add] at hown
  exact hdisjoint x hown hx

/-- The memory that judging a batch leaves. The frames are examined as they were at the start. -/
lemma judgeAll_snd {ds : List PacketDescriptor} {m m' : Umem}
    (hvalid : ∀ d ∈ ds, d.Valid (some 0) umemSizeBytes)
    (hdisjoint : ds.Pairwise PacketDescriptor.Disjoint)
    (hsame : ∀ d ∈ ds, SameBytes d.frameAddress.toNat d.frameLength.toNat m m') :
    (run (judgeAll (some 0) umemSizeBytes rules tickNs ds) m').2 = forwardAll rules m ds m' := by
  induction ds generalizing m' with
  | nil => rfl
  | cons d ds ih =>
    rw [List.forall_mem_cons] at hvalid hsame
    obtain ⟨hfirst, hrest⟩ := List.pairwise_cons.mp hdisjoint
    have hnext := ih hvalid.2 hrest fun d' hd' =>
      (hsame.2 d' hd').trans (sameBytes_judge umemSizeBytes rules tickNs (hfirst d' hd') m')
    rw [run_judge umemSizeBytes rules tickNs 0 m' hvalid.1, packetOf_congr hsame.1,
      Nat.zero_add] at hnext
    rw [forwardAll, List.foldl_cons, ← forwardAll, ← hnext]
    simp only [judgeAll, run_bind, run_pure, run_judge umemSizeBytes rules tickNs 0 m' hvalid.1,
      packetOf_congr hsame.1, Nat.zero_add]

end

/-- Without rules the packets are sent on with their MAC addresses exchanged. -/
lemma forwardAll_nil (m : Umem) (ds : List PacketDescriptor) (m' : Umem) :
    forwardAll [] m ds m' = swapAll (ds.filter (·.HoldsPacket m)) m' := by
  induction ds generalizing m' with
  | nil => rfl
  | cons d ds ih =>
    rw [forwardAll, List.foldl_cons, ← forwardAll, ih, turnAround_nil]
    by_cases hok : d.HoldsPacket m = true
    · rw [if_pos ((forwards_nil _).mpr hok), List.filter_cons, if_pos hok]
      rfl
    · rw [if_neg (mt (forwards_nil _).mp hok), List.filter_cons, if_neg hok]

section

variable {umemSizeBytes : UInt64} (tickNs : UInt64)

/-! ### The outputs -/

variable {shape : WheelShape}

/-- The judged descriptors of a batch without rules. -/
def passes (m : Umem) (ds : List PacketDescriptor) : List Judged :=
  ds.map fun d => (d, d.passed, if d.HoldsPacket m then .transmit false else .malformed true)

lemma scheduleStatuses_passes (b : Batch shape) (m : Umem) (ds : List PacketDescriptor) :
    b.scheduleStatuses (passes m ds) = [] := by
  induction ds generalizing b with
  | nil => rfl
  | cons d ds ih =>
    rw [passes, List.map_cons, Batch.scheduleStatuses, ← passes, ih, List.append_nil]
    cases d.HoldsPacket m <;> rfl

lemma timingWheel_routeAll_passes (b : Batch shape) (m : Umem) (ds : List PacketDescriptor) :
    (b.routeAll (passes m ds)).timingWheel = b.timingWheel := by
  induction ds generalizing b with
  | nil => rfl
  | cons d ds ih =>
    rw [passes, List.map_cons, Batch.routeAll, List.foldl_cons, ← Batch.routeAll, ← passes, ih]
    cases d.HoldsPacket m with
    | false => exact timingWheel_appendRecycle _ _
    | true => exact timingWheel_transmit _ _

/-- The shares of the frames that hold a packet, and of those that do not. -/
lemma shares_passes (slotCount now : UInt64) (m : Umem) (ds : List PacketDescriptor) :
    let shares := (passes m ds).map (·.share slotCount now)
    shares.flatMap (·.tx) = (ds.filter (·.HoldsPacket m)).map (·.passed) ∧
    shares.flatMap (·.recycle) = (ds.filter fun d => !d.HoldsPacket m).map (·.passed) ∧
    ∀ stats : DataPlaneBatchStats,
      (shares.foldl (fun s share => s.add share.stats) stats).packetsSeen =
        stats.packetsSeen + ds.length ∧
      (shares.foldl (fun s share => s.add share.stats) stats).packetsDropped =
        stats.packetsDropped + (ds.filter fun d => !d.HoldsPacket m).length := by
  induction ds with
  | nil => exact ⟨rfl, rfl, fun stats => ⟨rfl, rfl⟩⟩
  | cons d ds ih =>
    obtain ⟨htx, hrecycle, hstats⟩ := ih
    simp only [passes, List.map_cons, List.flatMap_cons, List.foldl_cons] at htx hrecycle hstats ⊢
    rw [htx, hrecycle]
    refine ⟨?_, ?_, fun stats => ?_⟩
    · cases hok : d.HoldsPacket m <;> simp [hok, Judged.share]
    · cases hok : d.HoldsPacket m <;> simp [hok, Judged.share]
    · obtain ⟨hseen, hdropped⟩ := hstats (stats.add (Judged.share slotCount now
        (d, d.passed, if d.HoldsPacket m then .transmit false else .malformed true)).stats)
      rw [hseen, hdropped]
      cases hok : d.HoldsPacket m
      · simp only [hok, Judged.share, DataPlaneBatchStats.add, Bool.false_eq_true, if_false,
          Bool.not_false, List.filter_cons_of_pos, List.length_cons]
        omega
      · simp only [hok, Judged.share, DataPlaneBatchStats.add, if_true, Bool.not_true,
          Bool.false_eq_true, not_false_eq_true, List.filter_cons_of_neg, List.length_cons]
        omega

/-- What a batch without rules does. -/
structure Passed (ds : List PacketDescriptor) (timingWheel : TimingWheel shape) (m : Umem)
    (out : Batch shape × Umem) : Prop where
  tx_eq : out.1.tx = (ds.filter (·.HoldsPacket m)).map (·.passed)
  recycle_eq : out.1.recycle = (ds.filter fun d => !d.HoldsPacket m).map (·.passed)
  packetsSeen_eq : out.1.result.stats.packetsSeen = ds.length
  packetsDropped_eq :
    out.1.result.stats.packetsDropped = (ds.filter fun d => !d.HoldsPacket m).length
  timingWheel_eq : out.1.timingWheel = timingWheel
  umem_eq : out.2 = swapAll (ds.filter (·.HoldsPacket m)) m

/-- A batch without rules forwards what holds a packet and recycles the rest. -/
lemma passed_processPacketBatch {ds : List PacketDescriptor} (timingWheel : TimingWheel shape)
    {txOutput recycleOutput : List ProcessedFrame} (m : Umem)
    (hvalid : ∀ d ∈ ds, d.Valid (some 0) umemSizeBytes)
    (hdisjoint : ds.Pairwise PacketDescriptor.Disjoint) (htx : ds.length ≤ txOutput.length)
    (hrecycle : ds.length ≤ recycleOutput.length) :
    Passed ds timingWheel m (run (processPacketBatch (some 0) umemSizeBytes [] tickNs ds timingWheel
      txOutput recycleOutput) m) := by
  have hjudged : ds.zip (run (judgeAll (some 0) umemSizeBytes [] tickNs ds) m).1 = passes m ds := by
    rw [zip_judgeAll (some 0) umemSizeBytes [] tickNs hdisjoint]
    exact List.map_congr_left fun d hd => judged_nil umemSizeBytes tickNs m (hvalid d hd)
  have hlength : (passes m ds).length = ds.length := List.length_map _
  have hgains := Batch.gains_routeAll { timingWheel, txOutput, recycleOutput } (passes m ds)
    (by rw [hlength, Nat.zero_add]; exact htx) (by rw [hlength, Nat.zero_add]; exact hrecycle)
    (by rw [scheduleStatuses_passes]; exact List.not_mem_nil)
  obtain ⟨hsent, hreturned, hstats⟩ :=
    shares_passes shape.slotCount.size timingWheel.currentTick m ds
  obtain ⟨hseen, hdropped⟩ := hstats {}
  rw [processPacketBatch, run_processDescriptors, hjudged]
  constructor
  · exact hgains.tx_eq.trans hsent
  · exact hgains.recycle_eq.trans hreturned
  · rw [hgains.stats_eq]
    exact hseen.trans (Nat.zero_add _)
  · rw [hgains.stats_eq]
    exact hdropped.trans (Nat.zero_add _)
  · exact timingWheel_routeAll_passes _ m ds
  · rw [← forwardAll_nil]
    exact judgeAll_snd umemSizeBytes [] tickNs hvalid hdisjoint fun d _ => SameBytes.refl m

end

end ChronosX
