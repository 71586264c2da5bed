import ChronosX.DataPlane.Accounting
import ChronosX.Chaos.Flow

/-!
# The order of a batch

When the outputs have room and no slot of the wheel is full, what `process_packet_batch` adds to
its outputs for a frame depends on the verdict and the current tick alone: the frame's `Share`.
When moreover the descriptors' byte ranges are disjoint, the verdict is the one the frame gets
alone. The order of the batch then shows only in the order of the outputs.
-/

namespace ChronosX

open Mem

/-! ### Shares -/

def DataPlaneBatchStats.add (s t : DataPlaneBatchStats) : DataPlaneBatchStats where
  packetsSeen := s.packetsSeen + t.packetsSeen
  packetsDropped := s.packetsDropped + t.packetsDropped
  packetsDelayed := s.packetsDelayed + t.packetsDelayed
  packetsCorrupted := s.packetsCorrupted + t.packetsCorrupted
  packetsMalformed := s.packetsMalformed + t.packetsMalformed
  txFrames := s.txFrames + t.txFrames
  recycleFrames := s.recycleFrames + t.recycleFrames
  scheduleFailures := s.scheduleFailures + t.scheduleFailures
  outputOverflows := s.outputOverflows + t.outputOverflows
  invalidDescriptors := s.invalidDescriptors + t.invalidDescriptors
  bytesSeen := s.bytesSeen + t.bytesSeen

lemma DataPlaneBatchStats.add_right_comm (s t u : DataPlaneBatchStats) :
    (s.add t).add u = (s.add u).add t := by
  simp only [add, Nat.add_right_comm]

/-- What one frame adds to the batch. -/
structure Share where
  stats : DataPlaneBatchStats
  tx : List ProcessedFrame := []
  recycle : List ProcessedFrame := []
  delayed : List DelayedFrame := []

/-- A judged descriptor. -/
abbrev Judged := PacketDescriptor × ProcessedFrame × Verdict

/-- The share of a judged descriptor in a batch that starts at the tick `now` of a wheel with
`slotCount` slots. -/
def Judged.share (slotCount now : UInt64) (e : Judged) : Share :=
  match e with
  | (d, processed, .malformed descriptorValid) =>
    { stats :=
        { packetsSeen := 1, packetsDropped := 1, packetsMalformed := 1, recycleFrames := 1
          invalidDescriptors := if descriptorValid then 0 else 1
          bytesSeen := d.frameLength.toNat }
      recycle := [processed] }
  | (d, processed, .drop) =>
    { stats :=
        { packetsSeen := 1, packetsDropped := 1, recycleFrames := 1
          bytesSeen := d.frameLength.toNat }
      recycle := [processed] }
  | (d, processed, .delay delayed delayTicks) =>
    if delayTicks > slotCount then
      { stats :=
          { packetsSeen := 1, packetsDropped := 1, recycleFrames := 1, scheduleFailures := 1
            bytesSeen := d.frameLength.toNat }
        recycle := [processed] }
    else
      { stats := { packetsSeen := 1, packetsDelayed := 1, bytesSeen := d.frameLength.toNat }
        delayed :=
          [{ delayed with releaseTick := now + if delayTicks = 0 then 1 else delayTicks }] }
  | (d, processed, .transmit corrupted) =>
    { stats :=
        { packetsSeen := 1, txFrames := 1, packetsCorrupted := if corrupted then 1 else 0
          bytesSeen := d.frameLength.toNat }
      tx := [processed] }

lemma Judged.share_length_le (slotCount now : UInt64) (e : Judged) :
    (e.share slotCount now).tx.length ≤ 1 ∧ (e.share slotCount now).recycle.length ≤ 1 := by
  obtain ⟨d, processed, verdict⟩ := e
  cases verdict with
  | delay delayed delayTicks =>
    simp only [share]
    split_ifs <;> simp
  | _ => simp [share]

namespace Batch

variable {shape : WheelShape} {b b' b'' : Batch shape}

/-- From `b` to `b'` the batch has received the shares. -/
structure Gains (b : Batch shape) (shares : List Share) (b' : Batch shape) : Prop where
  stats_eq : b'.result.stats = shares.foldl (fun s share => s.add share.stats) b.result.stats
  txCount_eq : b'.result.txCount = b.result.txCount + (shares.flatMap (·.tx)).length
  recycleCount_eq :
    b'.result.recycleCount = b.result.recycleCount + (shares.flatMap (·.recycle)).length
  txOutput_length : b'.txOutput.length = b.txOutput.length
  recycleOutput_length : b'.recycleOutput.length = b.recycleOutput.length
  tx_eq : b'.tx = b.tx ++ shares.flatMap (·.tx)
  recycle_eq : b'.recycle = b.recycle ++ shares.flatMap (·.recycle)
  currentTick_eq : b'.timingWheel.currentTick = b.timingWheel.currentTick
  accepted : b.timingWheel.Accepted b'.timingWheel (shares.flatMap (·.delayed))

namespace Gains

variable {shares shares' : List Share}

lemma refl (b : Batch shape) : Gains b [] b where
  stats_eq := rfl
  txCount_eq := rfl
  recycleCount_eq := rfl
  txOutput_length := rfl
  recycleOutput_length := rfl
  tx_eq := (List.append_nil _).symm
  recycle_eq := (List.append_nil _).symm
  currentTick_eq := rfl
  accepted := fun _ => (List.append_nil _).symm

lemma trans (h : Gains b shares b') (h' : Gains b' shares' b'') :
    Gains b (shares ++ shares') b'' where
  stats_eq := by rw [h'.stats_eq, h.stats_eq, List.foldl_append]
  txCount_eq := by
    rw [h'.txCount_eq, h.txCount_eq, List.flatMap_append, List.length_append, Nat.add_assoc]
  recycleCount_eq := by
    rw [h'.recycleCount_eq, h.recycleCount_eq, List.flatMap_append, List.length_append,
      Nat.add_assoc]
  txOutput_length := h'.txOutput_length.trans h.txOutput_length
  recycleOutput_length := h'.recycleOutput_length.trans h.recycleOutput_length
  tx_eq := by rw [h'.tx_eq, h.tx_eq, List.flatMap_append, List.append_assoc]
  recycle_eq := by rw [h'.recycle_eq, h.recycle_eq, List.flatMap_append, List.append_assoc]
  currentTick_eq := h'.currentTick_eq.trans h.currentTick_eq
  accepted := by
    intro j
    rw [h'.accepted j, h.accepted j, List.flatMap_append, List.filter_append, List.append_assoc]

/-- One frame takes at most one entry of each output. -/
lemma counts_le {e : Judged} {slotCount now : UInt64} (h : Gains b [e.share slotCount now] b') :
    b'.result.txCount ≤ b.result.txCount + 1 ∧
      b'.result.recycleCount ≤ b.result.recycleCount + 1 := by
  obtain ⟨htx, hrecycle⟩ := e.share_length_le slotCount now
  rw [h.txCount_eq, h.recycleCount_eq, List.flatMap_singleton, List.flatMap_singleton]
  exact ⟨Nat.add_le_add_left htx _, Nat.add_le_add_left hrecycle _⟩

end Gains

/-- A frame that is emitted gives its share. -/
lemma Emits.gains {tx recycle : List ProcessedFrame} {delayed : List DelayedFrame}
    (h : Emits b tx recycle delayed b') {stats : DataPlaneBatchStats}
    (hstats : b'.result.stats = b.result.stats.add stats)
    (htick : b'.timingWheel.currentTick = b.timingWheel.currentTick) :
    Gains b [{ stats, tx, recycle, delayed }] b' := by
  constructor
  case stats_eq => exact hstats
  case txOutput_length => exact h.txOutput_length
  case recycleOutput_length => exact h.recycleOutput_length
  case currentTick_eq => exact htick
  all_goals rw [List.flatMap_singleton]
  case txCount_eq => exact h.txCount_eq
  case recycleCount_eq => exact h.recycleCount_eq
  case tx_eq => exact h.tx_eq
  case recycle_eq => exact h.recycle_eq
  case accepted => exact h.accepted

/-- A frame appended to a recycle output with room. -/
lemma gains_recycled (b b₀ : Batch shape) (same : b.SameOutputs b₀)
    (htick : b₀.timingWheel.currentTick = b.timingWheel.currentTick)
    (hroom : b.result.recycleCount < b.recycleOutput.length) (processed : ProcessedFrame)
    {stats : DataPlaneBatchStats}
    (hstats : { b₀.result.stats with recycleFrames := b₀.result.stats.recycleFrames + 1 } =
      b.result.stats.add stats) :
    Gains b [{ stats, recycle := [processed] }] (b₀.appendRecycle processed) := by
  have hemits := same.emits_recycled hroom processed
  rw [← same.recycleCount_eq, ← same.recycleOutput_eq] at hroom
  rw [appendRecycle, if_neg (Nat.not_le.mpr hroom)] at hemits ⊢
  exact hemits.gains hstats htick

/-- A frame written to a TX output with room. -/
lemma gains_transmitted (b b₀ : Batch shape) (same : b.SameOutputs b₀)
    (htick : b₀.timingWheel.currentTick = b.timingWheel.currentTick)
    (hroom : b.result.txCount < b.txOutput.length) (processed : ProcessedFrame)
    {stats : DataPlaneBatchStats}
    (hstats : { b₀.result.stats with txFrames := b₀.result.stats.txFrames + 1 } =
      b.result.stats.add stats) :
    Gains b [{ stats, tx := [processed] }] (b₀.transmit processed) := by
  have hemits := same.emits_transmitted hroom processed
  rw [← same.txCount_eq, ← same.txOutput_eq] at hroom
  rw [transmit, if_pos hroom] at hemits ⊢
  exact hemits.gains hstats htick

/-! ### A batch with room -/

/-- What `schedule` returns for a frame with the given verdict, if it is called. -/
def scheduleStatus (b : Batch shape) : Verdict → Option ScheduleStatus
  | .delay delayed delayTicks => some (b.timingWheel.schedule delayed delayTicks).1
  | _ => none

/-- What the calls of `schedule` return while the judged descriptors are routed. -/
def scheduleStatuses (b : Batch shape) : List Judged → List ScheduleStatus
  | [] => []
  | e :: l =>
    (b.scheduleStatus e.2.2).toList ++ ((b.see e.1).route e.2.1 e.2.2).scheduleStatuses l

/-- A frame that finds room gets its share. -/
lemma gains_route (b : Batch shape) (e : Judged) (htx : b.result.txCount < b.txOutput.length)
    (hrecycle : b.result.recycleCount < b.recycleOutput.length)
    (hslot : b.scheduleStatus e.2.2 ≠ some .slotFull) :
    Gains b [e.share shape.slotCount.size b.timingWheel.currentTick]
      ((b.see e.1).route e.2.1 e.2.2) := by
  obtain ⟨d, processed, verdict⟩ := e
  cases verdict with
  | malformed descriptorValid =>
    cases descriptorValid with
    | true =>
      exact gains_recycled b ((b.see d).countMalformed.countDropped)
        ⟨rfl, rfl, rfl, rfl, fun _ => rfl⟩ rfl hrecycle processed rfl
    | false =>
      exact gains_recycled b ((b.see d).countMalformed.countInvalid.countDropped)
        ⟨rfl, rfl, rfl, rfl, fun _ => rfl⟩ rfl hrecycle processed rfl
  | drop =>
    exact gains_recycled b ((b.see d).countDropped)
      ⟨rfl, rfl, rfl, rfl, fun _ => rfl⟩ rfl hrecycle processed rfl
  | delay delayed delayTicks =>
    have hsee : (b.see d).timingWheel = b.timingWheel := rfl
    by_cases hk : delayTicks > shape.slotCount.size
    · simp only [route, Judged.share, hsee, if_pos hk,
        TimingWheel.schedule_of_gt b.timingWheel delayed hk, reduceCtorEq, if_false]
      refine gains_recycled b _ ?_ ?_ hrecycle processed ?_
      · exact ⟨rfl, rfl, rfl, rfl, fun _ => rfl⟩
      · rfl
      · rfl
    · rcases b.timingWheel.schedule_of_le delayed hk with ⟨_, heq⟩ | ⟨-, hfull⟩
      · simp only [route, Judged.share, hsee, if_neg hk, heq, if_true]
        exact (b.emits_delayed d heq).gains rfl rfl
      · exact absurd (congrArg some hfull) hslot
  | transmit corrupted =>
    cases corrupted with
    | true =>
      exact gains_transmitted b ((b.see d).countCorrupted)
        ⟨rfl, rfl, rfl, rfl, fun _ => rfl⟩ rfl htx processed rfl
    | false =>
      exact gains_transmitted b (b.see d)
        ⟨rfl, rfl, rfl, rfl, fun _ => rfl⟩ rfl htx processed rfl

/-- A batch with room for all gets all its shares. -/
lemma gains_routeAll (b : Batch shape) (l : List Judged)
    (htx : b.result.txCount + l.length ≤ b.txOutput.length)
    (hrecycle : b.result.recycleCount + l.length ≤ b.recycleOutput.length)
    (hslots : .slotFull ∉ b.scheduleStatuses l) :
    Gains b (l.map (·.share shape.slotCount.size b.timingWheel.currentTick)) (b.routeAll l) := by
  induction l generalizing b with
  | nil => exact .refl b
  | cons e l ih =>
    rw [List.length_cons] at htx hrecycle
    rw [scheduleStatuses, List.mem_append, not_or, Option.mem_toList] at hslots
    have hstep := gains_route b e (by omega) (by omega) hslots.1
    obtain ⟨htxCount, hrecycleCount⟩ := hstep.counts_le
    have hrest := ih ((b.see e.1).route e.2.1 e.2.2)
      (by rw [hstep.txOutput_length]; omega) (by rw [hstep.recycleOutput_length]; omega) hslots.2
    rw [hstep.currentTick_eq] at hrest
    exact hstep.trans hrest

/-- The frames the wheel is to accept for the judged descriptors. -/
def delayedFrames (b : Batch shape) (l : List Judged) : List DelayedFrame :=
  (l.map (·.share shape.slotCount.size b.timingWheel.currentTick)).flatMap (·.delayed)

/-- What was accepted had room. -/
lemma Gains.fits {shares : List Share} (h : Gains b shares b') :
    b.timingWheel.Fits (shares.flatMap (·.delayed)) := by
  have hfits := (h.accepted.fits_iff []).mp (TimingWheel.fits_nil _)
  rwa [List.append_nil] at hfits

/-- A frame with room in its slot is not refused for a full slot. -/
lemma scheduleStatus_of_fits (b : Batch shape) (e : Judged) {rest : List DelayedFrame}
    (hfits : b.timingWheel.Fits
      ((e.share shape.slotCount.size b.timingWheel.currentTick).delayed ++ rest)) :
    b.scheduleStatus e.2.2 ≠ some .slotFull := by
  obtain ⟨d, processed, verdict⟩ := e
  cases verdict with
  | delay delayed delayTicks =>
    intro hfull
    have hstatus : (b.timingWheel.schedule delayed delayTicks).1 = .slotFull :=
      Option.some.inj hfull
    by_cases hk : delayTicks > shape.slotCount.size
    · simp [TimingWheel.schedule_of_gt b.timingWheel delayed hk] at hstatus
    · rcases b.timingWheel.schedule_of_le delayed hk with ⟨_, heq⟩ | ⟨hroom, -⟩
      · simp [heq] at hstatus
      · have hslot := hfits (shape.slotCount.slot (b.timingWheel.releaseTick delayTicks))
        simp only [Judged.share, if_neg hk, List.singleton_append] at hslot
        rw [List.filter_cons_of_pos (by simp [TimingWheel.releaseTick]), List.length_cons] at hslot
        omega
  | _ => simp [scheduleStatus]

/-- When the frames fit, no call of `schedule` meets a full slot. -/
lemma scheduleStatuses_of_fits (b : Batch shape) (l : List Judged)
    (htx : b.result.txCount + l.length ≤ b.txOutput.length)
    (hrecycle : b.result.recycleCount + l.length ≤ b.recycleOutput.length)
    (hfits : b.timingWheel.Fits (b.delayedFrames l)) : .slotFull ∉ b.scheduleStatuses l := by
  induction l generalizing b with
  | nil => exact List.not_mem_nil
  | cons e l ih =>
    rw [List.length_cons] at htx hrecycle
    rw [delayedFrames, List.map_cons, List.flatMap_cons] at hfits
    have hslot := b.scheduleStatus_of_fits e hfits
    have hstep := gains_route b e (by omega) (by omega) hslot
    obtain ⟨htxCount, hrecycleCount⟩ := hstep.counts_le
    have haccepted := hstep.accepted
    rw [List.flatMap_singleton] at haccepted
    rw [scheduleStatuses, List.mem_append, not_or, Option.mem_toList]
    refine ⟨hslot, ih _ ?_ ?_ ?_⟩
    · rw [hstep.txOutput_length]
      omega
    · rw [hstep.recycleOutput_length]
      omega
    · rw [delayedFrames, hstep.currentTick_eq, haccepted.fits_iff]
      exact hfits

/-- The same shares in another order: the counters agree, and the outputs and the slots hold the
same frames. -/
lemma Gains.perm {b₁ b₂ : Batch shape} {shares shares' : List Share} (h : Gains b shares b₁)
    (h' : Gains b shares' b₂) (hperm : shares.Perm shares') :
    b₂.result = b₁.result ∧ b₂.tx.Perm b₁.tx ∧ b₂.recycle.Perm b₁.recycle ∧
      ∀ j, (b₂.timingWheel.slots j).frames.Perm (b₁.timingWheel.slots j).frames := by
  have hflat : ∀ {α : Type} (f : Share → List α), (shares'.flatMap f).Perm (shares.flatMap f) :=
    fun f => hperm.symm.flatMap_right f
  have hstats : b₂.result.stats = b₁.result.stats := by
    rw [h.stats_eq, h'.stats_eq]
    refine (hperm.foldl_eq' (fun _ _ _ _ s => ?_) _).symm
    exact s.add_right_comm _ _
  have htxCount : b₂.result.txCount = b₁.result.txCount := by
    rw [h.txCount_eq, h'.txCount_eq, (hflat (·.tx)).length_eq]
  have hrecycleCount : b₂.result.recycleCount = b₁.result.recycleCount := by
    rw [h.recycleCount_eq, h'.recycleCount_eq, (hflat (·.recycle)).length_eq]
  refine ⟨?_, ?_, ?_, fun j => ?_⟩
  · cases hb₁ : b₁.result
    cases hb₂ : b₂.result
    simp_all
  · rw [h.tx_eq, h'.tx_eq]
    exact (hflat (·.tx)).append_left _
  · rw [h.recycle_eq, h'.recycle_eq]
    exact (hflat (·.recycle)).append_left _
  · rw [h.accepted j, h'.accepted j]
    exact ((hflat (·.delayed)).filter _).append_left _

/-- Routing in another order. -/
lemma routeAll_perm (b : Batch shape) {l l' : List Judged} (hperm : l.Perm l')
    (htx : b.result.txCount + l.length ≤ b.txOutput.length)
    (hrecycle : b.result.recycleCount + l.length ≤ b.recycleOutput.length)
    (hslots : .slotFull ∉ b.scheduleStatuses l) :
    ((b.routeAll l').result = (b.routeAll l).result ∧
      (b.routeAll l').tx.Perm (b.routeAll l).tx ∧
      (b.routeAll l').recycle.Perm (b.routeAll l).recycle ∧
      ∀ j, ((b.routeAll l').timingWheel.slots j).frames.Perm
        ((b.routeAll l).timingWheel.slots j).frames) ∧
    .slotFull ∉ b.scheduleStatuses l' := by
  have hgains := gains_routeAll b l htx hrecycle hslots
  have hshares := hperm.map (·.share shape.slotCount.size b.timingWheel.currentTick)
  rw [hperm.length_eq] at htx hrecycle
  -- whether the frames fit does not depend on their order
  have hfits : b.timingWheel.Fits (b.delayedFrames l') :=
    hgains.fits.perm (hshares.flatMap_right (·.delayed))
  have hslots' := scheduleStatuses_of_fits b l' htx hrecycle hfits
  exact ⟨hgains.perm (gains_routeAll b l' htx hrecycle hslots') hshares, hslots'⟩

end Batch

/-! ### Whole batches -/

/-- The byte ranges of the descriptors have no byte in common. -/
def PacketDescriptor.Disjoint (d d' : PacketDescriptor) : Prop :=
  ∀ x, InFrame d.frameAddress.toNat d.frameLength.toNat x →
    ¬ InFrame d'.frameAddress.toNat d'.frameLength.toNat x

section

variable {shape : WheelShape} (umemBase : Option ℕ) (umemSizeBytes : UInt64)
  (rules : List ChaosRule) (tickNs : UInt64)

/-- What the calls of `schedule` return in a call of `process_packet_batch`. -/
def batchScheduleStatuses (ds : List PacketDescriptor) (timingWheel : TimingWheel shape)
    (txOutput recycleOutput : List ProcessedFrame) (m : Umem) : List ScheduleStatus :=
  Batch.scheduleStatuses { timingWheel, txOutput, recycleOutput }
    (ds.zip (run (judgeAll umemBase umemSizeBytes rules tickNs ds) m).1)

lemma PacketDescriptor.Disjoint.ownByte {d d' : PacketDescriptor} (h : d.Disjoint d') (x : ℕ)
    (hx : OwnByte umemBase umemSizeBytes d x) : ¬ OwnByte umemBase umemSizeBytes d' x := by
  rintro ⟨base, hbase, -, hle', hlt'⟩
  obtain ⟨_, hbase', -, hle, hlt⟩ := hx
  rw [hbase] at hbase'
  cases hbase'
  exact h (x - base) ⟨by omega, by omega⟩ ⟨by omega, by omega⟩

lemma judgeAll_eq_each (ds : List PacketDescriptor) :
    judgeAll umemBase umemSizeBytes rules tickNs ds =
      each (judge umemBase umemSizeBytes rules tickNs) ds := by
  induction ds with
  | nil => rfl
  | cons d ds ih => rw [judgeAll, each, ih]

/-- The descriptor with what judging it alone gives. -/
def judged (m : Umem) (d : PacketDescriptor) : Judged :=
  (d, (run (judge umemBase umemSizeBytes rules tickNs d) m).1)

/-- Descriptors with disjoint byte ranges are judged as if each were alone. -/
lemma judgeAll_fst {ds : List PacketDescriptor} (hdisjoint : ds.Pairwise PacketDescriptor.Disjoint)
    (m : Umem) : (run (judgeAll umemBase umemSizeBytes rules tickNs ds) m).1 =
      ds.map fun d => (run (judge umemBase umemSizeBytes rules tickNs d) m).1 := by
  have hown := fun d m => (judge_sat umemBase umemSizeBytes rules tickNs d m).accesses_ok
  rw [judgeAll_eq_each]
  exact (run_each hown (hdisjoint.imp fun h => h.ownByte umemBase umemSizeBytes) m).1

lemma zip_judgeAll {ds : List PacketDescriptor} (hdisjoint : ds.Pairwise PacketDescriptor.Disjoint)
    (m : Umem) : ds.zip (run (judgeAll umemBase umemSizeBytes rules tickNs ds) m).1 =
      ds.map (judged umemBase umemSizeBytes rules tickNs m) := by
  rw [judgeAll_fst umemBase umemSizeBytes rules tickNs hdisjoint]
  exact List.map_prod_left_eq_zip.symm

/-- A batch of disjoint descriptors in another order leaves the same UMEM. -/
lemma judgeAll_perm {ds ds' : List PacketDescriptor} (hperm : ds.Perm ds')
    (hdisjoint : ds.Pairwise PacketDescriptor.Disjoint)
    (hdisjoint' : ds'.Pairwise PacketDescriptor.Disjoint) (m : Umem) :
    (run (judgeAll umemBase umemSizeBytes rules tickNs ds') m).2 =
      (run (judgeAll umemBase umemSizeBytes rules tickNs ds) m).2 := by
  rw [judgeAll_eq_each, judgeAll_eq_each]
  refine run_each_perm (fun d m => (judge_sat umemBase umemSizeBytes rules tickNs d m).accesses_ok)
    ?_ ?_ hperm m
  · exact hdisjoint.imp fun h => h.ownByte umemBase umemSizeBytes
  · exact hdisjoint'.imp fun h => h.ownByte umemBase umemSizeBytes

end

/-- A batch of descriptors with disjoint byte ranges, outputs as long as the batch, and no frame
refused for a full slot: in any other order the UMEM and the counters end up the same, the same
frames are transmitted and recycled, each slot of the wheel holds the same frames with the same
release ticks, and again no frame is refused for a full slot. -/
theorem processPacketBatch_perm {shape : WheelShape} (umemBase : Option ℕ) (umemSizeBytes : UInt64)
    (rules : List ChaosRule) (tickNs : UInt64) {ds ds' : List PacketDescriptor}
    (hperm : ds.Perm ds') (timingWheel : TimingWheel shape)
    (txOutput recycleOutput : List ProcessedFrame) (m : Umem)
    (hdisjoint : ds.Pairwise PacketDescriptor.Disjoint) (htx : ds.length ≤ txOutput.length)
    (hrecycle : ds.length ≤ recycleOutput.length)
    (hslots : .slotFull ∉ batchScheduleStatuses umemBase umemSizeBytes rules tickNs ds timingWheel
      txOutput recycleOutput m) :
    let s := run (processPacketBatch umemBase umemSizeBytes rules tickNs ds timingWheel txOutput
      recycleOutput) m
    let s' := run (processPacketBatch umemBase umemSizeBytes rules tickNs ds' timingWheel txOutput
      recycleOutput) m
    s'.2 = s.2 ∧ s'.1.result = s.1.result ∧
    (s'.1.tx : Multiset ProcessedFrame) = s.1.tx ∧
    (s'.1.recycle : Multiset ProcessedFrame) = s.1.recycle ∧
    (∀ j, ((s'.1.timingWheel.slots j).frames : Multiset DelayedFrame) =
      (s.1.timingWheel.slots j).frames) ∧
    .slotFull ∉ batchScheduleStatuses umemBase umemSizeBytes rules tickNs ds' timingWheel
      txOutput recycleOutput m := by
  have hdisjoint' : ds'.Pairwise PacketDescriptor.Disjoint :=
    hdisjoint.perm hperm fun h x hx' hx => h x hx hx'
  rw [batchScheduleStatuses, zip_judgeAll umemBase umemSizeBytes rules tickNs hdisjoint] at hslots
  have hlength : (ds.map (judged umemBase umemSizeBytes rules tickNs m)).length = ds.length :=
    List.length_map _
  obtain ⟨⟨hresult, hsent, hrecycled, hframes⟩, hslots'⟩ := Batch.routeAll_perm _
    (hperm.map (judged umemBase umemSizeBytes rules tickNs m))
    (by rw [hlength, Nat.zero_add]; exact htx) (by rw [hlength, Nat.zero_add]; exact hrecycle)
    hslots
  simp only [batchScheduleStatuses, processPacketBatch, run_processDescriptors,
    zip_judgeAll umemBase umemSizeBytes rules tickNs hdisjoint,
    zip_judgeAll umemBase umemSizeBytes rules tickNs hdisjoint', Multiset.coe_eq_coe]
  exact ⟨judgeAll_perm umemBase umemSizeBytes rules tickNs hperm hdisjoint hdisjoint' m, hresult,
    hsent, hrecycled, hframes, hslots'⟩

/-- A wheel of eight slots with room for two frames each. -/
def eightSlots : WheelShape := ⟨⟨8, by decide⟩, 2, Nat.two_pos⟩

/-- A batch of a datagram that is delayed and a frame that holds no packet, and the same batch
the other way round. -/
theorem processPacketBatch_perm_twoFrames :
    let rules : List ChaosRule := [{ probability := 10000, action := .delay, delayNs := 1 }]
    let outputs : List ProcessedFrame := [{}, {}]
    let batch := fun ds => run (processPacketBatch (some 0) 4096 rules 1000000 ds
      (.fresh : TimingWheel eightSlots) outputs outputs) (udpFrame 0)
    (batch [⟨0, 42, 0⟩, ⟨2048, 42, 0⟩]).1.result.stats.packetsDelayed = 1 ∧
    (batch [⟨2048, 42, 0⟩, ⟨0, 42, 0⟩]).1.result.stats =
      (batch [⟨0, 42, 0⟩, ⟨2048, 42, 0⟩]).1.result.stats := by
  intro rules outputs batch
  have hdisjoint : [(⟨0, 42, 0⟩ : PacketDescriptor), ⟨2048, 42, 0⟩].Pairwise
      PacketDescriptor.Disjoint := by
    refine List.pairwise_pair.mpr fun x hx hx' => ?_
    obtain ⟨hle, hlt⟩ := hx
    obtain ⟨hle', hlt'⟩ := hx'
    change x < 42 at hlt
    change 2048 ≤ x at hle'
    omega
  have hperm := processPacketBatch_perm (some 0) 4096 rules 1000000 (List.Perm.swap _ _ [])
    (.fresh : TimingWheel eightSlots) outputs outputs (udpFrame 0) hdisjoint (by decide) (by decide)
    (by decide +kernel)
  exact ⟨by decide +kernel, congrArg DataPlaneBatchResult.stats hperm.2.1⟩

end ChronosX
