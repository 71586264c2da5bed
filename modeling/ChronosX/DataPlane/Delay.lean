import ChronosX.DataPlane.Effect
import ChronosX.Wheel.Refinement
import Mathlib.Algebra.Order.Floor.Div
import Mathlib.Order.Bounds.Basic

/-!
# How long a packet is delayed

`delay_ns_to_ticks` rounds up in 64-bit arithmetic. As long as `delay_ns + tick_ns - 1` does not
wrap, the wheel holds an accepted packet for the least number of ticks that is not too short. When
it wraps, the quotient is zero, which the wheel takes for one tick.
-/

namespace ChronosX

open Mem TimingWheel

/-! ### Rounding up -/

/-- The least positive number of ticks that is not too short. -/
lemma isLeast_ticks (delay : ℕ) {tick : ℕ} (htick : 0 < tick) :
    IsLeast {r | 1 ≤ r ∧ delay ≤ r * tick} (max 1 (delay ⌈/⌉ tick)) := by
  constructor
  · refine ⟨Nat.le_max_left _ _, ?_⟩
    rw [Nat.mul_comm]
    exact (ceilDiv_le_iff_le_mul htick).mp (Nat.le_max_right _ _)
  · rintro r ⟨hone, hlong⟩
    rw [Nat.mul_comm] at hlong
    exact Nat.max_le.mpr ⟨hone, (ceilDiv_le_iff_le_mul htick).mpr hlong⟩

variable {delayNs tickNs : UInt64}

lemma toNat_sum (hpos : 0 < delayNs.toNat) :
    (delayNs + tickNs - 1).toNat = (delayNs.toNat + tickNs.toNat - 1) % 2 ^ 64 := by
  have hd := delayNs.toNat_lt
  have ht := tickNs.toNat_lt
  rw [UInt64.toNat_sub, UInt64.toNat_add, UInt64.toNat_one]
  omega

/-- A sum that does not wrap is rounded up, with zero ticks for no delay. -/
lemma toNat_delayNsToTicks (htick : 0 < tickNs.toNat)
    (hfits : delayNs.toNat + tickNs.toNat - 1 < 2 ^ 64) :
    max 1 (delayNsToTicks delayNs tickNs).toNat =
      max 1 (delayNs.toNat ⌈/⌉ tickNs.toNat) := by
  rw [delayNsToTicks, Nat.ceilDiv_eq_add_pred_div]
  by_cases hdelay : delayNs = 0
  · rw [if_pos hdelay, hdelay, UInt64.toNat_zero, Nat.zero_add,
      Nat.div_eq_of_lt (Nat.sub_lt htick Nat.one_pos)]
    rfl
  · have hpos : 0 < delayNs.toNat :=
      Nat.pos_of_ne_zero fun h => hdelay (UInt64.toNat_inj.mp h)
    have htick' : ¬ tickNs = 0 := by
      rintro rfl
      exact Nat.lt_irrefl 0 htick
    rw [if_neg hdelay, if_neg htick', UInt64.toNat_div, toNat_sum hpos, Nat.mod_eq_of_lt hfits]

/-- A sum that wraps is less than one tick. -/
lemma delayNsToTicks_wrapped (hwraps : 2 ^ 64 ≤ delayNs.toNat + tickNs.toNat - 1) :
    delayNsToTicks delayNs tickNs = 0 := by
  have hd := delayNs.toNat_lt
  have ht := tickNs.toNat_lt
  have hdelay : ¬ delayNs = 0 := by
    rintro rfl
    rw [UInt64.toNat_zero] at hwraps
    omega
  have htick : ¬ tickNs = 0 := by
    rintro rfl
    rw [UInt64.toNat_zero] at hwraps
    omega
  apply UInt64.toNat_inj.mp
  rw [delayNsToTicks, if_neg hdelay, if_neg htick, UInt64.toNat_div, toNat_sum (by omega)]
  apply Nat.div_eq_of_lt
  omega

/-- The ticks the wheel makes of the quotient are the least long enough ones exactly when the sum
does not wrap or one tick is long enough. -/
lemma ticks_eq_iff (htick : 0 < tickNs.toNat) :
    max 1 (delayNsToTicks delayNs tickNs).toNat = max 1 (delayNs.toNat ⌈/⌉ tickNs.toNat) ↔
      delayNs.toNat + tickNs.toNat - 1 < 2 ^ 64 ∨ delayNs.toNat ≤ tickNs.toNat := by
  by_cases hfits : delayNs.toNat + tickNs.toNat - 1 < 2 ^ 64
  · exact iff_of_true (toNat_delayNsToTicks htick hfits) (Or.inl hfits)
  · rw [delayNsToTicks_wrapped (Nat.not_lt.mp hfits), or_iff_right hfits, eq_comm]
    change max 1 _ = 1 ↔ _
    rw [max_eq_left_iff, ceilDiv_le_iff_le_mul htick, Nat.mul_one]

/-! ### How long the wheel holds a frame -/

section

variable {shape : WheelShape}

/-- The frame scheduled after the calls `ops` is released by the `r`-th tick after that: whatever
calls follow, its entry among the accepted frames is due `r` ticks later, and each tick returns
the frames due at it and no others. -/
def ReleasedAfter (shape : WheelShape) (ops : List Op) (frame : DelayedFrame) (k : UInt64)
    (r : ℕ) : Prop :=
  ∀ later : List Op,
    let before := record shape ops
    let after := record shape (ops ++ .schedule frame k :: later)
    after.queue.accepted[before.queue.accepted.length]? = some (frame, before.queue.now + r) ∧
    after.returned = (List.range after.queue.now).map fun t =>
      (after.queue.dueAt (t + 1)).map (stamp · (t + 1))

/-- An accepted frame is released after `k` ticks, or one if `k` is zero. -/
lemma releasedAfter_iff {ops : List Op} {frame : DelayedFrame} {k : UInt64}
    (hs : ((record shape ops).wheel.schedule frame k).1 = .scheduled) (r : ℕ) :
    ReleasedAfter shape ops frame k r ↔ r = max 1 k.toNat := by
  have hentry : ∀ later : List Op,
      (record shape (ops ++ .schedule frame k :: later)).queue.accepted[
        (record shape ops).queue.accepted.length]? =
        some (frame, (record shape ops).queue.now + max 1 k.toNat) := by
    intro later
    rw [record_append, List.foldl_cons]
    obtain ⟨rest, hrest⟩ :=
      accepted_isPrefix_foldl ((record shape ops).step (.schedule frame k)) later
    simp only [Recorded.step, if_pos hs, DelayQueue.accept] at hrest
    simp only [Recorded.step, if_pos hs, DelayQueue.accept, ← hrest, List.append_assoc,
      List.singleton_append, List.getElem?_append_right le_rfl, Nat.sub_self,
      List.getElem?_cons_zero]
  constructor
  · intro h
    have hnow := (h []).1
    rw [hentry] at hnow
    simp only [Option.some.injEq, Prod.mk.injEq, true_and] at hnow
    exact (Nat.add_left_cancel hnow).symm
  · rintro rfl later
    exact ⟨hentry later, (exact_record shape _).returned_eq⟩

end

/-! ### The delay branch -/

section

variable {shape : WheelShape}

lemma timingWheel_appendRecycle (b : Batch shape) (processed : ProcessedFrame) :
    (b.appendRecycle processed).timingWheel = b.timingWheel := by
  rw [Batch.appendRecycle]
  split_ifs <;> rfl

lemma timingWheel_transmit (b : Batch shape) (processed : ProcessedFrame) :
    (b.transmit processed).timingWheel = b.timingWheel := by
  rw [Batch.transmit]
  split_ifs
  · rfl
  · exact timingWheel_appendRecycle _ processed

/-- Routing a verdict does nothing to the wheel but schedule on it. -/
lemma route_record {b : Batch shape} {ops : List Op} (h : b.timingWheel = (record shape ops).wheel)
    (processed : ProcessedFrame) (v : Verdict) :
    ∃ ops', (b.route processed v).timingWheel = (record shape ops').wheel := by
  cases v with
  | malformed descriptorValid =>
    refine ⟨ops, Eq.trans ?_ h⟩
    rw [Batch.route, timingWheel_appendRecycle]
    cases descriptorValid <;> rfl
  | drop => exact ⟨ops, (timingWheel_appendRecycle _ processed).trans h⟩
  | delay delayed delayTicks =>
    refine ⟨ops ++ [.schedule delayed delayTicks], ?_⟩
    rw [record_append, List.foldl_cons, List.foldl_nil, Recorded.step, ← h, Batch.route]
    split_ifs
    · rfl
    · exact timingWheel_appendRecycle _ processed
  | transmit corrupted =>
    refine ⟨ops, Eq.trans ?_ h⟩
    rw [Batch.route, timingWheel_transmit]
    cases corrupted <;> rfl

/-- In the middle of a batch the wheel is one that calls on a fresh wheel lead to. -/
lemma processDescriptors_record (umemBase : Option ℕ) (umemSizeBytes : UInt64)
    (rules : List ChaosRule) (tickNs : UInt64) {b : Batch shape} {ops : List Op}
    (h : b.timingWheel = (record shape ops).wheel) (ds : List PacketDescriptor) (m : Umem) :
    ∃ ops', (run (processDescriptors umemBase umemSizeBytes rules tickNs b ds) m).1.timingWheel =
      (record shape ops').wheel := by
  induction ds generalizing b ops m with
  | nil => exact ⟨ops, h⟩
  | cons d ds ih =>
    rw [processDescriptors, run_bind,
      (run_processDescriptor umemBase umemSizeBytes rules tickNs b d m).1]
    obtain ⟨ops', hops'⟩ := route_record (b := b.see d) h
      (run (judge umemBase umemSizeBytes rules tickNs d) m).1.1
      (run (judge umemBase umemSizeBytes rules tickNs d) m).1.2
    exact ih hops' _

/-- A quotient of zero is refused exactly when the slot of the next tick is full. -/
lemma schedule_zero_iff (w : TimingWheel shape) (frame : DelayedFrame) :
    (w.schedule frame 0).1 = .scheduled ↔
      ¬ shape.maxFramesPerSlot ≤ (w.slots (shape.slotCount.slot (w.currentTick + 1))).count := by
  have hle : ¬ (0 : UInt64) > shape.slotCount.size := UInt64.not_lt.mpr UInt64.zero_le
  rw [not_le]
  rcases w.schedule_of_le frame hle with ⟨hroom, heq⟩ | ⟨hfull, heq⟩
  · rw [heq]
    exact iff_of_true rfl hroom
  · rw [heq]
    exact iff_of_false ScheduleStatus.noConfusion hfull

/-- What the delay branch makes of the batch state `b`: the wheel refuses the frame, which goes to
the recycle output, where there is room for it; or it accepts the frame and releases it after `r`
ticks, where `r` is the least positive number of ticks that takes no less than the delay. -/
def OnTime (ops : List Op) (delayNs tickNs : UInt64) (frame : DelayedFrame)
    (processed : ProcessedFrame) (b b' : Batch shape) : Prop :=
  let k := delayNsToTicks delayNs tickNs
  let scheduled := b.timingWheel.schedule frame k
  (scheduled.1 ≠ .scheduled ∧ b.result.recycleCount < b.recycleOutput.length ∧
    b' = Batch.appendRecycle
      (Batch.countScheduleFailure { b with timingWheel := scheduled.2 }).countDropped processed) ∨
  (scheduled.1 = .scheduled ∧ b' = Batch.countDelayed { b with timingWheel := scheduled.2 } ∧
    ∃ r, IsLeast {r | 1 ≤ r ∧ delayNs.toNat ≤ r * tickNs.toNat} r ∧
      r = max 1 (delayNs.toNat ⌈/⌉ tickNs.toNat) ∧ ReleasedAfter shape ops frame k r)

lemma onTime_iff {ops : List Op} {b : Batch shape}
    (hwheel : b.timingWheel = (record shape ops).wheel) {delayNs tickNs : UInt64}
    (htick : 0 < tickNs.toNat) (frame : DelayedFrame) (processed : ProcessedFrame) :
    OnTime ops delayNs tickNs frame processed b
        (b.route processed (.delay frame (delayNsToTicks delayNs tickNs))) ↔
      (delayNs.toNat + tickNs.toNat - 1 < 2 ^ 64 ∨ delayNs.toNat ≤ tickNs.toNat ∨
        shape.maxFramesPerSlot ≤
          (b.timingWheel.slots (shape.slotCount.slot (b.timingWheel.currentTick + 1))).count) ∧
      ((b.timingWheel.schedule frame (delayNsToTicks delayNs tickNs)).1 ≠ .scheduled →
        b.result.recycleCount < b.recycleOutput.length) := by
  rw [← or_assoc, ← ticks_eq_iff htick, OnTime, Batch.route]
  -- a quotient that is too small is zero
  have hzero : ¬ max 1 (delayNsToTicks delayNs tickNs).toNat =
      max 1 (delayNs.toNat ⌈/⌉ tickNs.toNat) → delayNsToTicks delayNs tickNs = 0 := by
    intro hne
    apply delayNsToTicks_wrapped
    exact Nat.not_lt.mp fun hfits => hne (toNat_delayNsToTicks htick hfits)
  by_cases hs : (b.timingWheel.schedule frame (delayNsToTicks delayNs tickNs)).1 = .scheduled
  · have hreleased := releasedAfter_iff (hwheel ▸ hs)
    simp only [hs, ne_eq, not_true_eq_false, false_and, false_or, if_true, true_and, hreleased,
      false_imp_iff, and_true]
    constructor
    · rintro ⟨r, -, rfl, hr⟩
      exact Or.inl hr.symm
    · rintro (heq | hfull)
      · exact ⟨_, isLeast_ticks _ htick, rfl, heq.symm⟩
      · by_contra hnone
        have hk := hzero fun heq => hnone ⟨_, isLeast_ticks _ htick, rfl, heq.symm⟩
        rw [hk, schedule_zero_iff] at hs
        exact hs hfull
  · have hcondition : max 1 (delayNsToTicks delayNs tickNs).toNat =
        max 1 (delayNs.toNat ⌈/⌉ tickNs.toNat) ∨ shape.maxFramesPerSlot ≤
          (b.timingWheel.slots (shape.slotCount.slot (b.timingWheel.currentTick + 1))).count := by
      refine or_iff_not_imp_left.mpr fun hne => ?_
      rw [hzero hne, schedule_zero_iff, not_not] at hs
      exact hs
    constructor
    · rintro (⟨-, hroom, -⟩ | ⟨hscheduled, -⟩)
      · exact ⟨hcondition, fun _ => hroom⟩
      · exact absurd hscheduled hs
    · rintro ⟨-, hroom⟩
      exact Or.inl ⟨hs, hroom hs, if_neg hs⟩

/-- The loop body takes the delay branch. -/
lemma run_processDescriptor_delay (base : ℕ) (umemSizeBytes : UInt64) (rules : List ChaosRule)
    (tickNs : UInt64) (b : Batch shape) {d : PacketDescriptor} {m : Umem}
    (hvalid : d.Valid (some base) umemSizeBytes) (hok : (packetOf base d m).ok = true)
    (hdelay : (decidePacketFast (packetOf base d m) rules).action = .delay) :
    (run (processDescriptor (some base) umemSizeBytes rules tickNs b d) m).1 =
      (b.see d).route (processedFrame rules (packetOf base d m) d)
        (.delay (delayedFrame rules (packetOf base d m) d)
          (delayNsToTicks (decidePacketFast (packetOf base d m) rules).delayNs tickNs)) := by
  rw [(run_processDescriptor (some base) umemSizeBytes rules tickNs b d m).1,
    run_judge umemSizeBytes rules tickNs base m hvalid]
  simp only [verdictOf, hok, ChaosDecision.shouldDrop, ChaosDecision.shouldDelay, hdelay,
    Bool.true_eq_false, if_false, beq_self_eq_true, if_true]
  rfl

end

/-- The loop of `process_packet_batch`, after any descriptors and on any wheel that calls on a
fresh wheel lead to, takes the delay branch for a packet, with any 64-bit `delay_ns` and any
positive `tick_ns`. The packet is refused and recycled, or released after the least number of
ticks that is at least one and not shorter than the delay, exactly when the 64-bit sum
`delay_ns + tick_ns - 1` does not wrap, or one tick is long enough, or the slot of the next tick
is full, and when a packet that is refused finds room in the recycle output, as it does if the
output is longer than the part of the batch before it. -/
theorem delayed_onTime_iff (shape : WheelShape) (ops : List Op) (base : ℕ) (umemSizeBytes : UInt64)
    (rules : List ChaosRule) (tickNs : UInt64) (htick : 0 < tickNs.toNat)
    (before : List PacketDescriptor) (txOutput recycleOutput : List ProcessedFrame) (m : Umem)
    (d : PacketDescriptor) :
    let s := run (processPacketBatch (some base) umemSizeBytes rules tickNs before
      (record shape ops).wheel txOutput recycleOutput) m
    let packet := packetOf base d s.2
    let decision := decidePacketFast packet rules
    (∃ ops', s.1.timingWheel = (record shape ops').wheel) ∧
    (before.length < recycleOutput.length →
      s.1.result.recycleCount < s.1.recycleOutput.length) ∧
    ∀ ops', s.1.timingWheel = (record shape ops').wheel →
      d.Valid (some base) umemSizeBytes → packet.ok = true → decision.action = .delay →
      (OnTime ops' decision.delayNs tickNs (delayedFrame rules packet d)
          (processedFrame rules packet d) (s.1.see d)
          (run (processDescriptor (some base) umemSizeBytes rules tickNs s.1 d) s.2).1 ↔
        (decision.delayNs.toNat + tickNs.toNat - 1 < 2 ^ 64 ∨
          decision.delayNs.toNat ≤ tickNs.toNat ∨
          shape.maxFramesPerSlot ≤ (s.1.timingWheel.slots
            (shape.slotCount.slot (s.1.timingWheel.currentTick + 1))).count) ∧
        ((s.1.timingWheel.schedule (delayedFrame rules packet d)
            (delayNsToTicks decision.delayNs tickNs)).1 ≠ .scheduled →
          s.1.result.recycleCount < s.1.recycleOutput.length)) := by
  intro s packet decision
  have hrouted := routed_processPacketBatch (some base) umemSizeBytes rules tickNs before
    (record shape ops).wheel txOutput recycleOutput m
  refine ⟨processDescriptors_record _ _ _ _ rfl before m, hrouted.recycleCount_lt rfl, ?_⟩
  intro ops' hwheel hvalid hok hdelay
  rw [run_processDescriptor_delay base umemSizeBytes rules tickNs s.1 hvalid hok hdelay]
  exact onTime_iff (b := s.1.see d) hwheel htick _ _

/-- A rule that delays every packet. -/
def delayRule (delayNs : UInt64) : ChaosRule := { probability := 10000, action := .delay, delayNs }

/-- A delay of three and a half ticks of two nanoseconds, in a batch on a fresh wheel. -/
theorem delayed_onTime_iff_seven :
    let d : PacketDescriptor := ⟨0, 42, 0⟩
    let rules := [delayRule 7]
    let b : Batch eightSlots := { timingWheel := .fresh, txOutput := [{}], recycleOutput := [{}] }
    OnTime [] 7 2 (delayedFrame rules (packetOf 0 d (udpFrame 0)) d)
      (processedFrame rules (packetOf 0 d (udpFrame 0)) d) (b.see d)
      (run (processDescriptor (some 0) 4096 rules 2 b d) (udpFrame 0)).1 :=
  ((delayed_onTime_iff eightSlots [] 0 4096 [delayRule 7] 2 (by decide) [] [{}] [{}] (udpFrame 0)
    ⟨0, 42, 0⟩).2.2 [] rfl (by decide) (by decide +kernel) (by decide +kernel)).mpr
      ⟨Or.inl (by decide +kernel), fun _ => by decide +kernel⟩

/-- A delay of `2 ^ 64 - 1` nanoseconds, with ticks of two: the sum wraps to zero, and the first
tick releases the packet. -/
theorem longest_delay_released_at_once :
    let d : PacketDescriptor := ⟨0, 42, 0⟩
    let rules := [delayRule 0xFFFFFFFFFFFFFFFF]
    let b : Batch eightSlots := { timingWheel := .fresh, txOutput := [{}], recycleOutput := [{}] }
    let b' := (run (processDescriptor (some 0) 4096 rules 2 b d) (udpFrame 0)).1
    (decidePacketFast (packetOf 0 d (udpFrame 0)) rules).delayNs = 0xFFFFFFFFFFFFFFFF ∧
    b'.timingWheel.tick.1 = [{ frameAddress := 0, frameLength := 42, releaseTick := 1 }] ∧
    ¬ OnTime [] 0xFFFFFFFFFFFFFFFF 2 (delayedFrame rules (packetOf 0 d (udpFrame 0)) d)
      (processedFrame rules (packetOf 0 d (udpFrame 0)) d) (b.see d) b' := by
  intro d rules b b'
  have hdelayNs : (decidePacketFast (packetOf 0 d (udpFrame 0)) rules).delayNs =
      0xFFFFFFFFFFFFFFFF := by
    decide +kernel
  refine ⟨hdelayNs, by decide +kernel, ?_⟩
  have hbranch := run_processDescriptor_delay 0 4096 rules 2 b (d := d) (m := udpFrame 0)
    (by decide) (by decide +kernel) (by decide +kernel)
  have hwheel : (b.see d).timingWheel = (record eightSlots []).wheel := rfl
  rw [hdelayNs] at hbranch
  rw [show b' = _ from hbranch, onTime_iff hwheel (by decide)]
  decide +kernel

end ChronosX
