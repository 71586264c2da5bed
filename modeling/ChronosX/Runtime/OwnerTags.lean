import ChronosX.Runtime.RxOwnership
import ChronosX.Runtime.TurnAround
import ChronosX.DataPlane.Permutation

/-!
# What the owner tags say

Between polls the owner tags say where the frames are, with one exception: the data plane puts a
delayed frame into the timing wheel and its tag stays `DataPlane`. With a TX ring that can hold
all the posted frames, the tags are therefore truthful exactly while the wheel is empty, and a
poll keeps them truthful exactly when it delays no frame.
-/

namespace ChronosX

open Ledger Mem AfXdpRuntimeAdapter FrameAllocator Host

variable {shape : RuntimeShape} {names : Multiset UInt64} {rest : Multiset Entry}

/-! ### Frames in use -/

lemma AfXdpRuntimeAdapter.rx_mem_ledger {a : AfXdpRuntimeAdapter shape} {rx : RxDescriptor}
    (h : rx ∈ a.socket.rxRing.toList) : (rx.address, FrameOwner.fillRing) ∈ a.ledger := by
  simp only [ledger, Multiset.mem_add]
  refine Or.inl (Or.inl (Or.inl (Or.inr (mem_tagged.mpr ⟨?_, rfl⟩))))
  exact Multiset.mem_coe.mpr (List.mem_map_of_mem h)

/-- Frames that have been entered can be received. -/
lemma AfXdpRuntimeAdapter.Keeps.rxSound {a : AfXdpRuntimeAdapter shape} (h : a.Keeps names rest) :
    RxSound a.atReceive := by
  obtain ⟨lost, -, hkeeps⟩ := atReceive_pushed h
  constructor
  · intro rx hrx i hi
    obtain ⟨j, hj, howner⟩ := hkeeps.agrees.owned (rx.address, .fillRing)
      (Multiset.mem_add.mpr (Or.inl (rx_mem_ledger (List.mem_of_mem_take hrx))))
    rw [address_inj (hi.symm.trans hj)]
    exact Or.inl howner
  · have hnodup := hkeeps.received_nodup
    rw [List.Nodup, List.pairwise_map] at hnodup
    exact hnodup.imp fun hne i hi hi' => hne (hi.trans hi'.symm)

/-- `init` puts the frames it takes from the free stack on the fill ring. -/
lemma AfXdpRuntimeAdapter.postFrames_inUse {a : AfXdpRuntimeAdapter shape} (count : ℕ)
    (h : ∀ i, a.allocator.InUse i → shape.umem.address i ∈ a.socket.fillRing.toList)
    (hok : (a.postFrames count).1 = .ok) :
    ∀ i, (a.postFrames count).2.allocator.InUse i →
      shape.umem.address i ∈ (a.postFrames count).2.socket.fillRing.toList := by
  induction count generalizing a with
  | zero => exact h
  | succ count ih =>
    obtain ⟨i, stack, -, hroom, heq⟩ := postFrames_succ hok
    rw [heq] at hok ⊢
    refine ih ?_ hok
    intro j hj
    rw [toList_postOne hroom, List.mem_append, List.mem_singleton]
    by_cases hji : j = i
    · exact Or.inr (congrArg _ hji)
    · refine Or.inl (h j ?_)
      change Function.update a.allocator.owners i .fillRing j ≠ .free at hj
      rwa [Function.update_of_ne hji] at hj

namespace Host

variable {s s' : Host shape} {stranded : Multiset Entry} {count : ℕ}

/-- The allocator's books are in order: the adapter is sound, and the frames in use are among the
given ones. -/
structure Accounted (s : Host shape) (names : Multiset UInt64) : Prop where
  sound : Sound s.runtime
  inUse : ∀ i, s.runtime.allocator.InUse i → shape.umem.address i ∈ names

lemma accounted_start (hok : ((fresh : AfXdpRuntimeAdapter shape).init count).1 = .ok) :
    (start shape count).Accounted (posted shape count : Multiset UInt64) := by
  refine ⟨sound_fresh.init count, ?_⟩
  intro i hi
  exact postFrames_inUse (a := fresh) _ (fun j hj => absurd rfl hj) hok i hi

lemma Accounted.kernel (h : s.Accounted names) (hstep : KernelStep s s') :
    s'.Accounted names := by
  obtain ⟨hallocator, hwheel, hinitialized, -⟩ := hstep.same
  refine ⟨⟨?_, ?_, ?_⟩, ?_⟩
  · rw [hallocator]
    exact h.sound.consistent
  · rw [hwheel]
    intro frame hframe i hi
    rw [hallocator]
    exact h.sound.wheel frame hframe i hi
  · rw [hwheel, hinitialized]
    exact h.sound.unstarted
  · rw [hallocator]
    exact h.inUse

lemma Accounted.poll (h : s.Accounted names) (hholds : s.Holds names stranded)
    (rules : List ChaosRule) : (s.poll rules).Accounted names := by
  have hrx := hholds.keeps.rxSound
  refine ⟨h.sound.pollOnce (fun _ => hrx) rules, fun i hi => h.inUse i ?_⟩
  obtain ⟨hfree, -⟩ := h.sound.pollOnce_sameFree hrx hholds.initialized rules
  exact (hfree.inUse_iff i).mp hi

lemma Reachable.accounted {allowed : AfXdpRuntimeAdapter shape → Prop}
    (h : Reachable allowed count s) : s.Accounted (posted shape count : Multiset UInt64) := by
  induction h with
  | start hok => exact accounted_start hok
  | kernel _ hstep ih => exact ih.kernel hstep
  | poll hreachable _ rules ih =>
    obtain ⟨stranded, hholds⟩ := hreachable.holds
    exact ih.poll hholds rules

/-! ### Tags and places -/

/-- The tag that the frames in a place carry. -/
def Place.tag : Place → FrameOwner
  | .fillRing | .rxCustody | .rxRing => .fillRing
  | .timingWheel => .dataPlane
  | .txRing | .txCustody | .completionRing => .txRing

namespace Place

lemma exists_tag_fillRing {P : Place → Prop} :
    (∃ place : Place, P place ∧ place.tag = .fillRing) ↔ P .fillRing ∨ P .rxCustody ∨ P .rxRing := by
  constructor
  · rintro ⟨place, hP, htag⟩
    cases place <;> simp_all [tag]
  · rintro (hP | hP | hP)
    · exact ⟨.fillRing, hP, rfl⟩
    · exact ⟨.rxCustody, hP, rfl⟩
    · exact ⟨.rxRing, hP, rfl⟩

lemma exists_tag_txRing {P : Place → Prop} :
    (∃ place : Place, P place ∧ place.tag = .txRing) ↔
      P .txRing ∨ P .txCustody ∨ P .completionRing := by
  constructor
  · rintro ⟨place, hP, htag⟩
    cases place <;> simp_all [tag]
  · rintro (hP | hP | hP)
    · exact ⟨.txRing, hP, rfl⟩
    · exact ⟨.txCustody, hP, rfl⟩
    · exact ⟨.completionRing, hP, rfl⟩

end Place

/-- The owner tags say where the frames are. -/
structure Truthful (s : Host shape) : Prop where
  free : ∀ i, s.runtime.allocator.owners i = .free ↔ i ∈ s.runtime.allocator.freeStack
  posted : ∀ i, (s.runtime.allocator.owners i = .fillRing ∨
      s.runtime.allocator.owners i = .rxRing) ↔
    shape.umem.address i ∈ s.contents .fillRing ∨ shape.umem.address i ∈ s.contents .rxCustody ∨
      shape.umem.address i ∈ s.contents .rxRing
  delayed : ∀ i, s.runtime.allocator.owners i = .timingWheel ↔
    shape.umem.address i ∈ s.contents .timingWheel
  sent : ∀ i, (s.runtime.allocator.owners i = .txRing ∨
      s.runtime.allocator.owners i = .completionRing) ↔
    shape.umem.address i ∈ s.contents .txRing ∨ shape.umem.address i ∈ s.contents .txCustody ∨
      shape.umem.address i ∈ s.contents .completionRing
  settled : ∀ i, s.runtime.allocator.owners i ≠ .dataPlane

/-- A frame found in a place is entered with the tag of the place. -/
lemma mem_entries {k : UInt64} {place : Place} (hk : k ∈ s.contents place) :
    (k, place.tag) ∈ s.runtime.ledger + s.custody := by
  cases place <;> simp_all [contents, ledger, custody, Place.tag]

namespace Holds

lemma owner_eq (h : s.Holds names stranded) {i : Fin shape.umem.frameCount} {place : Place}
    (hi : shape.umem.address i ∈ s.contents place) :
    s.runtime.allocator.owners i = place.tag := by
  have hentry : (shape.umem.address i, place.tag) ∈ s.runtime.ledger + (s.custody + stranded) := by
    rw [← add_assoc]
    exact Multiset.mem_add.mpr (Or.inl (mem_entries hi))
  obtain ⟨j, hj, howner⟩ := h.keeps.agrees.owned _ hentry
  rw [address_inj hj]
  exact howner

/-- A frame carries a tag other than `Free` exactly when it is in a place with that tag. -/
lemma owner_eq_iff (h : s.Holds names 0) (haccounted : s.Accounted names)
    {i : Fin shape.umem.frameCount} {owner : FrameOwner} (howner : owner ≠ .free) :
    s.runtime.allocator.owners i = owner ↔
      ∃ place, shape.umem.address i ∈ s.contents place ∧ place.tag = owner := by
  constructor
  · rintro rfl
    obtain ⟨place, hcount, -⟩ := h.inOnePlace (haccounted.inUse i howner)
    have hmem : shape.umem.address i ∈ s.contents place := by
      rw [← Multiset.count_pos, hcount]
      exact Nat.one_pos
    exact ⟨place, hmem, (h.owner_eq hmem).symm⟩
  · rintro ⟨place, hmem, rfl⟩
    exact h.owner_eq hmem

/-- The tags are truthful exactly while the wheel is empty. -/
lemma truthful_iff (h : s.Holds names 0) (haccounted : s.Accounted names) :
    s.Truthful ↔ s.runtime.timingWheel.pending = 0 := by
  constructor
  · intro htruthful
    refine Multiset.eq_zero_of_forall_notMem fun frame hframe => ?_
    have hmem : frame.frameAddress ∈ s.contents .timingWheel := Multiset.mem_map_of_mem _ hframe
    obtain ⟨i, hi, howner⟩ := h.keeps.agrees.owned (frame.frameAddress, .dataPlane) (by
      rw [← add_assoc]
      exact Multiset.mem_add.mpr (Or.inl (mem_entries hmem)))
    exact htruthful.settled i howner
  · intro hempty
    have hwheel : ∀ k, k ∉ s.contents .timingWheel := by simp [contents, hempty]
    -- no place has one of the other tags
    have hnone : ∀ i, ∀ owner ≠ FrameOwner.free, owner ≠ .fillRing → owner ≠ .txRing →
        s.runtime.allocator.owners i ≠ owner := by
      intro i owner hfree hfill htx howner
      obtain ⟨place, hmem, htag⟩ := (h.owner_eq_iff haccounted hfree).mp howner
      cases place with
      | timingWheel => exact hwheel _ hmem
      | fillRing | rxCustody | rxRing => exact hfill htag.symm
      | txRing | txCustody | completionRing => exact htx htag.symm
    constructor
    · intro i
      exact (haccounted.sound.consistent.mem_iff i).symm
    · intro i
      rw [or_iff_left (hnone i .rxRing (by decide) (by decide) (by decide)),
        h.owner_eq_iff haccounted (by decide)]
      exact Place.exists_tag_fillRing
    · intro i
      exact iff_of_false (hnone i .timingWheel (by decide) (by decide) (by decide)) (hwheel _)
    · intro i
      rw [or_iff_left (hnone i .completionRing (by decide) (by decide) (by decide)),
        h.owner_eq_iff haccounted (by decide)]
      exact Place.exists_tag_txRing
    · intro i
      exact hnone i .dataPlane (by decide) (by decide) (by decide)

end Holds

end Host

/-! ### Batches that delay nothing -/

/-- The verdict is to delay, by a number of ticks that a wheel with `slotCount` slots accepts. -/
def Verdict.Delays (slotCount : UInt64) : Verdict → Prop
  | .delay _ delayTicks => delayTicks ≤ slotCount
  | _ => False

/-- An empty wheel has room in every slot. -/
lemma TimingWheel.count_lt_of_pending_eq_zero {wheel : WheelShape} {w : TimingWheel wheel}
    (h : w.pending = 0) (j : Fin wheel.slotCount.toNat) :
    (w.slots j).count < wheel.maxFramesPerSlot := by
  have hslot : ((w.slots j).frames : Multiset DelayedFrame) = 0 :=
    Finset.sum_eq_zero_iff.mp h j (Finset.mem_univ j)
  rw [Slot.count, (Multiset.coe_eq_zero _).mp hslot]
  exact wheel.maxFramesPerSlot_pos

namespace Batch

variable {wheel : WheelShape}

/-- With an empty wheel, a frame is scheduled exactly when its verdict is such a delay. -/
lemma routeOf_isWheel_iff {b : Batch wheel} (h : b.timingWheel.pending = 0) (v : Verdict) :
    (b.routeOf v).isWheel = true ↔ v.Delays wheel.slotCount.size := by
  cases v with
  | delay delayed delayTicks =>
    rw [routeOf, Verdict.Delays]
    by_cases hk : delayTicks > wheel.slotCount.size
    · rw [TimingWheel.schedule_of_gt b.timingWheel delayed hk, if_neg (by simp)]
      simp only [recycleRoute_dropped, Bool.false_eq_true, false_iff, UInt64.not_le]
      exact hk
    · rcases b.timingWheel.schedule_of_le delayed hk with ⟨_, heq⟩ | ⟨hfull, -⟩
      · rw [heq, if_pos rfl]
        exact iff_of_true rfl (UInt64.not_lt.mp hk)
      · exact absurd (TimingWheel.count_lt_of_pending_eq_zero h _) hfull
  | transmit corrupted =>
    refine iff_of_false (fun hwheel => ?_) id
    obtain ⟨_, _, hverdict⟩ := routeOf_isWheel hwheel
    cases hverdict
  | malformed descriptorValid => simp [routeOf, recycleRoute_dropped, Verdict.Delays]
  | drop => simp [routeOf, recycleRoute_dropped, Verdict.Delays]

/-- A batch that starts with an empty wheel schedules nothing exactly when no verdict is such a
delay. -/
lemma routesOf_isWheel_iff {ds : List PacketDescriptor} {outs : List (ProcessedFrame × Verdict)}
    (hfaithful : List.Forall₂ Faithful ds outs) {b : Batch wheel} (h : b.timingWheel.pending = 0) :
    (∀ r ∈ b.routesOf (ds.zip outs), r.isWheel = false) ↔
      ∀ out ∈ outs, ¬ out.2.Delays wheel.slotCount.size := by
  induction hfaithful generalizing b with
  | nil => simp [routesOf]
  | cons hhead _ ih =>
    rename_i d out ds outs _
    rw [List.zip_cons_cons, routesOf, List.forall_mem_cons, List.forall_mem_cons,
      ← routeOf_isWheel_iff h, Bool.not_eq_true]
    refine and_congr_right fun hroute => ih ?_
    -- a frame that is not scheduled leaves the wheel empty
    obtain ⟨frames, hframes, haccepted⟩ := (routed_route b d hhead).scheduled
    rw [sentTo_singleton, hroute] at hframes
    rw [haccepted.pending, h, List.map_eq_nil_iff.mp hframes]
    rfl

end Batch

lemma sentTo_eq_nil_iff {p : Route → Bool} {ds : List PacketDescriptor} {routes : List Route}
    (hlength : routes.length = ds.length) :
    sentTo p ds routes = [] ↔ ∀ r ∈ routes, p r = false := by
  rw [sentTo, List.map_eq_nil_iff, List.filter_eq_nil_iff]
  conv_rhs => rw [← List.map_snd_zip hlength.le]
  simp only [List.forall_mem_map, Bool.not_eq_true]

/-- A batch of disjoint frames that starts with an empty wheel leaves it empty exactly when no
verdict is such a delay. -/
lemma processPacketBatch_pending_iff {wheel : WheelShape} (umemBase : Option ℕ)
    (umemSizeBytes : UInt64) (rules : List ChaosRule) (tickNs : UInt64)
    {ds : List PacketDescriptor} (hdisjoint : ds.Pairwise PacketDescriptor.Disjoint)
    {timingWheel : TimingWheel wheel} (h : timingWheel.pending = 0)
    (txOutput recycleOutput : List ProcessedFrame) (m : Umem) :
    (run (processPacketBatch umemBase umemSizeBytes rules tickNs ds timingWheel txOutput
        recycleOutput) m).1.timingWheel.pending = 0 ↔
      ∀ d ∈ ds, ¬ (run (judge umemBase umemSizeBytes rules tickNs d) m).1.2.Delays
        wheel.slotCount.size := by
  have hrouted := routed_processPacketBatch umemBase umemSizeBytes rules tickNs ds timingWheel
    txOutput recycleOutput m
  have hfaithful := faithful_judgeAll umemBase umemSizeBytes rules tickNs ds m
  obtain ⟨frames, hframes, haccepted⟩ := hrouted.scheduled
  have hempty : frames = [] ↔ sentTo Route.isWheel ds (batchRoutes umemBase umemSizeBytes rules
      tickNs ds timingWheel txOutput recycleOutput m) = [] := by
    rw [← hframes, List.map_eq_nil_iff]
  rw [haccepted.pending, h, zero_add, Multiset.coe_eq_zero, hempty,
    sentTo_eq_nil_iff hrouted.length_eq, batchRoutes, Batch.routesOf_isWheel_iff hfaithful h,
    judgeAll_fst umemBase umemSizeBytes rules tickNs hdisjoint, List.forall_mem_map]

/-- The frame holds a packet that the rules delay, by a number of ticks that a wheel with
`slotCount` slots accepts. -/
def PacketDescriptor.Delays (slotCount : UInt64) (rules : List ChaosRule) (tickNs : UInt64)
    (m : Umem) (d : PacketDescriptor) : Prop :=
  let packet := (run (parsePacket (some d.frameAddress.toNat) d.frameLength.toNat) m).1
  let decision := decidePacketFast packet rules
  packet.ok = true ∧ decision.shouldDelay = true ∧
    delayNsToTicks decision.delayNs tickNs ≤ slotCount

/-- The verdict on a frame inside the UMEM. -/
lemma judge_delays_iff (umemSizeBytes slotCount : UInt64) (rules : List ChaosRule)
    (tickNs : UInt64) (d : PacketDescriptor) (m : Umem)
    (hwithin : d.frameAddress.toNat + d.frameLength.toNat ≤ umemSizeBytes.toNat) :
    (run (judge (some 0) umemSizeBytes rules tickNs d) m).1.2.Delays slotCount ↔
      d.Delays slotCount rules tickNs m := by
  have hvalid := (descriptorWithinUmem_iff umemSizeBytes d).mpr hwithin
  simp only [judge, PacketDescriptor.Delays, run_bind, Option.isSome_some, hvalid, Bool.and_self,
    if_true, Option.map_some, Nat.zero_add, Bool.not_true, Bool.false_or]
  generalize run (parsePacket (some d.frameAddress.toNat) d.frameLength.toNat) m = parsed
  obtain ⟨packet, m'⟩ := parsed
  cases hok : packet.ok with
  | false => simp [Verdict.Delays]
  | true =>
    simp only [if_true, Bool.not_true, Bool.false_eq_true, if_false, true_and]
    generalize decidePacketFast packet rules = decision
    by_cases hdrop : decision.shouldDrop = true
    · have hdelay : ¬ decision.shouldDelay = true := by
        simp only [ChaosDecision.shouldDrop, ChaosDecision.shouldDelay, beq_iff_eq] at hdrop ⊢
        rw [hdrop]
        decide
      rw [if_pos hdrop]
      simp [Verdict.Delays, hdelay]
    · rw [if_neg hdrop]
      by_cases hdelay : decision.shouldDelay = true
      · rw [if_pos hdelay]
        simp [Verdict.Delays, hdelay]
      · rw [if_neg hdelay]
        simp [Verdict.Delays, hdelay]

instance (slotCount : UInt64) (rules : List ChaosRule) (tickNs : UInt64) (m : Umem) :
    DecidablePred (PacketDescriptor.Delays slotCount rules tickNs m) := fun _ =>
  inferInstanceAs (Decidable (_ ∧ _ ∧ _))

namespace AfXdpRuntimeAdapter

/-- One of the frames that the next poll receives is delayed under the given rules. -/
def Delays (a : AfXdpRuntimeAdapter shape) (rules : List ChaosRule) : Prop :=
  ∃ rx ∈ a.received, (Poll.packetDescriptor rx).Delays shape.wheel.slotCount.size rules
    kDefaultTimingWheelTickNs a.umem

instance (a : AfXdpRuntimeAdapter shape) : DecidablePred a.Delays := fun _ =>
  inferInstanceAs (Decidable (∃ rx ∈ a.received, _))

variable {a : AfXdpRuntimeAdapter shape}

/-- Received frames have no byte in common. -/
lemma Keeps.received_disjoint (h : a.Keeps names rest)
    (hlength : ∀ rx ∈ a.received, rx.length.toNat ≤ shape.umem.frameSize.toNat) :
    (a.received.map Poll.packetDescriptor).Pairwise PacketDescriptor.Disjoint := by
  refine h.received_apart.imp_of_mem ?_
  intro d d' hd hd' hapart x hx hx'
  obtain ⟨rx, hrx, rfl⟩ := List.mem_map.mp hd
  obtain ⟨rx', hrx', rfl⟩ := List.mem_map.mp hd'
  have hle := hlength rx hrx
  have hle' := hlength rx' hrx'
  exact hapart x ⟨hx.1, Nat.lt_of_lt_of_le hx.2 (Nat.add_le_add_left hle _)⟩
    ⟨hx'.1, Nat.lt_of_lt_of_le hx'.2 (Nat.add_le_add_left hle' _)⟩

lemma Keeps.received_within (h : a.Keeps names rest) {rx : RxDescriptor} (hrx : rx ∈ a.received)
    (hlength : rx.length.toNat ≤ shape.umem.frameSize.toNat) :
    rx.address.toNat + rx.length.toNat ≤ shape.umem.umemSizeBytes.toNat := by
  obtain ⟨i, hi⟩ := h.exists_address (h.received_mem hrx)
  rw [hi, UmemShape.address, UmemShape.handle_address, UmemShape.umemSizeBytes_toNat]
  have hlast := Nat.mul_le_mul_right shape.umem.frameSize.toNat i.isLt
  rw [Nat.succ_mul] at hlast
  omega

/-- A poll that starts with an empty wheel leaves it empty exactly when it delays nothing. -/
lemma plane_pending_iff (h : a.Keeps names rest)
    (hlength : ∀ rx ∈ a.received, rx.length.toNat ≤ shape.umem.frameSize.toNat)
    (hempty : a.timingWheel.pending = 0) (rules : List ChaosRule) :
    (a.plane rules).1.timingWheel.pending = 0 ↔ ¬ a.Delays rules := by
  have htick : a.timingWheel.tick.2.pending = 0 := by
    have hsplit := a.timingWheel.pending_tick
    rw [hempty] at hsplit
    exact (add_eq_zero.mp hsplit.symm).2
  rw [plane, processPacketBatch_pending_iff (some 0) shape.umem.umemSizeBytes rules
    kDefaultTimingWheelTickNs (h.received_disjoint hlength) htick, List.forall_mem_map, Delays,
    not_exists]
  refine forall_congr' fun rx => ?_
  rw [not_and]
  refine forall_congr' fun hrx => not_congr ?_
  exact judge_delays_iff _ _ rules _ _ _ (h.received_within hrx (hlength rx hrx))

end AfXdpRuntimeAdapter

/-! ### Runs -/

namespace Host

variable {s : Host shape} {count : ℕ}

/-- The states of the runs in which no poll delays a frame. -/
inductive Undelayed (count : ℕ) : Host shape → Prop where
  | start (ok : ((fresh : AfXdpRuntimeAdapter shape).init count).1 = .ok) :
      Undelayed count (start shape count)
  | kernel {s s' : Host shape} (undelayed : Undelayed count s) (step : KernelStep s s') :
      Undelayed count s'
  | poll {s : Host shape} (undelayed : Undelayed count s) {rules : List ChaosRule}
      (quiet : ¬ s.runtime.Delays rules) : Undelayed count (s.poll rules)

lemma Undelayed.reachable (h : Undelayed count s) : Reachable (fun _ => True) count s := by
  induction h with
  | start hok => exact .start hok
  | kernel _ hstep ih => exact .kernel ih hstep
  | poll _ _ ih => exact .poll ih trivial _

/-- A poll from an empty wheel. -/
lemma Reachable.poll_pending_iff (h : Reachable (fun _ => True) count s)
    (hempty : s.runtime.timingWheel.pending = 0) (rules : List ChaosRule) :
    (s.poll rules).runtime.timingWheel.pending = 0 ↔ ¬ s.runtime.Delays rules := by
  obtain ⟨stranded, hholds⟩ := h.holds
  obtain ⟨lost, hpolled, -⟩ := hholds.poll rules
  rw [Host.poll, hpolled.wheel_eq]
  exact plane_pending_iff hholds.keeps (fun rx hrx => (h.intact.received rx hrx).1) hempty rules

lemma Undelayed.pending_eq_zero (h : Undelayed count s) : s.runtime.timingWheel.pending = 0 := by
  induction h with
  | start hok =>
    rw [(init_posting hok).1.wheel_eq]
    exact TimingWheel.pending_fresh
  | kernel _ hstep ih =>
    rw [hstep.same.2.1]
    exact ih
  | poll hundelayed hquiet ih => exact (hundelayed.reachable.poll_pending_iff ih _).mpr hquiet

/-- In every run in which no poll delays a frame the owner tags are truthful, and the next poll
keeps them truthful exactly when it delays no frame either. -/
theorem owner_tags_truthful (htx : min count shape.umem.frameCount ≤ shape.socket.txSize.toNat)
    (h : Undelayed count s) :
    s.Truthful ∧ ∀ rules, (s.poll rules).Truthful ↔ ¬ s.runtime.Delays rules := by
  have hreachable := h.reachable
  have hiff : ∀ s : Host shape, Reachable (fun _ => True) count s →
      (s.Truthful ↔ s.runtime.timingWheel.pending = 0) :=
    fun s hs => (hs.holds_ample htx).1.truthful_iff hs.accounted
  refine ⟨(hiff s hreachable).mpr h.pending_eq_zero, fun rules => ?_⟩
  rw [hiff _ (.poll hreachable trivial rules)]
  exact hreachable.poll_pending_iff h.pending_eq_zero rules

/-- A datagram has been received; a poll without rules delays nothing. -/
theorem owner_tags_truthful_marked :
    ¬ markedReceived.runtime.Delays [] ∧ markedReceived.Truthful ∧
      (markedReceived.poll []).Truthful := by
  have hundelayed : Undelayed 1 markedReceived :=
    .kernel (.kernel (.start (by decide)) (.takeFill _)) kernelStep_markedReceived
  have hquiet : ¬ markedReceived.runtime.Delays [] := by decide +kernel
  obtain ⟨htruthful, hpoll⟩ := owner_tags_truthful (by decide) hundelayed
  exact ⟨hquiet, htruthful, (hpoll []).mpr hquiet⟩

/-- A poll that delays the datagram puts its frame into the wheel, and the frame stays tagged
`DataPlane`. -/
theorem delayed_frame_tagged_dataPlane :
    Reachable (fun _ => True) 1 (markedReceived.poll [delayRule 1]) ∧
    (markedReceived.poll [delayRule 1]).contents .timingWheel = {0} ∧
    (markedReceived.poll [delayRule 1]).runtime.allocator.owners firstFrame = .dataPlane ∧
    ¬ (markedReceived.poll [delayRule 1]).Truthful := by
  have howner : (markedReceived.poll [delayRule 1]).runtime.allocator.owners firstFrame =
      .dataPlane := by
    decide +kernel
  exact ⟨.poll reachable_markedReceived trivial _, by decide +kernel, howner,
    fun htruthful => htruthful.settled firstFrame howner⟩

end Host

end ChronosX
