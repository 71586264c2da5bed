import ChronosX.Runtime.Conservation

/-!
# The ownership check on received frames

`poll_once` asks the allocator for the current owner of a received frame and passes it on as the
expected owner of the transition, so that the transition never fails: every descriptor that
names a frame is handed to the data plane, whatever the frame's owner. The frames handed on were
posted, each once, exactly when the RX ring names frames tagged `FillRing` or `RxRing` only, and
none of them twice.

Nothing is assumed here of the other side of the socket: between polls the rings and the bytes
of the UMEM may change in any way.
-/

namespace ChronosX

open Mem AfXdpRuntimeAdapter FrameAllocator

variable {shape : RuntimeShape}

/-! ### The states of an adapter -/

/-- The states an adapter can be in, when every poll is called in a state that is `allowed`. -/
inductive AfXdpRuntimeAdapter.Driven (allowed : AfXdpRuntimeAdapter shape → Prop) :
    AfXdpRuntimeAdapter shape → Prop where
  | fresh : Driven allowed fresh
  | init {a : AfXdpRuntimeAdapter shape} (driven : Driven allowed a) (count : ℕ) :
      Driven allowed (a.init count).2
  | outside {a : AfXdpRuntimeAdapter shape} (driven : Driven allowed a)
      (socket : SimulatedXskSocket shape.socket) (umem : Umem) :
      Driven allowed { a with socket, umem }
  | poll {a : AfXdpRuntimeAdapter shape} (driven : Driven allowed a) (ok : allowed a)
      (rules : List ChaosRule) : Driven allowed (a.pollOnce rules).2.adapter

/-! ### The loop over the received descriptors -/

/-- The owner tags of a frame that may be received. -/
def FrameOwner.Posted (owner : FrameOwner) : Prop := owner = .fillRing ∨ owner = .rxRing

instance : DecidablePred FrameOwner.Posted := fun _ => inferInstanceAs (Decidable (_ ∨ _))

lemma FrameOwner.Posted.ne_free {owner : FrameOwner} (h : owner.Posted) : owner ≠ .free := by
  rcases h with rfl | rfl <;> decide

/-- The check of one descriptor: it is handed on and names a frame whose owner is `FillRing` or
`RxRing`, or it is counted and nothing else changes. -/
def Checked (acc : List PacketDescriptor × Poll shape) (rx : RxDescriptor) : Prop :=
  ((∃ i, rx.address = shape.umem.address i ∧ (acc.2.adapter.allocator.owners i).Posted) ∧
    (Poll.receiveOne acc rx).1 = acc.1 ++ [Poll.packetDescriptor rx]) ∨
  ((Poll.receiveOne acc rx).1 = acc.1 ∧
    (Poll.receiveOne acc rx).2.stats.ownerFailures = acc.2.stats.ownerFailures + 1 ∧
    (Poll.receiveOne acc rx).2.adapter.allocator.owners = acc.2.adapter.allocator.owners ∧
    (Poll.receiveOne acc rx).2.adapter.allocator.freeStack = acc.2.adapter.allocator.freeStack ∧
    (Poll.receiveOne acc rx).2.adapter.umem = acc.2.adapter.umem)

/-- Every descriptor is checked when its turn comes. -/
def CheckedAll (acc : List PacketDescriptor × Poll shape) : List RxDescriptor → Prop
  | [] => True
  | rx :: l => Checked acc rx ∧ CheckedAll (Poll.receiveOne acc rx) l

/-- The RX part of a poll checks every descriptor, and so hands on no frame twice and no frame
of the free stack. -/
structure RxChecked (p : Poll shape) : Prop where
  checked : CheckedAll ([], p.consumed) p.adapter.received
  once : (p.receive.1.map (·.frameAddress)).Nodup
  notFree : ∀ d ∈ p.receive.1, ∀ i, d.frameAddress = shape.umem.address i →
    i ∉ p.adapter.allocator.freeStack

/-- Two descriptors do not name the same frame. -/
def Apart (shape : RuntimeShape) (rx rx' : RxDescriptor) : Prop :=
  ∀ i, rx.address = shape.umem.address i → rx'.address ≠ shape.umem.address i

/-- The received descriptors that name frames name posted ones, none of them twice. -/
structure RxSound (p : Poll shape) : Prop where
  posted : ∀ rx ∈ p.adapter.received, ∀ i, rx.address = shape.umem.address i →
    (p.adapter.allocator.owners i).Posted
  apart : p.adapter.received.Pairwise (Apart shape)

lemma address_inj {i j : Fin shape.umem.frameCount}
    (h : shape.umem.address i = shape.umem.address j) : i = j :=
  UmemShape.handle_address_inj.mp h

/-- A descriptor that names a frame passes the check when the frame is posted. -/
lemma checked_iff_of_valid (ds : List PacketDescriptor) (p : Poll shape) (rx : RxDescriptor)
    {i : Fin shape.umem.frameCount} (hi : rx.address = shape.umem.address i) :
    Checked (ds, p) rx ↔ (p.adapter.allocator.owners i).Posted := by
  have heq := receiveOne_valid ds p rx hi
  constructor
  · rintro (⟨⟨j, hj, hposted⟩, -⟩ | ⟨hsame, -⟩)
    · rwa [address_inj (hi.symm.trans hj)]
    · rw [heq] at hsame
      exact absurd hsame (by simp)
  · intro hposted
    exact Or.inl ⟨⟨i, hi, hposted⟩, by rw [heq]⟩

/-- A descriptor that names no frame is always counted. -/
lemma checked_of_invalid (ds : List PacketDescriptor) (p : Poll shape) (rx : RxDescriptor)
    (h : ∀ i, rx.address ≠ shape.umem.address i) : Checked (ds, p) rx := by
  have heq := receiveOne_invalid ds p rx h
  refine Or.inr ⟨?_, ?_, ?_, ?_, ?_⟩ <;> rw [heq] <;> rfl

/-- The loop checks every descriptor exactly when the tags before it allow all of them and no
frame is named twice. -/
lemma checkedAll_iff (l : List RxDescriptor) (ds : List PacketDescriptor) (p : Poll shape) :
    CheckedAll (ds, p) l ↔
      (∀ rx ∈ l, ∀ i, rx.address = shape.umem.address i →
        (p.adapter.allocator.owners i).Posted) ∧ l.Pairwise (Apart shape) := by
  induction l generalizing ds p with
  | nil => simp [CheckedAll]
  | cons rx l ih =>
    rw [CheckedAll, List.forall_mem_cons, List.pairwise_cons]
    by_cases hvalid : ∃ i, rx.address = shape.umem.address i
    · obtain ⟨i, hi⟩ := hvalid
      rw [checked_iff_of_valid ds p rx hi, receiveOne_valid ds p rx hi, ih]
      -- the frame just handed on is tagged `DataPlane`, so the rest must not name it again
      constructor
      · rintro ⟨hposted, hrest, hapart⟩
        have hne : ∀ rx' ∈ l, rx'.address ≠ shape.umem.address i := by
          intro rx' hmem hi'
          have hagain := hrest rx' hmem i hi'
          simp [FrameOwner.Posted] at hagain
        refine ⟨⟨?_, ?_⟩, ?_, hapart⟩
        · intro j hj
          rwa [← address_inj (hi.symm.trans hj)]
        · intro rx' hmem j hj
          have hji : j ≠ i := fun heq => hne rx' hmem (heq ▸ hj)
          have hother := hrest rx' hmem j hj
          rwa [FrameAllocator.owners_setOwner, Function.update_of_ne hji] at hother
        · intro rx' hmem j hj
          rw [← address_inj (hi.symm.trans hj)]
          exact hne rx' hmem
      · rintro ⟨⟨hposted, hrest⟩, hne, hapart⟩
        refine ⟨hposted i hi, ?_, hapart⟩
        intro rx' hmem j hj
        have hji : j ≠ i := fun heq => hne rx' hmem i hi (heq ▸ hj)
        rw [FrameAllocator.owners_setOwner, Function.update_of_ne hji]
        exact hrest rx' hmem j hj
    · rw [not_exists] at hvalid
      rw [receiveOne_invalid ds p rx hvalid, ih]
      constructor
      · rintro ⟨-, hrest, hapart⟩
        exact ⟨⟨fun i hi => absurd hi (hvalid i), hrest⟩,
          fun _ _ i hi => absurd hi (hvalid i), hapart⟩
      · rintro ⟨⟨-, hrest⟩, -, hapart⟩
        exact ⟨checked_of_invalid ds p rx hvalid, hrest, hapart⟩

lemma exists_frame {k : UInt64} (h : (shape.umem.handleFromAddress k).ok = true) :
    ∃ i, k = shape.umem.address i := by
  rw [FrameAllocation.ok, beq_iff_eq] at h
  obtain ⟨i, hi, -⟩ := UmemShape.handleFromAddress_eq_ok h
  exact ⟨i, hi⟩

/-- The descriptors handed on are those that name a frame. -/
lemma foldl_receiveOne_fst (l : List RxDescriptor) (ds : List PacketDescriptor) (p : Poll shape) :
    (l.foldl Poll.receiveOne (ds, p)).1 = ds ++
      (l.filter fun rx => (shape.umem.handleFromAddress rx.address).ok).map
        Poll.packetDescriptor := by
  induction l generalizing ds p with
  | nil => simp
  | cons rx l ih =>
    rw [List.foldl_cons, List.filter_cons]
    by_cases hvalid : ∃ i, rx.address = shape.umem.address i
    · obtain ⟨i, hi⟩ := hvalid
      rw [receiveOne_valid ds p rx hi, ih, UmemShape.handleFromAddress_of_eq hi]
      simp [FrameAllocation.ok]
    · rw [not_exists] at hvalid
      have hbad : (shape.umem.handleFromAddress rx.address).ok = false := by
        rw [← Bool.not_eq_true]
        intro hok
        obtain ⟨i, hi⟩ := exists_frame hok
        exact hvalid i hi
      rw [receiveOne_invalid ds p rx hvalid, ih, hbad]
      simp

lemma mem_receive {p : Poll shape} {d : PacketDescriptor} (h : d ∈ p.receive.1) :
    ∃ rx ∈ p.adapter.received, ∃ i, rx.address = shape.umem.address i ∧
      d = Poll.packetDescriptor rx := by
  rw [Poll.receive_eq, foldl_receiveOne_fst, List.nil_append, List.mem_map] at h
  obtain ⟨rx, hmem, rfl⟩ := h
  obtain ⟨i, hi⟩ := exists_frame (List.mem_filter.mp hmem).2
  exact ⟨rx, (List.mem_filter.mp hmem).1, i, hi, rfl⟩

lemma length_receive_le (p : Poll shape) : p.receive.1.length ≤ kDataPlaneBatchSize := by
  rw [Poll.receive_eq, foldl_receiveOne_fst, List.nil_append, List.length_map]
  exact (List.length_filter_le _ _).trans (List.length_take_le _ _)

/-- Over a consistent allocator the RX part of a poll is checked exactly when the RX ring is
sound. -/
lemma rxChecked_iff {p : Poll shape} (h : p.adapter.allocator.Consistent) :
    RxChecked p ↔ RxSound p := by
  have hall := checkedAll_iff p.adapter.received [] p.consumed
  constructor
  · intro hchecked
    obtain ⟨hposted, hapart⟩ := hall.mp hchecked.checked
    exact ⟨hposted, hapart⟩
  · intro hsound
    refine ⟨hall.mpr ⟨hsound.posted, hsound.apart⟩, ?_, ?_⟩
    · rw [Poll.receive_eq, foldl_receiveOne_fst, List.nil_append, List.map_map, List.Nodup,
        List.pairwise_map]
      refine (hsound.apart.filter _).imp_of_mem ?_
      intro rx rx' hmem _ hapart heq
      obtain ⟨i, hi⟩ := exists_frame (List.mem_filter.mp hmem).2
      exact hapart i hi (heq.symm.trans hi)
    · intro d hd i hi hfree
      obtain ⟨rx, hmem, j, hj, rfl⟩ := mem_receive hd
      exact (hsound.posted rx hmem i hi).ne_free ((h.mem_iff i).mp hfree)

/-! ### The free frames during a poll -/

namespace FrameAllocator

variable {umem : UmemShape} {al al' al'' : FrameAllocator umem}

/-- The same frames are free, in the same order. -/
structure SameFree (al al' : FrameAllocator umem) : Prop where
  freeStack_eq : al'.freeStack = al.freeStack
  inUse_iff : ∀ i, al'.InUse i ↔ al.InUse i

namespace SameFree

lemma refl (al : FrameAllocator umem) : SameFree al al := ⟨rfl, fun _ => Iff.rfl⟩

lemma trans (h : SameFree al al') (h' : SameFree al' al'') : SameFree al al'' :=
  ⟨h'.freeStack_eq.trans h.freeStack_eq, fun i => (h'.inUse_iff i).trans (h.inUse_iff i)⟩

lemma consistent (h : SameFree al al') (hc : al.Consistent) : al'.Consistent := by
  refine ⟨by rw [h.freeStack_eq]; exact hc.nodup, fun i => ?_⟩
  rw [h.freeStack_eq, hc.mem_iff]
  exact (not_iff_not.mp (h.inUse_iff i)).symm

end SameFree

lemma sameFree_setOwner {i : Fin umem.frameCount} {owner : FrameOwner} (hi : al.InUse i)
    (howner : owner ≠ .free) : SameFree al (al.setOwner i owner) := by
  refine ⟨rfl, fun j => ?_⟩
  by_cases hj : j = i
  · subst hj
    simp only [InUse, owners_setOwner, Function.update_self]
    exact iff_of_true howner hi
  · simp only [InUse, owners_setOwner, Function.update_of_ne hj]

lemma sameFree_transition (al : FrameAllocator umem) (frame : FrameHandle)
    {expectedOwner nextOwner : FrameOwner} (hexpected : expectedOwner ≠ .free)
    (hnext : nextOwner ≠ .free) :
    SameFree al (al.transition frame expectedOwner nextOwner).2 := by
  rw [transition]
  split
  · exact ⟨rfl, fun _ => Iff.rfl⟩
  · rw [if_neg hnext]
    split_ifs with howner
    · exact ⟨rfl, fun _ => Iff.rfl⟩
    · exact sameFree_setOwner ((not_not.mp howner).trans_ne hexpected) hnext

end FrameAllocator

/-- From `p` to `p'` the same frames are free and the wheel is the same. -/
structure Stable (p p' : Poll shape) : Prop where
  sameFree : p.adapter.allocator.SameFree p'.adapter.allocator
  wheel_eq : p'.adapter.timingWheel = p.adapter.timingWheel
  initialized_eq : p'.adapter.initialized = p.adapter.initialized

/-- The frame an address names, if any, is in use. -/
def AfXdpRuntimeAdapter.InUse (a : AfXdpRuntimeAdapter shape) (k : UInt64) : Prop :=
  ∀ i, k = shape.umem.address i → a.allocator.InUse i

namespace Stable

variable {p p' p'' : Poll shape}

lemma refl (p : Poll shape) : Stable p p := ⟨.refl _, rfl, rfl⟩

lemma trans (h : Stable p p') (h' : Stable p' p'') : Stable p p'' :=
  ⟨h.sameFree.trans h'.sameFree, h'.wheel_eq.trans h.wheel_eq,
    h'.initialized_eq.trans h.initialized_eq⟩

lemma inUse (h : Stable p p') {k : UInt64} (hk : p.adapter.InUse k) : p'.adapter.InUse k :=
  fun i hi => (h.sameFree.inUse_iff i).mpr (hk i hi)

/-- A loop over items that stay admissible. -/
lemma foldl {α : Type} {f : Poll shape → α → Poll shape} {Q : Poll shape → α → Prop}
    (hmono : ∀ {p p' : Poll shape} {x : α}, Stable p p' → Q p x → Q p' x)
    (hstep : ∀ p x, Q p x → Stable p (f p x)) (l : List α) (p : Poll shape)
    (h : ∀ x ∈ l, Q p x) : Stable p (l.foldl f p) := by
  induction l generalizing p with
  | nil => exact refl p
  | cons x l ih =>
    rw [List.forall_mem_cons] at h
    have hx := hstep p x h.1
    exact hx.trans (ih (f p x) fun y hy => hmono hx (h.2 y hy))

end Stable

lemma refillOne_stable (p : Poll shape) (frame : FrameHandle) {owner : FrameOwner}
    (howner : owner ≠ .free) : Stable p (p.refillOne frame owner) := by
  have hpush := p.adapter.allocator.sameFree_transition frame howner
    (show FrameOwner.fillRing ≠ .free by decide)
  have hback := (p.adapter.allocator.transition frame owner .fillRing).2.sameFree_transition frame
    (show FrameOwner.fillRing ≠ .free by decide) howner
  simp only [Poll.refillOne]
  split_ifs
  · exact ⟨hpush, rfl, rfl⟩
  · exact ⟨hpush, rfl, rfl⟩
  · exact ⟨hpush.trans hback, rfl, rfl⟩

lemma submitOne_stable (p : Poll shape) (frame : ProcessedFrame)
    (h : p.adapter.InUse frame.frameAddress) : Stable p (p.submitOne frame) := by
  by_cases hvalid : (shape.umem.handleFromAddress frame.frameAddress).ok = true
  · obtain ⟨i, hi⟩ := exists_frame hvalid
    have hpush := FrameAllocator.sameFree_setOwner (h i hi)
      (show FrameOwner.txRing ≠ .free by decide)
    rcases submitOne_cases p i frame hi (h i hi) with ⟨-, ring, -, heq⟩ | ⟨-, heq⟩
    · rw [heq]
      exact ⟨hpush, rfl, rfl⟩
    · rw [heq]
      refine ⟨hpush.trans (FrameAllocator.sameFree_setOwner ?_ (h i hi)), rfl, rfl⟩
      exact (hpush.inUse_iff i).mpr (h i hi)
  · rw [Bool.not_eq_true] at hvalid
    simp only [Poll.submitOne, hvalid, Bool.not_false, if_true]
    exact ⟨.refl _, rfl, rfl⟩

lemma drainCompletions_stable (p : Poll shape) : Stable p p.drainCompletions := by
  have hstep : ∀ (p : Poll shape) (k : UInt64), True → Stable p (p.drainOne k) := by
    intro p k _
    rw [Poll.drainOne]
    split_ifs
    · exact ⟨.refl _, rfl, rfl⟩
    · exact refillOne_stable p _ (by decide)
  obtain ⟨hfree, hwheel, hinitialized⟩ := Stable.foldl (fun _ _ => trivial) hstep
    (p.adapter.socket.drainCompletions kDataPlaneBatchSize).1 { p with
      adapter.socket := (p.adapter.socket.drainCompletions kDataPlaneBatchSize).2.2
      stats.txCompleted := p.stats.txCompleted +
        (p.adapter.socket.drainCompletions kDataPlaneBatchSize).2.1.count } fun _ _ => trivial
  exact ⟨hfree, hwheel, hinitialized⟩

lemma releaseDelayed_stable (p : Poll shape)
    (h : ∀ frame ∈ p.adapter.timingWheel.tick.1, p.adapter.InUse frame.frameAddress) :
    Stable { p with adapter.timingWheel := p.adapter.timingWheel.tick.2 } p.releaseDelayed :=
  Stable.foldl (Q := fun p (frame : DelayedFrame) => p.adapter.InUse frame.frameAddress)
    (fun h hframe => h.inUse hframe)
    (fun p frame hframe => submitOne_stable p (Poll.expiredFrame frame) hframe)
    p.adapter.timingWheel.tick.1 _ h

lemma receive_stable {p : Poll shape} (h : RxSound p) : Stable p p.receive.2 := by
  have hloop : ∀ (l : List RxDescriptor) (ds : List PacketDescriptor) (p : Poll shape),
      (∀ rx ∈ l, p.adapter.InUse rx.address) →
        Stable p (l.foldl Poll.receiveOne (ds, p)).2 := by
    intro l
    induction l with
    | nil => exact fun _ p _ => Stable.refl p
    | cons rx l ih =>
      intro ds p hused
      rw [List.forall_mem_cons] at hused
      rw [List.foldl_cons]
      have hx : Stable p (Poll.receiveOne (ds, p) rx).2 := by
        by_cases hvalid : ∃ i, rx.address = shape.umem.address i
        · obtain ⟨i, hi⟩ := hvalid
          rw [receiveOne_valid ds p rx hi]
          exact ⟨FrameAllocator.sameFree_setOwner (hused.1 i hi) (by decide), rfl, rfl⟩
        · rw [not_exists] at hvalid
          rw [receiveOne_invalid ds p rx hvalid]
          exact ⟨.refl _, rfl, rfl⟩
      exact hx.trans (ih _ _ fun rx' hmem => hx.inUse (hused.2 rx' hmem))
  rw [Poll.receive_eq]
  obtain ⟨hfree, hwheel, hinitialized⟩ := hloop p.adapter.received [] p.consumed
    fun rx hmem i hi => (h.posted rx hmem i hi).ne_free
  exact ⟨hfree, hwheel, hinitialized⟩

lemma submitTx_stable (p : Poll shape) (l : List ProcessedFrame)
    (h : ∀ frame ∈ l, p.adapter.InUse frame.frameAddress) : Stable p (p.submitTx l) :=
  Stable.foldl (Q := fun p (frame : ProcessedFrame) => p.adapter.InUse frame.frameAddress)
    (fun h hframe => h.inUse hframe) submitOne_stable l p h

lemma refillRecycled_stable (p : Poll shape) (l : List ProcessedFrame) :
    Stable p (p.refillRecycled l) := by
  refine Stable.foldl (Q := fun _ _ => True) (fun _ _ => trivial) ?_ l p fun _ _ => trivial
  intro p frame _
  rw [Poll.recycleOne]
  split_ifs
  · exact ⟨.refl _, rfl, rfl⟩
  · exact refillOne_stable p _ (by decide)

lemma processed_sameFree (p : Poll shape) (rules : List ChaosRule) (ds : List PacketDescriptor) :
    p.adapter.allocator.SameFree (p.processed rules ds).adapter.allocator := .refl _

/-- What the data plane returns or delays was handed to it. -/
lemma batch_inUse {p : Poll shape} {ds : List PacketDescriptor} (rules : List ChaosRule)
    (hlength : ds.length ≤ kDataPlaneBatchSize)
    (h : ∀ d ∈ ds, p.adapter.InUse d.frameAddress) :
    (∀ frame ∈ (p.batch rules ds).1.tx,
      (p.processed rules ds).adapter.InUse frame.frameAddress) ∧
    ∀ frame ∈ (p.processed rules ds).adapter.timingWheel.pending,
      frame ∈ p.adapter.timingWheel.pending ∨
        (p.processed rules ds).adapter.InUse frame.frameAddress := by
  obtain ⟨frames, hwheel, hperm⟩ := (batched p rules ds hlength).shared
  have hshared : ∀ key ∈ (p.batch rules ds).1.tx.map (·.key) ++
      ((p.batch rules ds).1.recycle.map (·.key) ++ frames.map (·.key)),
      (p.processed rules ds).adapter.InUse key.1 := by
    intro key hkey
    obtain ⟨d, hd, rfl⟩ := List.mem_map.mp (hperm.mem_iff.mp hkey)
    exact h d hd
  have hpending : (p.processed rules ds).adapter.timingWheel.pending =
      p.adapter.timingWheel.pending + frames := hwheel.pending
  constructor
  · intro frame hframe
    exact hshared frame.key (List.mem_append_left _ (List.mem_map_of_mem hframe))
  · intro frame hframe
    rw [hpending, Multiset.mem_add] at hframe
    refine hframe.imp id fun hnew => ?_
    exact hshared frame.key
      (List.mem_append_right _ (List.mem_append_right _ (List.mem_map_of_mem hnew)))

/-! ### Sound adapters -/

/-- The allocator is consistent, and no frame in the wheel is free. -/
structure Sound (a : AfXdpRuntimeAdapter shape) : Prop where
  consistent : a.allocator.Consistent
  wheel : ∀ frame ∈ a.timingWheel.pending, a.InUse frame.frameAddress
  unstarted : a.initialized = false → a.timingWheel.pending = 0

namespace Sound

variable {a : AfXdpRuntimeAdapter shape}

lemma atReceive (h : Sound a) :
    Stable { adapter := { a with timingWheel := a.timingWheel.tick.2 } } a.atReceive := by
  have hdrain := drainCompletions_stable ({ adapter := a } : Poll shape)
  have hrelease := releaseDelayed_stable ({ adapter := a } : Poll shape).drainCompletions (by
    intro frame hframe
    rw [hdrain.wheel_eq] at hframe
    refine hdrain.inUse (h.wheel frame ?_)
    rw [a.timingWheel.pending_tick]
    exact Multiset.mem_add.mpr (Or.inl hframe))
  rw [AfXdpRuntimeAdapter.atReceive]
  constructor
  · exact hdrain.sameFree.trans hrelease.sameFree
  · rw [hrelease.wheel_eq, hdrain.wheel_eq]
  · exact hrelease.initialized_eq.trans hdrain.initialized_eq

/-- A poll that finds a sound RX ring leaves the free frames free and the others in use, and
delays frames in use. -/
lemma pollOnce_sameFree (h : Sound a) (hrx : RxSound a.atReceive) (hinit : a.initialized = true)
    (rules : List ChaosRule) :
    SameFree a.allocator (a.pollOnce rules).2.adapter.allocator ∧
    (a.pollOnce rules).2.adapter.initialized = true ∧
    ∀ frame ∈ (a.pollOnce rules).2.adapter.timingWheel.pending,
      frame ∈ a.timingWheel.tick.2.pending ∨
        (a.pollOnce rules).2.adapter.InUse frame.frameAddress := by
  have hreceive := h.atReceive.trans (receive_stable hrx)
  have hhanded : ∀ d ∈ a.atReceive.receive.1,
      a.atReceive.receive.2.adapter.InUse d.frameAddress := by
    intro d hd
    obtain ⟨rx, hmem, -, -, rfl⟩ := mem_receive hd
    exact (receive_stable hrx).inUse fun i hi => (hrx.posted rx hmem i hi).ne_free
  obtain ⟨htx, hpending⟩ := batch_inUse rules (length_receive_le a.atReceive) hhanded
  have hplane : SameFree a.atReceive.receive.2.adapter.allocator
      (a.atTransmit rules).adapter.allocator := processed_sameFree _ _ _
  have hsubmit := submitTx_stable (a.atTransmit rules) (a.batchOf rules).tx htx
  have hstable := hsubmit.trans (refillRecycled_stable _ (a.batchOf rules).recycle)
  rw [pollOnce_snd hinit]
  refine ⟨hreceive.sameFree.trans (hplane.trans hstable.sameFree), ?_, ?_⟩
  · rw [hstable.initialized_eq, atTransmit, Poll.processed_initialized, hreceive.initialized_eq]
    exact hinit
  · intro frame hframe
    rw [hstable.wheel_eq] at hframe
    rcases hpending frame hframe with hold | hnew
    · rw [hreceive.wheel_eq] at hold
      exact Or.inl hold
    · exact Or.inr (hstable.inUse hnew)

lemma pollOnce (h : Sound a) (hrx : a.initialized = true → RxSound a.atReceive)
    (rules : List ChaosRule) : Sound (a.pollOnce rules).2.adapter := by
  cases hinit : a.initialized with
  | false =>
    have heq : (a.pollOnce rules).2.adapter = a := by
      simp [AfXdpRuntimeAdapter.pollOnce, hinit]
    rwa [heq]
  | true =>
    obtain ⟨hfree, hinit', hpending⟩ := h.pollOnce_sameFree (hrx hinit) hinit rules
    refine ⟨hfree.consistent h.consistent, ?_, ?_⟩
    · intro frame hframe
      rcases hpending frame hframe with hold | hnew
      · intro i hi
        refine (hfree.inUse_iff i).mpr (h.wheel frame ?_ i hi)
        rw [a.timingWheel.pending_tick]
        exact Multiset.mem_add.mpr (Or.inr hold)
      · exact hnew
    · intro hfalse
      exact absurd (hinit'.symm.trans hfalse) (by decide)

/-- `init` posts free frames, before anything is in the wheel. -/
lemma postFrames (hconsistent : a.allocator.Consistent) (hempty : a.timingWheel.pending = 0)
    (count : ℕ) : Sound (a.postFrames count).2 := by
  induction count generalizing a with
  | zero => exact ⟨hconsistent, by simp [AfXdpRuntimeAdapter.postFrames, hempty], fun _ => hempty⟩
  | succ count ih =>
    have hallocate := hconsistent.allocate (show FrameOwner.fillRing ≠ .free by decide)
    simp only [AfXdpRuntimeAdapter.postFrames]
    split_ifs
    · exact ⟨hallocate, by simp [hempty], fun _ => hempty⟩
    · exact ⟨(hallocate.transition _ _ (by decide)).1, by simp [hempty], fun _ => hempty⟩
    · exact ih hallocate hempty

lemma init (h : Sound a) (count : ℕ) : Sound (a.init count).2 := by
  rw [AfXdpRuntimeAdapter.init]
  split
  · exact h
  · next hinit => exact postFrames h.consistent (h.unstarted (by simpa using hinit)) _

end Sound

lemma sound_fresh : Sound (AfXdpRuntimeAdapter.fresh : AfXdpRuntimeAdapter shape) where
  consistent := FrameAllocator.consistent_fresh
  wheel := by simp [AfXdpRuntimeAdapter.fresh]
  unstarted := fun _ => TimingWheel.pending_fresh

/-- Adapters whose polls all found a sound RX ring are sound. -/
lemma AfXdpRuntimeAdapter.Driven.sound {a : AfXdpRuntimeAdapter shape}
    (h : Driven (fun a => a.initialized = true → RxSound a.atReceive) a) : Sound a := by
  induction h with
  | fresh => exact sound_fresh
  | init _ count ih => exact ih.init count
  | outside _ socket umem ih => exact ⟨ih.consistent, ih.wheel, ih.unstarted⟩
  | poll _ hrx rules ih => exact ih.pollOnce hrx rules

/-- In a run whose polls all found a sound RX ring, the next poll hands what its RX part lets
through to the data plane, and the RX part checks the ownership of what it receives exactly when the
RX ring is sound again. -/
theorem rx_ownership_iff {a : AfXdpRuntimeAdapter shape}
    (h : Driven (fun a => a.initialized = true → RxSound a.atReceive) a)
    (hinit : a.initialized = true) :
    (∀ rules,
      let received := a.atReceive.receive
      let batch := (received.2.batch rules received.1).1
      (a.pollOnce rules).2 =
        ((received.2.processed rules received.1).submitTx batch.tx).refillRecycled batch.recycle) ∧
    (RxChecked a.atReceive ↔ RxSound a.atReceive) :=
  ⟨fun rules => pollOnce_snd hinit rules,
    rxChecked_iff (h.sound.atReceive.sameFree.consistent h.sound.consistent)⟩

/-- An adapter with posted frames, whose RX ring names the first frame of the pool. -/
def firstFrameReceived (count : ℕ) : AfXdpRuntimeAdapter Host.oneTxSlot :=
  { (AfXdpRuntimeAdapter.fresh.init count).2 with
    socket := ((AfXdpRuntimeAdapter.fresh.init count).2.socket.injectRx [⟨0, 42, 0⟩]).2
    umem := Host.datagrams 1 }

lemma driven_firstFrameReceived {allowed : AfXdpRuntimeAdapter Host.oneTxSlot → Prop} (count : ℕ) :
    Driven allowed (firstFrameReceived count) :=
  .outside (.init .fresh count) _ _

/-- The first frame was posted: it is handed on, and the check has passed. -/
theorem rx_ownership_iff_posted :
    (firstFrameReceived 1).atReceive.receive.1 = [⟨0, 42, 0⟩] ∧
    RxChecked (firstFrameReceived 1).atReceive := by
  have hreceived : (firstFrameReceived 1).atReceive.adapter.received = [⟨0, 42, 0⟩] := by decide
  have hsound : RxSound (firstFrameReceived 1).atReceive := by
    refine ⟨by decide, ?_⟩
    rw [hreceived]
    exact List.pairwise_singleton _ _
  exact ⟨by decide,
    (rx_ownership_iff (driven_firstFrameReceived 1) (by decide)).2.mpr hsound⟩

def firstFrame : Fin Host.oneTxSlot.umem.frameCount := ⟨0, by decide⟩

/-- No frame was posted: the first frame is on the free stack, and is handed on all the same. -/
theorem free_frame_handed :
    Driven (fun a => a.initialized = true → RxSound a.atReceive) (firstFrameReceived 0) ∧
    (firstFrameReceived 0).initialized = true ∧
    (firstFrameReceived 0).atReceive.receive.1 = [⟨0, 42, 0⟩] ∧
    (firstFrameReceived 0).atReceive.receive.2.stats.ownerFailures = 0 ∧
    firstFrame ∈ (firstFrameReceived 0).atReceive.adapter.allocator.freeStack ∧
    ¬ RxChecked (firstFrameReceived 0).atReceive := by
  have hhanded : (firstFrameReceived 0).atReceive.receive.1 = [⟨0, 42, 0⟩] := by decide
  have hfree : firstFrame ∈ (firstFrameReceived 0).atReceive.adapter.allocator.freeStack := by
    decide
  refine ⟨driven_firstFrameReceived 0, by decide, hhanded, by decide, hfree, ?_⟩
  intro hchecked
  refine hchecked.notFree ⟨0, 42, 0⟩ ?_ firstFrame (by decide) hfree
  rw [hhanded]
  exact List.mem_singleton_self _

end ChronosX
