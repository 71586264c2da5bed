import ChronosX.Allocator.Basic
import Mathlib.Data.Fintype.Card
import Mathlib.Data.List.Induction
import Mathlib.Order.CompletePartialOrder
import Mathlib.Order.Interval.Set.Disjoint

/-!
# The representation invariant of the frame allocator

The stack lists exactly the frames tagged free, each once. Every call keeps this, provided
that no caller uses `Free` as the owner of an allocation or as an expected owner and that no
frame is named twice in one `release_batch`. A release then always finds room on the stack.
-/

namespace ChronosX

namespace FrameAllocator

variable {shape : UmemShape} {a : FrameAllocator shape}

/-- The stack lists the frames tagged free, each once. -/
structure Consistent (a : FrameAllocator shape) : Prop where
  nodup : a.freeStack.Nodup
  mem_iff : ∀ i, i ∈ a.freeStack ↔ a.owners i = .free

/-- A frame is in use when some component owns it. -/
def InUse (a : FrameAllocator shape) (i : Fin shape.frameCount) : Prop := a.owners i ≠ .free

instance (a : FrameAllocator shape) : DecidablePred a.InUse := fun i =>
  inferInstanceAs (Decidable (a.owners i ≠ .free))

lemma consistent_fresh : (fresh : FrameAllocator shape).Consistent :=
  ⟨List.nodup_finRange _, fun i => by simp [fresh]⟩

namespace Consistent

lemma notMem (h : a.Consistent) {i : Fin shape.frameCount} (hi : a.InUse i) :
    i ∉ a.freeStack :=
  fun hmem => hi ((h.mem_iff i).mp hmem)

/-! ### The three updates -/

lemma setOwner (h : a.Consistent) {i : Fin shape.frameCount} {owner : FrameOwner}
    (hi : a.InUse i) (howner : owner ≠ .free) : (a.setOwner i owner).Consistent := by
  refine ⟨h.nodup, fun j => ?_⟩
  by_cases hj : j = i
  · subst hj
    simp [howner, h.notMem hi]
  · simp [hj, h.mem_iff j]

lemma push (h : a.Consistent) {i : Fin shape.frameCount} (hi : a.InUse i) :
    (a.push i).Consistent := by
  refine ⟨List.nodup_cons.mpr ⟨h.notMem hi, h.nodup⟩, fun j => ?_⟩
  by_cases hj : j = i
  · subst hj
    simp
  · simp [hj, h.mem_iff j]

lemma pop (h : a.Consistent) {i : Fin shape.frameCount} {rest : List (Fin shape.frameCount)}
    (hstack : a.freeStack = i :: rest) {owner : FrameOwner} (howner : owner ≠ .free) :
    ({ a.setOwner i owner with freeStack := rest } : FrameAllocator shape).Consistent := by
  have hnodup := h.nodup
  rw [hstack, List.nodup_cons] at hnodup
  refine ⟨hnodup.2, fun j => ?_⟩
  by_cases hj : j = i
  · subst hj
    simp [howner, hnodup.1]
  · have := h.mem_iff j
    rw [hstack, List.mem_cons, or_iff_right hj] at this
    simp [hj, this]

/-! ### Room on the stack -/

/-- The free stack and any distinct frames in use fit in the pool together. -/
lemma available_add_le (h : a.Consistent) {l : List (Fin shape.frameCount)} (hl : l.Nodup)
    (hused : ∀ i ∈ l, a.InUse i) : a.available + l.length ≤ shape.frameCount := by
  have hnodup : (a.freeStack ++ l).Nodup :=
    h.nodup.append hl fun i hfree hi => h.notMem (hused i hi) hfree
  have hle := hnodup.length_le_card
  rwa [List.length_append, Fintype.card_fin] at hle

lemma available_lt (h : a.Consistent) {i : Fin shape.frameCount} (hi : a.InUse i) :
    a.available < shape.frameCount :=
  h.available_add_le (List.nodup_singleton i) (by simpa using hi)

/-- Every frame is available or in use. -/
lemma available_add_card (h : a.Consistent) :
    a.available + (Finset.univ.filter a.InUse).card = shape.frameCount := by
  have hfree : a.freeStack.toFinset = Finset.univ.filter fun i => ¬ a.InUse i := by
    ext i
    simp [h.mem_iff i, InUse]
  have hcard : a.available = (Finset.univ.filter fun i => ¬ a.InUse i).card := by
    rw [← hfree, List.toFinset_card_of_nodup h.nodup, available]
  rw [hcard, Nat.add_comm, Finset.card_filter_add_card_filter_not, Finset.card_univ,
    Fintype.card_fin]

end Consistent

/-! ### Calls -/

/-- A call of the allocator's interface. -/
inductive Call where
  | allocate (owner : FrameOwner)
  | allocateBatch (size : ℕ) (owner : FrameOwner)
  | transition (frame : FrameHandle) (expectedOwner nextOwner : FrameOwner)
  | release (frame : FrameHandle) (expectedOwner : FrameOwner)
  | releaseBatch (frames : List FrameHandle) (expectedOwner : FrameOwner)
deriving DecidableEq

/-- What a call returns: the handles it hands out and its status. -/
structure Reply where
  granted : List FrameHandle
  status : FrameStatus

/-- Run one call. A batch allocation has no status: it hands out what there is. -/
def Call.perform : Call → FrameAllocator shape → Reply × FrameAllocator shape
  | .allocate owner, a =>
    let (allocation, a) := a.allocate owner
    (⟨if allocation.ok then [allocation.frame] else [], allocation.status⟩, a)
  | .allocateBatch size owner, a =>
    let (frames, a) := a.allocateBatch size owner
    (⟨frames, .ok⟩, a)
  | .transition frame expectedOwner nextOwner, a =>
    let (status, a) := a.transition frame expectedOwner nextOwner
    (⟨[], status⟩, a)
  | .release frame expectedOwner, a =>
    let (status, a) := a.release frame expectedOwner
    (⟨[], status⟩, a)
  | .releaseBatch frames expectedOwner, a =>
    let (status, a) := a.releaseBatch frames expectedOwner
    (⟨[], status⟩, a)

/-- The frames named by the valid handles of a list. -/
def namedFrames (shape : UmemShape) (frames : List FrameHandle) : List (Fin shape.frameCount) :=
  frames.filterMap fun frame => (shape.validateFrame frame).toOption

/-- `Free` is never the owner of an allocation nor an expected owner, and a batch names no
frame twice. -/
def Call.Admissible (shape : UmemShape) : Call → Prop
  | .allocate owner => owner ≠ .free
  | .allocateBatch _ owner => owner ≠ .free
  | .transition _ expectedOwner _ => expectedOwner ≠ .free
  | .release _ expectedOwner => expectedOwner ≠ .free
  | .releaseBatch frames expectedOwner => expectedOwner ≠ .free ∧ (namedFrames shape frames).Nodup

instance (shape : UmemShape) : DecidablePred (Call.Admissible shape) := fun call => by
  cases call <;> unfold Call.Admissible <;> infer_instance

/-- The allocator after a sequence of calls on a fresh one. -/
def runCalls (shape : UmemShape) (calls : List Call) : FrameAllocator shape :=
  calls.foldl (fun a call => (call.perform a).2) fresh

/-! ### Each call keeps the invariant -/

/-- The handles are those of pairwise distinct frames that were free. -/
def Grants (a : FrameAllocator shape) (frames : List FrameHandle) : Prop :=
  ∃ indices : List (Fin shape.frameCount), indices.Nodup ∧ (∀ i ∈ indices, a.owners i = .free) ∧
    frames = indices.map shape.handle

lemma grants_nil : a.Grants [] := ⟨[], List.nodup_nil, by simp, rfl⟩

namespace Consistent

variable {owner expectedOwner : FrameOwner}

lemma allocate (h : a.Consistent) (howner : owner ≠ .free) : (a.allocate owner).2.Consistent := by
  unfold FrameAllocator.allocate
  split
  · exact ⟨h.nodup, h.mem_iff⟩
  · exact h.pop ‹_› howner

/-- The loop takes frames off the top of the stack. -/
lemma allocateLoop (h : a.Consistent) (howner : owner ≠ .free) (count : ℕ) :
    (FrameAllocator.allocateLoop owner count a).2.Consistent ∧
      (FrameAllocator.allocateLoop owner count a).1 =
        (a.freeStack.take count).map shape.handle := by
  induction count generalizing a with
  | zero => exact ⟨h, rfl⟩
  | succ count ih =>
    cases hstack : a.freeStack with
    | nil => simpa [FrameAllocator.allocateLoop, available, hstack] using h
    | cons i rest =>
      have hroom : a.available > 0 := by simp [available, hstack]
      obtain ⟨hcons, heq⟩ := ih (h.pop hstack howner)
      simp only [FrameAllocator.allocateLoop, if_pos hroom, FrameAllocator.allocate, hstack,
        List.take_succ_cons, List.map_cons]
      exact ⟨hcons, by rw [heq]⟩

lemma allocateBatch (h : a.Consistent) (howner : owner ≠ .free) (size : ℕ) :
    (a.allocateBatch size owner).2.Consistent ∧ a.Grants (a.allocateBatch size owner).1 := by
  obtain ⟨hcons, heq⟩ := h.allocateLoop howner size
  have hgrants : a.Grants (FrameAllocator.allocateLoop owner size a).1 := by
    refine ⟨a.freeStack.take size, h.nodup.sublist (List.take_sublist _ _), fun i hi => ?_, heq⟩
    exact (h.mem_iff i).mp (List.mem_of_mem_take hi)
  simp only [FrameAllocator.allocateBatch]
  split
  · exact ⟨⟨hcons.nodup, hcons.mem_iff⟩, hgrants⟩
  · exact ⟨hcons, hgrants⟩

/-- A release keeps the invariant and never reports a full pool. -/
lemma release (h : a.Consistent) (frame : FrameHandle) (hexpected : expectedOwner ≠ .free) :
    (a.release frame expectedOwner).2.Consistent ∧
      (a.release frame expectedOwner).1 ≠ .poolFull := by
  unfold FrameAllocator.release
  split
  · exact ⟨⟨h.nodup, h.mem_iff⟩, UmemShape.validateFrame_ne_poolFull ‹_›⟩
  · split_ifs with howner hfull
    · exact ⟨⟨h.nodup, h.mem_iff⟩, by simp [refuseRelease]⟩
    · have hused : a.InUse _ := (not_not.mp howner).trans_ne hexpected
      exact absurd (h.available_lt hused) (Nat.not_lt.mpr hfull)
    · have hused : a.InUse _ := (not_not.mp howner).trans_ne hexpected
      exact ⟨h.push hused, by simp⟩

lemma transition (h : a.Consistent) (frame : FrameHandle) (nextOwner : FrameOwner)
    (hexpected : expectedOwner ≠ .free) :
    (a.transition frame expectedOwner nextOwner).2.Consistent ∧
      (a.transition frame expectedOwner nextOwner).1 ≠ .poolFull := by
  unfold FrameAllocator.transition
  split
  · exact ⟨⟨h.nodup, h.mem_iff⟩, UmemShape.validateFrame_ne_poolFull ‹_›⟩
  · split_ifs with howner hnext
    · exact ⟨⟨h.nodup, h.mem_iff⟩, by simp [refuseTransition]⟩
    · exact h.release frame hexpected
    · exact ⟨h.setOwner ((not_not.mp howner).trans_ne hexpected) hnext, by simp⟩

/-- Pushing distinct frames in use, one after another. -/
lemma foldl_push (h : a.Consistent) {l : List (Fin shape.frameCount)} (hl : l.Nodup)
    (hused : ∀ i ∈ l, a.InUse i) : (l.foldl FrameAllocator.push a).Consistent := by
  induction l generalizing a with
  | nil => exact h
  | cons i l ih =>
    rw [List.nodup_cons] at hl
    refine ih (h.push (hused i List.mem_cons_self)) hl.2 fun j hj => ?_
    have hji : j ≠ i := fun heq => hl.1 (heq ▸ hj)
    simpa [InUse, hji] using hused j (List.mem_cons_of_mem _ hj)

end Consistent

/-- The checking loop collects the frames named by the batch, all owned as expected, and its
failures are not `PoolFull`. -/
lemma checkBatch_spec (a : FrameAllocator shape) (expectedOwner : FrameOwner)
    (frames : List FrameHandle) :
    match a.checkBatch expectedOwner frames with
    | .error status => status ≠ .poolFull
    | .ok indices => indices = namedFrames shape frames ∧ indices.length = frames.length ∧
        ∀ i ∈ indices, a.owners i = expectedOwner := by
  induction frames with
  | nil => simp [checkBatch, namedFrames]
  | cons frame frames ih =>
    cases hvalid : shape.validateFrame frame with
    | error status =>
      simpa only [checkBatch, hvalid] using UmemShape.validateFrame_ne_poolFull hvalid
    | ok index =>
      by_cases howner : a.owners index = expectedOwner
      · simp only [checkBatch, hvalid, howner, ne_eq, not_true_eq_false, if_false]
        cases hrest : a.checkBatch expectedOwner frames with
        | error status => simpa [hrest, Except.map] using ih
        | ok indices =>
          simp only [hrest] at ih
          obtain ⟨heq, hlength, howners⟩ := ih
          simp only [Except.map, List.length_cons, hlength, List.mem_cons, forall_eq_or_imp,
            howner, true_and]
          refine ⟨?_, howners⟩
          simp only [heq, namedFrames, List.filterMap_cons, hvalid, Except.toOption]
      · simp [checkBatch, hvalid, howner]

namespace Consistent

variable {owner expectedOwner : FrameOwner}

lemma releaseBatch (h : a.Consistent) (frames : List FrameHandle)
    (hexpected : expectedOwner ≠ .free) (hdistinct : (namedFrames shape frames).Nodup) :
    (a.releaseBatch frames expectedOwner).2.Consistent ∧
      (a.releaseBatch frames expectedOwner).1 ≠ .poolFull := by
  have hspec := checkBatch_spec a expectedOwner frames
  unfold FrameAllocator.releaseBatch
  split
  · next hcheck =>
    rw [hcheck] at hspec
    exact ⟨⟨h.nodup, h.mem_iff⟩, hspec⟩
  · next indices hcheck =>
    rw [hcheck] at hspec
    obtain ⟨heq, hlength, howners⟩ := hspec
    have hnodup : indices.Nodup := heq ▸ hdistinct
    have hused : ∀ i ∈ indices, a.InUse i := fun i hi => (howners i hi).trans_ne hexpected
    split_ifs with hfull
    · rw [← hlength] at hfull
      exact absurd (h.available_add_le hnodup hused) (Nat.not_le.mpr hfull)
    · exact ⟨h.foldl_push hnodup hused, by simp⟩

/-- One admissible call: the invariant is kept, only free frames are handed out, and the pool
is never reported full. -/
lemma perform (h : a.Consistent) {call : Call} (hcall : call.Admissible shape) :
    (call.perform a).2.Consistent ∧ a.Grants (call.perform a).1.granted ∧
      (call.perform a).1.status ≠ .poolFull := by
  cases call with
  | allocate owner =>
    refine ⟨h.allocate hcall, ?_⟩
    cases hstack : a.freeStack with
    | nil => simpa [Call.perform, FrameAllocator.allocate, hstack, FrameAllocation.ok] using
        grants_nil
    | cons i rest =>
      simp only [Call.perform, FrameAllocator.allocate, hstack, FrameAllocation.ok, beq_self_eq_true,
        if_true]
      refine ⟨⟨[i], List.nodup_singleton i, fun j hj => ?_, rfl⟩, by simp⟩
      rw [List.mem_singleton] at hj
      rw [hj, ← h.mem_iff, hstack]
      exact List.mem_cons_self
  | allocateBatch size owner =>
    obtain ⟨hcons, hgrants⟩ := h.allocateBatch hcall size
    exact ⟨hcons, hgrants, by simp [Call.perform]⟩
  | transition frame expectedOwner nextOwner =>
    obtain ⟨hcons, hstatus⟩ := h.transition frame nextOwner hcall
    exact ⟨hcons, grants_nil, hstatus⟩
  | release frame expectedOwner =>
    obtain ⟨hcons, hstatus⟩ := h.release frame hcall
    exact ⟨hcons, grants_nil, hstatus⟩
  | releaseBatch frames expectedOwner =>
    obtain ⟨hcons, hstatus⟩ := h.releaseBatch frames hcall.1 hcall.2
    exact ⟨hcons, grants_nil, hstatus⟩

end Consistent

lemma consistent_runCalls {calls : List Call} (hcalls : ∀ call ∈ calls, call.Admissible shape) :
    (runCalls shape calls).Consistent := by
  induction calls using List.reverseRecOn with
  | nil => exact consistent_fresh
  | append_singleton calls call ih =>
    rw [runCalls, List.foldl_append]
    have hbefore := ih fun c hc => hcalls c (List.mem_append_left _ hc)
    exact (hbefore.perform (hcalls call (by simp))).1

/-! ### Byte ranges -/

/-- The bytes of a frame, by the address in its handle. -/
def byteRange (shape : UmemShape) (i : Fin shape.frameCount) : Set ℕ :=
  Set.Ico (shape.handle i).address.toNat
    ((shape.handle i).address.toNat + shape.frameSize.toNat)

lemma byteRange_disjoint {i j : Fin shape.frameCount} (hij : i ≠ j) :
    Disjoint (byteRange shape i) (byteRange shape j) := by
  rw [byteRange, byteRange, Set.Ico_disjoint_Ico, UmemShape.handle_address,
    UmemShape.handle_address]
  -- the ranges are consecutive multiples of the frame size
  rcases Nat.lt_or_gt_of_ne (Fin.val_ne_of_ne hij) with h | h
  · have := Nat.mul_le_mul_right shape.frameSize.toNat h
    rw [Nat.succ_mul] at this
    omega
  · have := Nat.mul_le_mul_right shape.frameSize.toNat h
    rw [Nat.succ_mul] at this
    omega

lemma byteRange_subset (i : Fin shape.frameCount) :
    byteRange shape i ⊆ Set.Ico 0 shape.umemSizeBytes.toNat := by
  rw [byteRange, UmemShape.handle_address, UmemShape.umemSizeBytes_toNat]
  apply Set.Ico_subset_Ico (Nat.zero_le _)
  have := Nat.mul_le_mul_right shape.frameSize.toNat i.isLt
  rwa [Nat.succ_mul] at this

/-- After any sequence of admissible calls the stack lists the free frames, each once; the
frames in use occupy disjoint parts of the UMEM, they and the available frames are all the
frames, and a further call hands out free frames only and never finds the pool full. -/
theorem runCalls_consistent (shape : UmemShape) (calls : List Call)
    (hcalls : ∀ call ∈ calls, call.Admissible shape) :
    let a := runCalls shape calls
    (a.freeStack.Nodup ∧ ∀ i, i ∈ a.freeStack ↔ a.owners i = .free) ∧
    a.available + (Finset.univ.filter a.InUse).card = shape.frameCount ∧
    (∀ i j, a.InUse i → a.InUse j → i ≠ j →
      Disjoint (byteRange shape i) (byteRange shape j)) ∧
    (∀ i, a.InUse i → byteRange shape i ⊆ Set.Ico 0 shape.umemSizeBytes.toNat) ∧
    ∀ call : Call, call.Admissible shape →
      a.Grants (call.perform a).1.granted ∧ (call.perform a).1.status ≠ .poolFull := by
  intro a
  have h : a.Consistent := consistent_runCalls hcalls
  refine ⟨⟨h.nodup, h.mem_iff⟩, h.available_add_card, fun i j _ _ hij => byteRange_disjoint hij,
    fun i _ => byteRange_subset i, fun call hcall => ?_⟩
  exact (h.perform hcall).2

/-- A pool of two frames of 2048 bytes. -/
def twoFrames : UmemShape where
  frameCount := 2
  frameSize := ⟨2048, by decide⟩
  frameCount_pos := by decide
  frameSize_ge := by decide
  frameCount_le := by decide
  umemSize_lt := by decide

/-- Allocate both frames, release one twice, allocate again. -/
def reuseCalls : List Call :=
  [.allocateBatch 3 .dataPlane, .release (twoFrames.makeHandle 1) .dataPlane,
    .release (twoFrames.makeHandle 1) .dataPlane, .allocate .txRing]

theorem runCalls_consistent_reuse :
    (∀ call ∈ reuseCalls, call.Admissible twoFrames) ∧
    (runCalls twoFrames reuseCalls).available +
      (Finset.univ.filter (runCalls twoFrames reuseCalls).InUse).card = 2 := by
  have hcalls : ∀ call ∈ reuseCalls, call.Admissible twoFrames := by decide
  exact ⟨hcalls, (runCalls_consistent twoFrames reuseCalls hcalls).2.1⟩

end FrameAllocator

end ChronosX
