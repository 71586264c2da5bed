import ChronosX.Allocator.Properties

/-!
# Calls that name a free frame

What `transition` and `release` do on a frame that is on the free stack, in any state the allocator
can be in. They compare the frame's tag with the tag the caller expects and never ask whether the
frame is free, so a caller that expects the tag the frame has, `Free` for instance, takes a stacked
frame out of the pool or stacks it a second time. A batch of releases is checked against the state
before the first of them, so it differs from the single releases when it names a frame twice.
-/

namespace ChronosX

namespace FrameAllocator

variable {shape : UmemShape} {a b : FrameAllocator shape} {frame : FrameHandle}
  {i : Fin shape.frameCount} {expectedOwner nextOwner : FrameOwner}

/-! ### Calls on a valid handle -/

lemma release_valid (h : shape.validateFrame frame = .ok i) :
    a.release frame expectedOwner =
      if a.owners i ≠ expectedOwner then a.refuseRelease .invalidOwner
      else if a.available ≥ shape.frameCount then a.refuseRelease .poolFull
      else (.ok, a.push i) := by
  rw [release, h]

lemma transition_valid (h : shape.validateFrame frame = .ok i) :
    a.transition frame expectedOwner nextOwner =
      if a.owners i ≠ expectedOwner then a.refuseTransition .invalidOwner
      else if nextOwner = .free then a.release frame expectedOwner
      else (.ok, a.setOwner i nextOwner) := by
  rw [transition, h]

/-- The owner tags, the free stack and its size are the same. -/
structure SamePool (a b : FrameAllocator shape) : Prop where
  owners : b.owners = a.owners
  freeStack : b.freeStack = a.freeStack
  available : b.available = a.available

lemma SamePool.refl (a : FrameAllocator shape) : a.SamePool a := ⟨rfl, rfl, rfl⟩

/-- A call is refused and leaves the pool as it was. -/
def Refused (a : FrameAllocator shape) (result : FrameStatus × FrameAllocator shape) : Prop :=
  result.1 ≠ .ok ∧ a.SamePool result.2

lemma refused_refuseRelease {status : FrameStatus} (h : status ≠ .ok) :
    a.Refused (a.refuseRelease status) := ⟨h, rfl, rfl, rfl⟩

lemma refused_refuseTransition {status : FrameStatus} (h : status ≠ .ok) :
    a.Refused (a.refuseTransition status) := ⟨h, rfl, rfl, rfl⟩

lemma not_refused_ok : ¬ a.Refused (.ok, b) := fun h => h.1 rfl

/-- A release is refused for the wrong owner or a full pool only. -/
lemma refused_release_iff (h : shape.validateFrame frame = .ok i) :
    a.Refused (a.release frame expectedOwner) ↔
      a.owners i ≠ expectedOwner ∨ shape.frameCount ≤ a.available := by
  rw [release_valid h]
  by_cases howner : a.owners i = expectedOwner
  · by_cases hfull : a.available ≥ shape.frameCount
    · simp only [howner, hfull, ne_eq, not_true_eq_false, if_false, if_true, or_true, iff_true]
      exact refused_refuseRelease (by decide)
    · simp only [howner, hfull, ne_eq, not_true_eq_false, if_false, or_self, iff_false]
      exact not_refused_ok
  · simp only [howner, ne_eq, not_false_eq_true, if_true, true_or, iff_true]
    exact refused_refuseRelease (by decide)

/-- A transition is refused for the wrong owner, or as the release it stands for. -/
lemma refused_transition_iff (h : shape.validateFrame frame = .ok i) :
    a.Refused (a.transition frame expectedOwner nextOwner) ↔
      a.owners i ≠ expectedOwner ∨ (nextOwner = .free ∧ shape.frameCount ≤ a.available) := by
  rw [transition_valid h]
  by_cases howner : a.owners i = expectedOwner
  · by_cases hnext : nextOwner = .free
    · simp [howner, hnext, refused_release_iff h]
    · simp only [howner, hnext, ne_eq, not_true_eq_false, if_false, false_and, or_self, iff_false]
      exact not_refused_ok
  · simp only [howner, ne_eq, not_false_eq_true, if_true, true_or, iff_true]
    exact refused_refuseTransition (by decide)

/-! ### Frames that leave the pool -/

/-- A call that names a stacked frame expects another owner than the frame's tag, or finds the pool
full where it would stack the frame. -/
def Call.Guarded (a : FrameAllocator shape) : Call → Prop
  | .transition frame expectedOwner nextOwner => ∀ i ∈ a.freeStack,
      shape.validateFrame frame = .ok i →
        a.owners i ≠ expectedOwner ∨ (nextOwner = .free ∧ shape.frameCount ≤ a.available)
  | .release frame expectedOwner => ∀ i ∈ a.freeStack, shape.validateFrame frame = .ok i →
      a.owners i ≠ expectedOwner ∨ shape.frameCount ≤ a.available
  | _ => True

/-- The calls that hand out frames. -/
def Call.IsAllocation : Call → Prop
  | .allocate _ | .allocateBatch _ _ => True
  | _ => False

/-- What a release does to the pool: nothing, or it stacks the frame that it names. -/
lemma release_cases (a : FrameAllocator shape) (frame : FrameHandle) (expectedOwner : FrameOwner) :
    a.Refused (a.release frame expectedOwner) ∨
      ∃ i, shape.validateFrame frame = .ok i ∧ a.release frame expectedOwner = (.ok, a.push i) := by
  cases hframe : shape.validateFrame frame with
  | error status =>
    left
    rw [release, hframe]
    exact refused_refuseRelease (UmemShape.validateFrame_ne_ok hframe)
  | ok i =>
    rw [release_valid hframe]
    split_ifs
    · exact .inl (refused_refuseRelease (by decide))
    · exact .inl (refused_refuseRelease (by decide))
    · exact .inr ⟨i, rfl, rfl⟩

/-- What a transition does to the pool: nothing, or what the release does it stands for, or it
gives the frame that it names another tag. -/
lemma transition_cases (a : FrameAllocator shape) (frame : FrameHandle)
    (expectedOwner nextOwner : FrameOwner) :
    a.Refused (a.transition frame expectedOwner nextOwner) ∨
      (∃ i, shape.validateFrame frame = .ok i ∧
        a.transition frame expectedOwner nextOwner = (.ok, a.push i)) ∨
      ∃ i, shape.validateFrame frame = .ok i ∧
        a.transition frame expectedOwner nextOwner = (.ok, a.setOwner i nextOwner) := by
  cases hframe : shape.validateFrame frame with
  | error status =>
    left
    rw [transition, hframe]
    exact refused_refuseTransition (UmemShape.validateFrame_ne_ok hframe)
  | ok i =>
    rw [transition_valid hframe]
    split_ifs
    · exact .inl (refused_refuseTransition (by decide))
    · rcases release_cases a frame expectedOwner with hrefused | ⟨j, hj, hpush⟩
      · exact .inl hrefused
      · rw [hframe] at hj
        cases hj
        exact .inr (.inl ⟨i, rfl, hpush⟩)
    · exact .inr (.inr ⟨i, rfl, rfl⟩)

/-- Stacking frames keeps those that are on the stack, and free frames free. -/
lemma foldl_push_keeps (l : List (Fin shape.frameCount)) (hi : i ∈ a.freeStack) :
    i ∈ (l.foldl push a).freeStack ∧
      (a.owners i = .free → (l.foldl push a).owners i = .free) := by
  induction l generalizing a with
  | nil => exact ⟨hi, id⟩
  | cons j l ih =>
    obtain ⟨hmem, hfree⟩ := ih (a := a.push j) (List.mem_cons_of_mem j hi)
    refine ⟨hmem, fun howner => hfree ?_⟩
    by_cases hij : i = j
    · simp [hij]
    · simpa [hij] using howner

lemma Refused.keeps {result : FrameStatus × FrameAllocator shape} (h : a.Refused result)
    (hi : i ∈ a.freeStack) :
    i ∈ result.2.freeStack ∧ (a.owners i = .free → result.2.owners i = .free) := by
  rw [h.2.freeStack, h.2.owners]
  exact ⟨hi, id⟩

/-- A stacked frame is left alone by a guarded call that hands out no frames. -/
lemma perform_keeps {call : Call} (hguarded : call.Guarded a) (hcall : ¬ call.IsAllocation)
    (hi : i ∈ a.freeStack) :
    i ∈ (call.perform a).2.freeStack ∧
      (a.owners i = .free → (call.perform a).2.owners i = .free) := by
  cases call with
  | allocate owner => exact absurd trivial hcall
  | allocateBatch size owner => exact absurd trivial hcall
  | transition frame expectedOwner nextOwner =>
    change i ∈ (a.transition frame expectedOwner nextOwner).2.freeStack ∧
      (_ → (a.transition frame expectedOwner nextOwner).2.owners i = .free)
    rcases transition_cases a frame expectedOwner nextOwner with hrefused | ⟨j, -, heq⟩ | ⟨j, hj, heq⟩
    · exact hrefused.keeps hi
    · rw [heq]
      exact foldl_push_keeps [j] hi
    · by_cases hij : i = j
      · -- the guard refuses the transition of a stacked frame
        subst hij
        exact ((refused_transition_iff hj).mpr (hguarded i hi hj)).keeps hi
      · rw [heq]
        exact ⟨hi, fun howner => by simpa [hij] using howner⟩
  | release frame expectedOwner =>
    change i ∈ (a.release frame expectedOwner).2.freeStack ∧
      (_ → (a.release frame expectedOwner).2.owners i = .free)
    rcases release_cases a frame expectedOwner with hrefused | ⟨j, -, heq⟩
    · exact hrefused.keeps hi
    · rw [heq]
      exact foldl_push_keeps [j] hi
  | releaseBatch frames expectedOwner =>
    change i ∈ (a.releaseBatch frames expectedOwner).2.freeStack ∧
      (_ → (a.releaseBatch frames expectedOwner).2.owners i = .free)
    unfold FrameAllocator.releaseBatch
    split
    · exact ⟨hi, id⟩
    · split_ifs
      · exact ⟨hi, id⟩
      · exact foldl_push_keeps _ hi

/-- A call that is refused for a stacked frame stacks no frame twice. -/
lemma nodup_pushed {i : Fin shape.frameCount} {outcome : FrameStatus × FrameAllocator shape}
    (heq : outcome = (.ok, a.push i)) (hguarded : i ∈ a.freeStack → a.Refused outcome)
    (hnodup : a.freeStack.Nodup) : outcome.2.freeStack.Nodup := by
  rw [heq] at hguarded ⊢
  rw [freeStack_push, List.nodup_cons]
  exact ⟨fun hmem => not_refused_ok (hguarded hmem), hnodup⟩

/-- A guarded release stacks no frame that is on the stack. -/
lemma nodup_release (hguarded : (Call.release frame expectedOwner).Guarded a)
    (hnodup : a.freeStack.Nodup) : (a.release frame expectedOwner).2.freeStack.Nodup := by
  rcases release_cases a frame expectedOwner with hrefused | ⟨i, hi, heq⟩
  · rwa [hrefused.2.freeStack]
  · exact nodup_pushed heq (fun hmem => (refused_release_iff hi).mpr (hguarded i hmem hi)) hnodup

lemma nodup_transition (hguarded : (Call.transition frame expectedOwner nextOwner).Guarded a)
    (hnodup : a.freeStack.Nodup) :
    (a.transition frame expectedOwner nextOwner).2.freeStack.Nodup := by
  rcases transition_cases a frame expectedOwner nextOwner with hrefused | ⟨i, hi, heq⟩ | ⟨i, hi, heq⟩
  · rwa [hrefused.2.freeStack]
  · exact nodup_pushed heq (fun hmem => (refused_transition_iff hi).mpr (hguarded i hmem hi)) hnodup
  · rwa [heq]

/-- In every state that calls can reach, a call that names a stacked frame is refused and leaves the
pool as it is exactly if it expects another owner than the frame's tag or would stack the frame in
a full pool. As long as calls meet this, a stacked frame is taken by `allocate` and
`allocate_batch` only and no release stacks a frame twice. After calls that never use `Free` as an
owner and name no frame twice in a batch, the frame is tagged `Free`. -/
theorem stacked_frame_refused_iff (shape : UmemShape) (calls : List Call) (frame : FrameHandle)
    (i : Fin shape.frameCount) (hframe : shape.validateFrame frame = .ok i)
    (hfree : i ∈ (runCalls shape calls).freeStack) :
    let a := runCalls shape calls
    (∀ expectedOwner nextOwner, a.Refused (a.transition frame expectedOwner nextOwner) ↔
      a.owners i ≠ expectedOwner ∨ (nextOwner = .free ∧ shape.frameCount ≤ a.available)) ∧
    (∀ expectedOwner, a.Refused (a.release frame expectedOwner) ↔
      a.owners i ≠ expectedOwner ∨ shape.frameCount ≤ a.available) ∧
    (∀ call : Call, call.Guarded a → ¬ call.IsAllocation →
      i ∈ (call.perform a).2.freeStack ∧
        (a.owners i = .free → (call.perform a).2.owners i = .free)) ∧
    (∀ frame' expectedOwner, (Call.release frame' expectedOwner).Guarded a → a.freeStack.Nodup →
      (a.release frame' expectedOwner).2.freeStack.Nodup) ∧
    (∀ frame' expectedOwner nextOwner,
      (Call.transition frame' expectedOwner nextOwner).Guarded a → a.freeStack.Nodup →
        (a.transition frame' expectedOwner nextOwner).2.freeStack.Nodup) ∧
    ((∀ call ∈ calls, call.Admissible shape) → a.owners i = .free) := by
  intro a
  refine ⟨?_, ?_, ?_, ?_, ?_, ?_⟩
  · intro expectedOwner nextOwner
    exact refused_transition_iff hframe
  · intro expectedOwner
    exact refused_release_iff hframe
  · intro call hguarded hcall
    exact perform_keeps hguarded hcall hfree
  · intro frame' expectedOwner hguarded hnodup
    exact nodup_release hguarded hnodup
  · intro frame' expectedOwner nextOwner hguarded hnodup
    exact nodup_transition hguarded hnodup
  · intro hcalls
    exact ((consistent_runCalls hcalls).mem_iff i).mp hfree

/-- A release of a stacked frame by a caller that takes it for its own is refused. -/
theorem stacked_frame_refused_iff_twoFrames :
    (runCalls twoFrames []).Refused
      ((runCalls twoFrames []).release (twoFrames.makeHandle 0) .dataPlane) := by
  have h := stacked_frame_refused_iff twoFrames [] (twoFrames.makeHandle 0) ⟨0, Nat.zero_lt_two⟩
    rfl (by decide)
  exact (h.2.1 .dataPlane).mpr (.inl (by decide))

/-- A caller that expects `Free` takes a frame that stays on the stack; and with the other frame of
the pool in use, it stacks a free frame a second time. -/
theorem free_frame_taken_and_stacked_twice :
    let a := runCalls twoFrames []
    let b := runCalls twoFrames [.allocate .dataPlane]
    (a.freeStack.map Fin.val = [0, 1] ∧ a.ownerOf 0 = .free) ∧
    (a.transition (twoFrames.makeHandle 0) .free .dataPlane).1 = .ok ∧
    (a.transition (twoFrames.makeHandle 0) .free .dataPlane).2.ownerOf 0 = .dataPlane ∧
    b.freeStack.map Fin.val = [1] ∧
    (b.release (twoFrames.makeHandle 1) .free).1 = .ok ∧
    (b.release (twoFrames.makeHandle 1) .free).2.freeStack.map Fin.val = [1, 1] := by
  decide

/-! ### A batch of releases and single releases -/

/-- `release` called on the frames one after another: the statuses returned and the allocator
afterwards. -/
def releaseEach (expectedOwner : FrameOwner) :
    List FrameHandle → FrameAllocator shape → List FrameStatus × FrameAllocator shape
  | [], a => ([], a)
  | frame :: frames, a =>
    let (status, a) := a.release frame expectedOwner
    let (statuses, a) := releaseEach expectedOwner frames a
    (status :: statuses, a)

/-- The handle names a frame that is owned as expected. -/
def Owned (a : FrameAllocator shape) (expectedOwner : FrameOwner) (frame : FrameHandle) : Prop :=
  ∃ i, shape.validateFrame frame = .ok i ∧ a.owners i = expectedOwner

lemma mem_namedFrames {frames : List FrameHandle} :
    i ∈ namedFrames shape frames ↔ ∃ frame ∈ frames, shape.validateFrame frame = .ok i := by
  rw [namedFrames, List.mem_filterMap]
  apply exists_congr
  intro frame
  apply and_congr_right
  intro _
  cases shape.validateFrame frame <;> simp [Except.toOption]

lemma namedFrames_cons (h : shape.validateFrame frame = .ok i) (frames : List FrameHandle) :
    namedFrames shape (frame :: frames) = i :: namedFrames shape frames := by
  rw [namedFrames, List.filterMap_cons, h]
  rfl

/-- The checking loop accepts the frames owned as expected. -/
lemma checkBatch_cases (a : FrameAllocator shape) (expectedOwner : FrameOwner)
    (frames : List FrameHandle) :
    ((∀ frame ∈ frames, a.Owned expectedOwner frame) ∧
      a.checkBatch expectedOwner frames = .ok (namedFrames shape frames)) ∨
    ((¬ ∀ frame ∈ frames, a.Owned expectedOwner frame) ∧
      ∃ status, status ≠ .ok ∧ a.checkBatch expectedOwner frames = .error status) := by
  induction frames with
  | nil => exact .inl ⟨by simp, rfl⟩
  | cons frame frames ih =>
    rw [List.forall_mem_cons, checkBatch]
    cases hframe : shape.validateFrame frame with
    | error status =>
      refine .inr ⟨?_, status, UmemShape.validateFrame_ne_ok hframe, rfl⟩
      rintro ⟨⟨i, hi, -⟩, -⟩
      rw [hframe] at hi
      cases hi
    | ok i =>
      dsimp only
      by_cases howner : a.owners i = expectedOwner
      · rw [if_neg (not_not.mpr howner), namedFrames_cons hframe]
        rcases ih with ⟨howned, heq⟩ | ⟨hnot, status, hstatus, heq⟩
        · rw [heq]
          exact .inl ⟨⟨⟨i, hframe, howner⟩, howned⟩, rfl⟩
        · rw [heq]
          exact .inr ⟨fun h => hnot h.2, status, hstatus, rfl⟩
      · rw [if_pos howner]
        refine .inr ⟨?_, .invalidOwner, by decide, rfl⟩
        rintro ⟨⟨j, hj, hjowner⟩, -⟩
        rw [hframe] at hj
        cases hj
        exact howner hjowner

/-- A batch is released as a whole or refused as a whole. -/
lemma releaseBatch_cases (a : FrameAllocator shape) (expectedOwner : FrameOwner)
    (frames : List FrameHandle) :
    (((∀ frame ∈ frames, a.Owned expectedOwner frame) ∧
        a.available + frames.length ≤ shape.frameCount) ∧
      a.releaseBatch frames expectedOwner = (.ok, (namedFrames shape frames).foldl push a)) ∨
    (¬ ((∀ frame ∈ frames, a.Owned expectedOwner frame) ∧
        a.available + frames.length ≤ shape.frameCount) ∧
      a.Refused (a.releaseBatch frames expectedOwner)) := by
  rcases checkBatch_cases a expectedOwner frames with ⟨howned, heq⟩ | ⟨hnot, status, hstatus, heq⟩
  · by_cases hroom : a.available + frames.length > shape.frameCount
    · right
      rw [releaseBatch, heq]
      dsimp only
      rw [if_pos hroom]
      exact ⟨fun h => Nat.not_lt.mpr h.2 hroom, refused_refuseRelease (by decide)⟩
    · left
      rw [releaseBatch, heq]
      dsimp only
      rw [if_neg hroom]
      exact ⟨⟨howned, Nat.le_of_not_lt hroom⟩, rfl⟩
  · right
    rw [releaseBatch, heq]
    exact ⟨fun h => hnot h.1, refused_refuseRelease hstatus⟩

/-- After a release the other frames are owned as before, and the frame is not. -/
lemma owned_push_iff (hexpected : expectedOwner ≠ .free) (i : Fin shape.frameCount) :
    (a.push i).Owned expectedOwner frame ↔
      a.Owned expectedOwner frame ∧ shape.validateFrame frame ≠ .ok i := by
  constructor
  · rintro ⟨j, hj, howner⟩
    have hji : j ≠ i := by
      rintro rfl
      rw [owners_push, Function.update_self] at howner
      exact hexpected howner.symm
    rw [owners_push, Function.update_of_ne hji] at howner
    refine ⟨⟨j, hj, howner⟩, ?_⟩
    rw [hj]
    exact fun h => hji (Except.ok.inj h)
  · rintro ⟨⟨j, hj, howner⟩, hne⟩
    have hji : j ≠ i := by
      rintro rfl
      exact hne hj
    exact ⟨j, hj, by rwa [owners_push, Function.update_of_ne hji]⟩

lemma forall_owned_push_iff (hexpected : expectedOwner ≠ .free) (i : Fin shape.frameCount)
    (frames : List FrameHandle) :
    (∀ frame ∈ frames, (a.push i).Owned expectedOwner frame) ↔
      (∀ frame ∈ frames, a.Owned expectedOwner frame) ∧ i ∉ namedFrames shape frames := by
  rw [mem_namedFrames]
  constructor
  · intro h
    refine ⟨fun frame hframe => ((owned_push_iff hexpected i).mp (h frame hframe)).1, ?_⟩
    rintro ⟨frame, hframe, hi⟩
    exact ((owned_push_iff hexpected i).mp (h frame hframe)).2 hi
  · rintro ⟨howned, hnot⟩ frame hframe
    exact (owned_push_iff hexpected i).mpr ⟨howned frame hframe, fun hi => hnot ⟨frame, hframe, hi⟩⟩

/-- Single releases all succeed for distinct frames owned as expected, and then stack them. -/
lemma Consistent.releaseEach (h : a.Consistent) (hexpected : expectedOwner ≠ .free)
    (frames : List FrameHandle) :
    ((∀ status ∈ (releaseEach expectedOwner frames a).1, status = .ok) ↔
      (∀ frame ∈ frames, a.Owned expectedOwner frame) ∧ (namedFrames shape frames).Nodup) ∧
    ((∀ status ∈ (releaseEach expectedOwner frames a).1, status = .ok) →
      (releaseEach expectedOwner frames a).2 =
        (namedFrames shape frames).foldl FrameAllocator.push a) := by
  induction frames generalizing a with
  | nil => simp [FrameAllocator.releaseEach, namedFrames]
  | cons frame frames ih =>
    rw [FrameAllocator.releaseEach]
    dsimp only
    rw [List.forall_mem_cons, List.forall_mem_cons]
    by_cases howned : a.Owned expectedOwner frame
    · obtain ⟨i, hi, howner⟩ := howned
      have hused : a.InUse i := howner.trans_ne hexpected
      have hrelease : a.release frame expectedOwner = (.ok, a.push i) := by
        rw [release_valid hi, if_neg (not_not.mpr howner),
          if_neg (Nat.not_le_of_lt (h.available_lt hused))]
      obtain ⟨hall, hresult⟩ := ih (h.push hused)
      rw [hrelease, namedFrames_cons hi, List.nodup_cons, List.foldl_cons]
      dsimp only
      refine ⟨?_, fun hok => hresult hok.2⟩
      rw [hall, forall_owned_push_iff hexpected]
      constructor
      · rintro ⟨-, ⟨hothers, hnot⟩, hnodup⟩
        exact ⟨⟨⟨i, hi, howner⟩, hothers⟩, hnot, hnodup⟩
      · rintro ⟨⟨-, hothers⟩, hnot, hnodup⟩
        exact ⟨rfl, ⟨hothers, hnot⟩, hnodup⟩
    · have hstatus : (a.release frame expectedOwner).1 ≠ .ok := by
        intro hok
        rcases release_cases a frame expectedOwner with hrefused | ⟨i, hi, heq⟩
        · exact hrefused.1 hok
        · have hnot := mt (refused_release_iff hi).mpr (by rw [heq]; exact not_refused_ok)
          exact howned ⟨i, hi, not_not.mp (not_or.mp hnot).1⟩
      refine ⟨⟨fun hok => absurd hok.1 hstatus, fun hall => absurd hall.1.1 howned⟩,
        fun hok => absurd hok.1 hstatus⟩

/-- `release_batch` looks at the owners and the room before it releases anything. -/
lemma releaseBatch_ok_iff (a : FrameAllocator shape) (expectedOwner : FrameOwner)
    (frames : List FrameHandle) :
    (a.releaseBatch frames expectedOwner).1 = .ok ↔
      (∀ frame ∈ frames, a.Owned expectedOwner frame) ∧
        a.available + frames.length ≤ shape.frameCount := by
  rcases releaseBatch_cases a expectedOwner frames with ⟨hcond, heq⟩ | ⟨hcond, hrefused⟩
  · rw [heq]
    exact iff_of_true rfl hcond
  · exact iff_of_false hrefused.1 hcond

/-- There is room for distinct frames owned as expected. -/
lemma Consistent.room (h : a.Consistent) (hexpected : expectedOwner ≠ .free)
    {frames : List FrameHandle} (howned : ∀ frame ∈ frames, a.Owned expectedOwner frame)
    (hdistinct : (namedFrames shape frames).Nodup) :
    a.available + frames.length ≤ shape.frameCount := by
  have hspec := checkBatch_spec a expectedOwner frames
  rcases checkBatch_cases a expectedOwner frames with ⟨-, heq⟩ | ⟨hnot, -⟩
  · rw [heq] at hspec
    obtain ⟨-, hlength, howners⟩ := hspec
    rw [← hlength]
    exact h.available_add_le hdistinct fun i hi => (howners i hi).trans_ne hexpected
  · exact absurd howned hnot

/-- `release_batch` and the single releases agree: one returns `Ok` if and only if all the others
do, then the pool is the same, and otherwise the batch leaves it as it was. -/
structure BatchAgrees (a : FrameAllocator shape) (frames : List FrameHandle)
    (expectedOwner : FrameOwner) : Prop where
  ok_iff : (a.releaseBatch frames expectedOwner).1 = .ok ↔
    ∀ status ∈ (releaseEach expectedOwner frames a).1, status = .ok
  same : (a.releaseBatch frames expectedOwner).1 = .ok →
    (releaseEach expectedOwner frames a).2.SamePool (a.releaseBatch frames expectedOwner).2
  unchanged : (a.releaseBatch frames expectedOwner).1 ≠ .ok →
    a.SamePool (a.releaseBatch frames expectedOwner).2

/-- `release_batch` agrees with single releases exactly if it names no frame twice, or names a frame
that is not owned as expected, or names more frames than there is room for. -/
theorem releaseBatch_agrees_iff (a : FrameAllocator shape) (h : a.Consistent)
    (frames : List FrameHandle) (expectedOwner : FrameOwner) (hexpected : expectedOwner ≠ .free) :
    a.BatchAgrees frames expectedOwner ↔
      (namedFrames shape frames).Nodup ∨
      (∃ frame ∈ frames, ∀ i, shape.validateFrame frame = .ok i → a.owners i ≠ expectedOwner) ∨
      shape.frameCount < a.available + frames.length := by
  obtain ⟨hall, hresult⟩ := h.releaseEach hexpected frames
  have hbatch := releaseBatch_cases a expectedOwner frames
  have hunowned : (∃ frame ∈ frames, ∀ i, shape.validateFrame frame = .ok i →
      a.owners i ≠ expectedOwner) ↔ ¬ ∀ frame ∈ frames, a.Owned expectedOwner frame := by
    simp only [Owned, not_forall, not_exists, not_and, exists_prop, ne_eq]
  have hok := releaseBatch_ok_iff a expectedOwner frames
  rw [hunowned]
  constructor
  · intro hagrees
    by_cases howned : ∀ frame ∈ frames, a.Owned expectedOwner frame
    · rcases Nat.lt_or_ge shape.frameCount (a.available + frames.length) with hfull | hroom
      · exact .inr (.inr hfull)
      · have hboth := hall.mp (hagrees.ok_iff.mp (hok.mpr ⟨howned, hroom⟩))
        exact .inl hboth.2
    · exact .inr (.inl howned)
  · intro hcond
    have hnodup : (a.releaseBatch frames expectedOwner).1 = .ok →
        (namedFrames shape frames).Nodup := by
      intro hbatchOk
      obtain ⟨howned, hroom⟩ := hok.mp hbatchOk
      rcases hcond with hnodup | hnot | hfull
      · exact hnodup
      · exact absurd howned hnot
      · exact absurd hroom (Nat.not_le_of_lt hfull)
    have hiff : (a.releaseBatch frames expectedOwner).1 = .ok ↔
        ∀ status ∈ (releaseEach expectedOwner frames a).1, status = .ok := by
      rw [hall]
      constructor
      · intro hbatchOk
        exact ⟨(hok.mp hbatchOk).1, hnodup hbatchOk⟩
      · rintro ⟨howned, hdistinct⟩
        exact hok.mpr ⟨howned, h.room hexpected howned hdistinct⟩
    refine ⟨hiff, ?_, ?_⟩
    · intro hbatchOk
      rcases hbatch with ⟨-, heq⟩ | ⟨-, hrefused⟩
      · rw [hresult (hiff.mp hbatchOk), heq]
        exact SamePool.refl _
      · exact absurd hbatchOk hrefused.1
    · intro hbatchFailed
      rcases hbatch with ⟨-, heq⟩ | ⟨-, hrefused⟩
      · exact absurd (by rw [heq]) hbatchFailed
      · exact hrefused.2

/-- Two different frames are released alike. -/
theorem releaseBatch_agrees_iff_twoFrames :
    (runCalls twoFrames [.allocateBatch 2 .dataPlane]).BatchAgrees
      [twoFrames.makeHandle 0, twoFrames.makeHandle 1] .dataPlane := by
  apply (releaseBatch_agrees_iff _ ?_ _ _ (by decide)).mpr
  · exact .inl (by decide)
  · exact consistent_runCalls (by decide)

/-- A batch that names a frame twice stacks it twice, where the second single release is refused. -/
theorem releaseBatch_stacks_twice :
    let a := runCalls twoFrames [.allocateBatch 2 .dataPlane]
    let frames := [twoFrames.makeHandle 0, twoFrames.makeHandle 0]
    (a.freeStack = [] ∧ a.ownerOf 0 = .dataPlane ∧ a.ownerOf 1 = .dataPlane) ∧
    (a.releaseBatch frames .dataPlane).1 = .ok ∧
    (a.releaseBatch frames .dataPlane).2.freeStack.map Fin.val = [0, 0] ∧
    (releaseEach .dataPlane frames a).1 = [.ok, .invalidOwner] := by
  decide

end FrameAllocator

end ChronosX
