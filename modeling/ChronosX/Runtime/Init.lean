import ChronosX.Runtime.Custody
import ChronosX.Allocator.FreePool

/-!
# What a failed `init` leaves behind

`init` allocates and posts frame by frame. When the fill ring is full it puts the frame at hand back
and returns, but the frames of the earlier iterations stay tagged `FillRing` and on the ring. So it
is all-or-nothing exactly if all the frames can be posted or the first one already fails.
-/

namespace ChronosX

open FrameAllocator

variable {shape : RuntimeShape}

namespace AfXdpRuntimeAdapter

/-! ### Adapters that are not initialised -/

/-- The adapters on which no `init` has succeeded. The other side of the socket may have done
anything. -/
inductive Unstarted : AfXdpRuntimeAdapter shape → Prop where
  | fresh : Unstarted fresh
  | init {a : AfXdpRuntimeAdapter shape} (unstarted : Unstarted a) (count : ℕ)
      (failed : (a.init count).1 ≠ .ok) : Unstarted (a.init count).2
  | outside {a : AfXdpRuntimeAdapter shape} (unstarted : Unstarted a)
      (socket : SimulatedXskSocket shape.socket) (umem : Umem) :
      Unstarted { a with socket, umem }
  | poll {a : AfXdpRuntimeAdapter shape} (unstarted : Unstarted a) (rules : List ChaosRule) :
      Unstarted (a.pollOnce rules).2.adapter

variable {a b c : AfXdpRuntimeAdapter shape} {i : Fin shape.umem.frameCount}
  {stack frames : List (Fin shape.umem.frameCount)} {count : ℕ}

/-! ### One iteration -/

/-- The allocator after the frame on top of the stack has been allocated to the fill ring. -/
def taken (a : FrameAllocator shape.umem) (i : Fin shape.umem.frameCount)
    (stack : List (Fin shape.umem.frameCount)) : FrameAllocator shape.umem :=
  { a.setOwner i .fillRing with freeStack := stack }

lemma allocate_cons (hstack : a.allocator.freeStack = i :: stack) :
    a.allocator.allocate .fillRing =
      ({ frame := shape.umem.handle i, status := .ok }, taken a.allocator i stack) := by
  rw [allocate, hstack]
  rfl

/-- The adapter after an iteration that posts the frame on top of the stack. -/
def postOne (a : AfXdpRuntimeAdapter shape) (i : Fin shape.umem.frameCount)
    (stack : List (Fin shape.umem.frameCount)) : AfXdpRuntimeAdapter shape :=
  { a with
    allocator := taken a.allocator i stack
    socket.fillRing := (a.socket.fillRing.produce [shape.umem.address i]).2 }

/-- The pool and the fill ring are the same. -/
structure SamePosts (a b : AfXdpRuntimeAdapter shape) : Prop where
  pool : a.allocator.SamePool b.allocator
  ring : b.socket.fillRing = a.socket.fillRing

lemma SamePosts.refl (a : AfXdpRuntimeAdapter shape) : a.SamePosts a := ⟨SamePool.refl _, rfl⟩

/-- The number of frames that fit the fill ring and that there are, beyond those posted. -/
def Fits (a : AfXdpRuntimeAdapter shape) (count : ℕ) : Prop :=
  count ≤ a.allocator.available ∧
    a.socket.fillRing.toList.length + count ≤ shape.socket.fillSize.toNat

lemma postFrames_empty (hstack : a.allocator.freeStack = []) :
    a.postFrames (count + 1) = (.frameAllocationFailed,
      { a with allocator.allocationFailures := a.allocator.allocationFailures + 1 }) := by
  simp [postFrames, allocate, hstack, FrameAllocation.ok]

/-- A frame that was taken off the stack is put back. -/
lemma transition_taken (hconsistent : a.allocator.Consistent)
    (hstack : a.allocator.freeStack = i :: stack) :
    ((taken a.allocator i stack).transition (shape.umem.handle i) .fillRing .free).2 =
      a.allocator := by
  have hfree : a.allocator.owners i = .free := by
    rw [← hconsistent.mem_iff, hstack]
    exact List.mem_cons_self
  have howner : ¬ (taken a.allocator i stack).owners i ≠ .fillRing := by simp [taken]
  have hroom : ¬ (taken a.allocator i stack).available ≥ shape.umem.frameCount := by
    have hle := hconsistent.nodup.length_le_card
    rw [hstack, Fintype.card_fin] at hle
    exact Nat.not_le_of_lt hle
  rw [transition_valid (UmemShape.validateFrame_handle i), if_neg howner, if_pos rfl,
    release_valid (UmemShape.validateFrame_handle i), if_neg howner, if_neg hroom]
  rw [push, taken, setOwner, setOwner]
  simp only [Function.update_idem]
  rw [← hfree, Function.update_eq_self, ← hstack]

/-- A frame that does not fit the ring is to go back on the stack. -/
lemma postFrames_refused (hstack : a.allocator.freeStack = i :: stack)
    (hfull : a.socket.fillRing.toList.length = shape.socket.fillSize.toNat) :
    a.postFrames (count + 1) = (.ringFull, { a with allocator :=
      ((taken a.allocator i stack).transition (shape.umem.handle i) .fillRing .free).2 }) := by
  have hproduce : a.socket.fillRing.produce [(shape.umem.handle i).address] =
      (0, a.socket.fillRing) := by
    rcases a.socket.fillRing.produce_singleton (shape.umem.address i) with ⟨hlt, -⟩ | ⟨-, hzero⟩
    · exact absurd hfull (Nat.ne_of_lt hlt)
    · exact hzero
  rw [postFrames, allocate_cons hstack]
  simp [FrameAllocation.ok, SimulatedXskSocket.refill, hproduce]

lemma postFrames_full (hconsistent : a.allocator.Consistent)
    (hstack : a.allocator.freeStack = i :: stack)
    (hfull : a.socket.fillRing.toList.length = shape.socket.fillSize.toNat) :
    a.postFrames (count + 1) = (.ringFull, a) := by
  rw [postFrames_refused hstack hfull, transition_taken hconsistent hstack]

lemma postFrames_room (hstack : a.allocator.freeStack = i :: stack)
    (hroom : a.socket.fillRing.toList.length < shape.socket.fillSize.toNat) :
    a.postFrames (count + 1) = (a.postOne i stack).postFrames count := by
  have hone : (a.socket.fillRing.produce [(shape.umem.handle i).address]).1 = 1 := by
    rcases a.socket.fillRing.produce_singleton (shape.umem.address i) with ⟨-, hone, -⟩ | ⟨hfull, -⟩
    · exact hone
    · exact absurd hfull (Nat.ne_of_lt hroom)
  rw [postFrames, allocate_cons hstack]
  simp [FrameAllocation.ok, SimulatedXskSocket.refill, hone, postOne, UmemShape.address]

/-- An iteration of a loop that succeeds posts a frame. -/
lemma postFrames_succ (hok : (a.postFrames (count + 1)).1 = .ok) :
    ∃ i stack, a.allocator.freeStack = i :: stack ∧
      a.socket.fillRing.toList.length < shape.socket.fillSize.toNat ∧
      a.postFrames (count + 1) = (a.postOne i stack).postFrames count := by
  cases hstack : a.allocator.freeStack with
  | nil =>
    rw [postFrames_empty hstack] at hok
    cases hok
  | cons i stack =>
    rcases a.socket.fillRing.length_toList_le.lt_or_eq with hroom | hfull
    · exact ⟨i, stack, rfl, hroom, postFrames_room hstack hroom⟩
    · rw [postFrames_refused hstack hfull] at hok
      cases hok

/-- The three ways an iteration can go. -/
lemma postFrames_cases (hconsistent : a.allocator.Consistent) (count : ℕ) :
    (a.allocator.available = 0 ∧ a.postFrames (count + 1) = (.frameAllocationFailed,
      { a with allocator.allocationFailures := a.allocator.allocationFailures + 1 })) ∨
    (a.socket.fillRing.toList.length = shape.socket.fillSize.toNat ∧
      a.postFrames (count + 1) = (.ringFull, a)) ∨
    ∃ i stack, a.allocator.freeStack = i :: stack ∧
      a.socket.fillRing.toList.length < shape.socket.fillSize.toNat ∧
      a.postFrames (count + 1) = (a.postOne i stack).postFrames count := by
  cases hstack : a.allocator.freeStack with
  | nil => exact .inl ⟨by rw [available, hstack]; rfl, postFrames_empty hstack⟩
  | cons i stack =>
    rcases a.socket.fillRing.length_toList_le.lt_or_eq with hroom | hfull
    · exact .inr (.inr ⟨i, stack, rfl, hroom, postFrames_room hstack hroom⟩)
    · exact .inr (.inl ⟨hfull, postFrames_full hconsistent hstack hfull⟩)

lemma consistent_postOne (hconsistent : a.allocator.Consistent)
    (hstack : a.allocator.freeStack = i :: stack) : (a.postOne i stack).allocator.Consistent :=
  hconsistent.pop hstack (by decide)

lemma toList_postOne (hroom : a.socket.fillRing.toList.length < shape.socket.fillSize.toNat)
    (i : Fin shape.umem.frameCount) (stack : List (Fin shape.umem.frameCount)) :
    (a.postOne i stack).socket.fillRing.toList =
      a.socket.fillRing.toList ++ [shape.umem.address i] := by
  rcases a.socket.fillRing.produce_singleton (shape.umem.address i) with ⟨-, -, hlist⟩ | ⟨hfull, -⟩
  · exact hlist
  · exact absurd hfull (Nat.ne_of_lt hroom)

lemma fits_postOne_iff (hstack : a.allocator.freeStack = i :: stack)
    (hroom : a.socket.fillRing.toList.length < shape.socket.fillSize.toNat) :
    (a.postOne i stack).Fits count ↔ a.Fits (count + 1) := by
  rw [Fits, Fits, toList_postOne hroom, List.length_append, List.length_singleton, available,
    available, hstack, List.length_cons, Nat.add_le_add_iff_right, Nat.add_assoc, Nat.add_comm 1]
  rfl

/-! ### The loop -/

/-- The frames went from the free stack to the fill ring. -/
structure Posted (a b : AfXdpRuntimeAdapter shape) (frames : List (Fin shape.umem.frameCount)) :
    Prop where
  freeStack : a.allocator.freeStack = frames ++ b.allocator.freeStack
  free : ∀ i ∈ frames, a.allocator.owners i = .free
  tagged : ∀ i ∈ frames, b.allocator.owners i = .fillRing
  others : ∀ i, i ∉ frames → b.allocator.owners i = a.allocator.owners i
  ring : b.socket.fillRing.toList = a.socket.fillRing.toList ++ frames.map shape.umem.address

/-- A frame is posted before the others. -/
lemma Posted.cons (hconsistent : a.allocator.Consistent)
    (hstack : a.allocator.freeStack = i :: stack)
    (hroom : a.socket.fillRing.toList.length < shape.socket.fillSize.toNat)
    (h : (a.postOne i stack).Posted b frames) : a.Posted b (i :: frames) := by
  have hnodup := hconsistent.nodup
  rw [hstack, List.nodup_cons] at hnodup
  have hrest : stack = frames ++ b.allocator.freeStack := h.freeStack
  have hnot : i ∉ frames := fun hmem => hnodup.1 (hrest ▸ List.mem_append_left _ hmem)
  have howners : ∀ j, j ≠ i → (a.postOne i stack).allocator.owners j = a.allocator.owners j :=
    fun j hj => Function.update_of_ne hj _ _
  have hfree : a.allocator.owners i = .free := by
    rw [← hconsistent.mem_iff, hstack]
    exact List.mem_cons_self
  have hi : b.allocator.owners i = .fillRing := by
    rw [h.others i hnot]
    exact Function.update_self _ _ _
  refine ⟨?_, ?_, ?_, ?_, ?_⟩
  · rw [hstack, hrest, List.cons_append]
  · rw [List.forall_mem_cons]
    refine ⟨hfree, fun j hj => ?_⟩
    rw [← howners j fun hji => hnot (hji ▸ hj)]
    exact h.free j hj
  · rw [List.forall_mem_cons]
    exact ⟨hi, h.tagged⟩
  · intro j hj
    rw [List.mem_cons, not_or] at hj
    rw [h.others j hj.2, howners j hj.1]
  · rw [h.ring, toList_postOne hroom, List.map_cons, List.append_assoc]
    rfl

/-- The loop posts all the frames when they fit. -/
lemma postFrames_ok (hconsistent : a.allocator.Consistent) (hfits : a.Fits count) :
    (a.postFrames count).1 = .ok ∧
      ∃ frames, frames.length = count ∧ a.Posted (a.postFrames count).2 frames := by
  induction count generalizing a with
  | zero => exact ⟨rfl, [], rfl, ⟨rfl, by simp, by simp, fun _ _ => rfl, by simp [postFrames]⟩⟩
  | succ count ih =>
    rcases postFrames_cases hconsistent count with ⟨hempty, -⟩ | ⟨hfull, -⟩ |
      ⟨i, stack, hstack, hroom, heq⟩
    · exact absurd hfits.1 (by rw [hempty]; exact Nat.not_succ_le_zero count)
    · refine absurd hfits.2 (Nat.not_le_of_lt ?_)
      rw [hfull]
      exact Nat.lt_add_of_pos_right (Nat.succ_pos count)
    · rw [heq]
      obtain ⟨hok, frames, hlength, hposted⟩ := ih (consistent_postOne hconsistent hstack)
        ((fits_postOne_iff hstack hroom).mpr hfits)
      exact ⟨hok, i :: frames, by rw [List.length_cons, hlength],
        hposted.cons hconsistent hstack hroom⟩

/-- The loop fails when they do not. -/
lemma fits_of_postFrames_ok (hconsistent : a.allocator.Consistent)
    (hok : (a.postFrames count).1 = .ok) : a.Fits count := by
  induction count generalizing a with
  | zero => exact ⟨Nat.zero_le _, a.socket.fillRing.length_toList_le⟩
  | succ count ih =>
    rcases postFrames_cases hconsistent count with ⟨-, heq⟩ | ⟨-, heq⟩ | ⟨i, stack, hstack, hroom, heq⟩
    · rw [heq] at hok
      cases hok
    · rw [heq] at hok
      cases hok
    · rw [heq] at hok
      exact (fits_postOne_iff hstack hroom).mp (ih (consistent_postOne hconsistent hstack) hok)

/-- What the loop has taken it never gives back. -/
lemma available_postFrames_le (hconsistent : a.allocator.Consistent) (count : ℕ) :
    (a.postFrames count).2.allocator.available ≤ a.allocator.available := by
  induction count generalizing a with
  | zero => exact Nat.le_refl _
  | succ count ih =>
    rcases postFrames_cases hconsistent count with ⟨-, heq⟩ | ⟨-, heq⟩ | ⟨i, stack, hstack, hroom, heq⟩
    · rw [heq]
      exact Nat.le_refl _
    · rw [heq]
    · rw [heq]
      apply (ih (consistent_postOne hconsistent hstack)).trans
      rw [available, available, hstack]
      exact Nat.le_succ stack.length

lemma SamePosts.postOne (h : a.SamePosts b) (i : Fin shape.umem.frameCount)
    (stack : List (Fin shape.umem.frameCount)) : (a.postOne i stack).SamePosts (b.postOne i stack) := by
  refine ⟨⟨?_, rfl, rfl⟩, ?_⟩
  · exact congrArg (Function.update · i FrameOwner.fillRing) h.pool.owners
  · exact congrArg (fun ring => (SimulatedRing.produce ring [shape.umem.address i]).2) h.ring

/-- The loop only looks at the pool and the fill ring. -/
lemma SamePosts.postFrames (h : a.SamePosts b) (hconsistent : a.allocator.Consistent) (count : ℕ) :
    (b.postFrames count).1 = (a.postFrames count).1 ∧
      (a.postFrames count).2.SamePosts (b.postFrames count).2 := by
  induction count generalizing a b with
  | zero => exact ⟨rfl, h.pool, h.ring⟩
  | succ count ih =>
    have hconsistent' : b.allocator.Consistent :=
      ⟨h.pool.freeStack ▸ hconsistent.nodup, by rw [h.pool.freeStack, h.pool.owners]; exact
        hconsistent.mem_iff⟩
    cases hstack : a.allocator.freeStack with
    | nil =>
      rw [postFrames_empty hstack, postFrames_empty (h.pool.freeStack.trans hstack)]
      exact ⟨rfl, ⟨h.pool.owners, h.pool.freeStack, h.pool.available⟩, h.ring⟩
    | cons i stack =>
      have hstack' := h.pool.freeStack.trans hstack
      rcases a.socket.fillRing.length_toList_le.lt_or_eq with hroom | hfull
      · rw [postFrames_room hstack hroom, postFrames_room hstack' (by rwa [h.ring])]
        exact ih (h.postOne i stack) (consistent_postOne hconsistent hstack)
      · rw [postFrames_full hconsistent hstack hfull,
          postFrames_full hconsistent' hstack' (by rwa [h.ring])]
        exact ⟨rfl, h⟩

/-- The loop keeps the allocator in order, and sets the flag only when it succeeds. -/
lemma postFrames_keeps (hconsistent : a.allocator.Consistent) (count : ℕ) :
    (a.postFrames count).2.allocator.Consistent ∧
      ((a.postFrames count).1 ≠ .ok → (a.postFrames count).2.initialized = a.initialized) := by
  induction count generalizing a with
  | zero => exact ⟨hconsistent, fun h => absurd rfl h⟩
  | succ count ih =>
    rcases postFrames_cases hconsistent count with ⟨-, heq⟩ | ⟨-, heq⟩ | ⟨i, stack, hstack, -, heq⟩
    · rw [heq]
      exact ⟨⟨hconsistent.nodup, hconsistent.mem_iff⟩, fun _ => rfl⟩
    · rw [heq]
      exact ⟨hconsistent, fun _ => rfl⟩
    · rw [heq]
      exact ih (consistent_postOne hconsistent hstack)

/-! ### Initialisation -/

lemma init_eq (h : a.initialized = false) (count : ℕ) :
    a.init count = a.postFrames (min count shape.umem.frameCount) := by
  have htarget : (if count < shape.umem.frameCount then count else shape.umem.frameCount) =
      min count shape.umem.frameCount := by
    split <;> omega
  rw [init, h, htarget]
  rfl

lemma Unstarted.spec (h : a.Unstarted) :
    a.initialized = false ∧ a.allocator.Consistent := by
  induction h with
  | fresh => exact ⟨rfl, consistent_fresh⟩
  | init unstarted count failed ih =>
    rw [init_eq ih.1] at failed ⊢
    obtain ⟨hconsistent, hinitialized⟩ := postFrames_keeps ih.2 (min count shape.umem.frameCount)
    exact ⟨(hinitialized failed).trans ih.1, hconsistent⟩
  | outside unstarted socket umem ih => exact ih
  | @poll a unstarted rules ih =>
    have heq : (a.pollOnce rules).2.adapter = a := by
      rw [pollOnce, ih.1]
      rfl
    rwa [heq]

/-- `init` returns `Ok` with the frames it was asked for allocated, tagged `FillRing` and each on
the fill ring once, or it returns an error with the pool and the fill ring as they were, so that a
later `init` does what it would have done before. -/
def AllOrNothing (a : AfXdpRuntimeAdapter shape) (count : ℕ) : Prop :=
  ((a.init count).1 = .ok ∧ ∃ frames : List (Fin shape.umem.frameCount),
    frames.length = min count shape.umem.frameCount ∧ frames.Nodup ∧
      a.Posted (a.init count).2 frames ∧
      ∀ i ∈ frames, (a.init count).2.socket.fillRing.toList.count (shape.umem.address i) = 1) ∨
  ((a.init count).1 ≠ .ok ∧ a.SamePosts (a.init count).2 ∧
    ∀ later, ((a.init count).2.init later).1 = (a.init later).1 ∧
      (a.init later).2.SamePosts ((a.init count).2.init later).2)

lemma Posted.nodup (hconsistent : a.allocator.Consistent) (h : a.Posted b frames) :
    frames.Nodup := by
  have hall := hconsistent.nodup
  rw [h.freeStack] at hall
  exact hall.of_append_left

/-- The frames posted are the first ones of the stack. -/
lemma Posted.take_freeStack (h : a.Posted b frames) (hlength : frames.length = count) :
    a.allocator.freeStack.take count = frames := by
  rw [h.freeStack, ← hlength, List.take_left]

/-- The posted frames are on the ring once exactly if they were not on it before. -/
lemma Posted.once_iff (hconsistent : a.allocator.Consistent) (h : a.Posted b frames) :
    (∀ i ∈ frames, b.socket.fillRing.toList.count (shape.umem.address i) = 1) ↔
      ∀ i ∈ frames, shape.umem.address i ∉ a.socket.fillRing.toList := by
  have hinjective : Function.Injective shape.umem.address :=
    fun _ _ h => UmemShape.handle_address_inj.mp h
  apply forall₂_congr
  intro i hi
  rw [h.ring, List.count_append, List.count_map_of_injective _ _ hinjective,
    List.count_eq_one_of_mem (h.nodup hconsistent) hi, ← List.count_eq_zero]
  exact Nat.add_eq_right

/-- A first iteration that fails changes nothing. -/
lemma samePosts_postFrames (hconsistent : a.allocator.Consistent)
    (hblocked : a.allocator.available = 0 ∨
      a.socket.fillRing.toList.length = shape.socket.fillSize.toNat) (count : ℕ) :
    (a.postFrames (count + 1)).1 ≠ .ok ∧ a.SamePosts (a.postFrames (count + 1)).2 := by
  rcases postFrames_cases hconsistent count with ⟨-, heq⟩ | ⟨-, heq⟩ | ⟨i, stack, hstack, hroom, -⟩
  · rw [heq]
    exact ⟨RuntimeStatus.noConfusion, ⟨rfl, rfl, rfl⟩, rfl⟩
  · rw [heq]
    exact ⟨RuntimeStatus.noConfusion, SamePosts.refl a⟩
  · rcases hblocked with hempty | hfull
    · rw [available, hstack] at hempty
      cases hempty
    · exact absurd hfull (Nat.ne_of_lt hroom)

/-- A later iteration that fails leaves the frames of the earlier ones posted. -/
lemma available_postFrames_lt (hconsistent : a.allocator.Consistent)
    (hsome : a.allocator.available ≠ 0)
    (hroom : a.socket.fillRing.toList.length ≠ shape.socket.fillSize.toNat) (count : ℕ) :
    (a.postFrames (count + 1)).2.allocator.available < a.allocator.available := by
  rcases postFrames_cases hconsistent count with ⟨hempty, -⟩ | ⟨hfull, -⟩ | ⟨i, stack, hstack, -, heq⟩
  · exact absurd hempty hsome
  · exact absurd hfull hroom
  · rw [heq]
    apply (available_postFrames_le (consistent_postOne hconsistent hstack) count).trans_lt
    rw [available, available, hstack]
    exact Nat.lt_succ_self stack.length

/-- A loop that fails and leaves the pool as it was fails in its first iteration. -/
lemma blocked_of_samePosts (hconsistent : a.allocator.Consistent)
    (hfailed : (a.postFrames count).1 ≠ .ok) (hsame : a.SamePosts (a.postFrames count).2) :
    a.allocator.available = 0 ∨
      a.socket.fillRing.toList.length = shape.socket.fillSize.toNat := by
  cases count with
  | zero => exact absurd rfl hfailed
  | succ n =>
    by_contra hboth
    rw [not_or] at hboth
    exact (available_postFrames_lt hconsistent hboth.1 hboth.2 n).ne hsame.pool.available

/-- An `init` whose first iteration fails, or that has none, is all-or-nothing. -/
lemma Unstarted.allOrNothing_of_blocked (h : a.Unstarted) (count : ℕ)
    (hblocked : a.allocator.available = 0 ∨
      a.socket.fillRing.toList.length = shape.socket.fillSize.toNat) : a.AllOrNothing count := by
  obtain ⟨hinitialized, hconsistent⟩ := h.spec
  rw [AllOrNothing, init_eq hinitialized]
  cases min count shape.umem.frameCount with
  | zero =>
    left
    exact ⟨rfl, [], rfl, List.nodup_nil, ⟨rfl, by simp, by simp, fun _ _ => rfl,
      by simp [postFrames]⟩, by simp⟩
  | succ n =>
    right
    obtain ⟨hfailed, hsame⟩ := samePosts_postFrames hconsistent hblocked n
    have hunstarted := (postFrames_keeps hconsistent (n + 1)).2 hfailed
    refine ⟨hfailed, hsame, ?_⟩
    intro later
    rw [init_eq hinitialized, init_eq (hunstarted.trans hinitialized)]
    exact hsame.postFrames hconsistent _

lemma Unstarted.allOrNothing_iff (h : a.Unstarted) (count : ℕ) :
    a.AllOrNothing count ↔
      (a.Fits (min count shape.umem.frameCount) ∧
        ∀ i ∈ a.allocator.freeStack.take (min count shape.umem.frameCount),
          shape.umem.address i ∉ a.socket.fillRing.toList) ∨
      a.allocator.available = 0 ∨
      a.socket.fillRing.toList.length = shape.socket.fillSize.toNat := by
  obtain ⟨hinitialized, hconsistent⟩ := h.spec
  have heq := init_eq hinitialized count
  constructor
  · rintro (⟨hok, frames, hlength, -, hposted, honce⟩ | ⟨hfailed, hsame, -⟩)
    · left
      rw [hposted.take_freeStack hlength]
      rw [heq] at hok
      exact ⟨fits_of_postFrames_ok hconsistent hok, (hposted.once_iff hconsistent).mp honce⟩
    · right
      rw [heq] at hfailed hsame
      exact blocked_of_samePosts hconsistent hfailed hsame
  · rintro (⟨hfits, hnew⟩ | hblocked)
    · left
      obtain ⟨hok, frames, hlength, hposted⟩ := postFrames_ok hconsistent hfits
      rw [← heq] at hok hposted
      rw [hposted.take_freeStack hlength] at hnew
      exact ⟨hok, frames, hlength, hposted.nodup hconsistent, hposted,
        (hposted.once_iff hconsistent).mpr hnew⟩
    · exact h.allOrNothing_of_blocked count hblocked

/-- `init` of an adapter that is not initialised is all-or-nothing exactly if the frames it is asked
for are there, fit the fill ring and are not on it yet, or already the first of them fails. A
default-constructed adapter needs the room on the fill ring only. -/
theorem init_allOrNothing_iff (a : AfXdpRuntimeAdapter shape) (h : a.Unstarted) (count : ℕ) :
    (a.AllOrNothing count ↔
      (a.Fits (min count shape.umem.frameCount) ∧
        ∀ i ∈ a.allocator.freeStack.take (min count shape.umem.frameCount),
          shape.umem.address i ∉ a.socket.fillRing.toList) ∨
      a.allocator.available = 0 ∨
      a.socket.fillRing.toList.length = shape.socket.fillSize.toNat) ∧
    ((fresh : AfXdpRuntimeAdapter shape).AllOrNothing count ↔
      min count shape.umem.frameCount ≤ shape.socket.fillSize.toNat) := by
  refine ⟨h.allOrNothing_iff count, ?_⟩
  have hring : (fresh : AfXdpRuntimeAdapter shape).socket.fillRing.toList = [] :=
    SimulatedRing.toList_fresh
  have havailable : (fresh : AfXdpRuntimeAdapter shape).allocator.available =
      shape.umem.frameCount := List.length_finRange
  have hframes := shape.umem.frameCount_pos
  have hslots := shape.socket.fillSize.toNat_pos
  rw [Unstarted.fresh.allOrNothing_iff, Fits, havailable, hring, List.length_nil, Nat.zero_add]
  constructor
  · rintro (⟨⟨-, hroom⟩, -⟩ | hnone | hfull)
    · exact hroom
    · exact absurd hnone (Nat.ne_of_gt hframes)
    · exact absurd hfull (Nat.ne_of_lt hslots)
  · intro hroom
    exact .inl ⟨⟨Nat.min_le_right _ _, hroom⟩, fun _ _ => List.not_mem_nil⟩

lemma isPowerOfTwo_one : isPowerOfTwo 1 = true := rfl

lemma isPowerOfTwo_two : isPowerOfTwo 2 = true := rfl

/-- Two frames and a fill ring of one entry. -/
def oneFillSlot : RuntimeShape where
  umem := FrameAllocator.twoFrames
  socket := ⟨⟨1, isPowerOfTwo_one⟩, ⟨2, isPowerOfTwo_two⟩, ⟨2, isPowerOfTwo_two⟩,
    ⟨2, isPowerOfTwo_two⟩⟩
  wheel := ⟨⟨2, isPowerOfTwo_two⟩, 2, Nat.two_pos⟩

/-- One frame fits the ring. -/
theorem init_allOrNothing_iff_oneFrame :
    (fresh : AfXdpRuntimeAdapter oneFillSlot).AllOrNothing 1 :=
  (init_allOrNothing_iff fresh .fresh 1).2.mpr (by decide)

/-- The second of two frames does not fit: `init` fails, the first frame stays posted, and `init`
with the one frame that would have fitted fails as well. -/
theorem init_leaves_frame_posted :
    let a : AfXdpRuntimeAdapter oneFillSlot := fresh
    (a.init 2).1 = .ringFull ∧
    (a.init 2).2.allocator.ownerOf 0 = .fillRing ∧ (a.init 2).2.allocator.available = 1 ∧
    (a.init 2).2.socket.fillRing.toList = [0] ∧
    (a.init 1).1 = .ok ∧ ((a.init 2).2.init 1).1 = .ringFull := by
  decide

end AfXdpRuntimeAdapter

end ChronosX
