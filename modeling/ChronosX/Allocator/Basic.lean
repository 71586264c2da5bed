import ChronosX.Types
import Mathlib.Logic.Function.Basic

/-!
# The frame allocator

`frame_allocator.hpp`: the UMEM is cut into `FrameCount` frames of `FrameSize` bytes. The
allocator keeps one owner tag per frame and a stack of free frame indices. The first
`free_count_` entries of `free_stack_` are the list `freeStack`, top of the stack first; the
entries past `free_count_` are never read.
-/

namespace ChronosX

def kMinXdpFrameSizeBytes : ℕ := 2048
def kDefaultFrameSizeBytes : ℕ := 4096

inductive FrameOwner where
  | free
  | fillRing
  | rxRing
  | dataPlane
  | timingWheel
  | txRing
  | completionRing
deriving DecidableEq, Repr

inductive FrameStatus where
  | ok
  | poolEmpty
  | poolFull
  | invalidFrameIndex
  | invalidFrameAddress
  | invalidOwner
deriving DecidableEq, Repr

structure FrameHandle where
  address : UInt64 := 0
  index : UInt32 := 0
  reserved : UInt32 := 0
deriving DecidableEq, Repr

structure FrameAllocation where
  frame : FrameHandle := {}
  status : FrameStatus := .poolEmpty
deriving DecidableEq, Repr

/-- `FrameAllocation::ok`. -/
def FrameAllocation.ok (allocation : FrameAllocation) : Bool := allocation.status == .ok

/-- The template arguments of `FrameAllocator` with its `requires` clause. Frame indices are
stored in 32 bits and the UMEM is one array of bytes, which bounds the two sizes. -/
structure UmemShape where
  frameCount : ℕ
  frameSize : PowerOfTwo
  frameCount_pos : 0 < frameCount
  frameSize_ge : kMinXdpFrameSizeBytes ≤ frameSize.toNat
  frameCount_le : frameCount ≤ 2 ^ 32
  umemSize_lt : frameCount * frameSize.toNat < 2 ^ 64

namespace UmemShape

variable (shape : UmemShape)

/-- `umem_size_bytes`. -/
def umemSizeBytes : UInt64 := UInt64.ofNat shape.frameCount * shape.frameSize.size

/-- `make_handle`. -/
def makeHandle (index : UInt32) : FrameHandle :=
  { address := index.toUInt64 * shape.frameSize.size, index, reserved := 0 }

/-- The handle `make_handle` gives for a frame of the pool. -/
def handle (i : Fin shape.frameCount) : FrameHandle := shape.makeHandle (UInt32.ofNat i)

/-- `validate_frame`, which returns the frame a valid handle names. -/
def validateFrame (frame : FrameHandle) : Except FrameStatus (Fin shape.frameCount) :=
  if h : frame.index.toNat < shape.frameCount then
    if frame.address = frame.index.toUInt64 * shape.frameSize.size then .ok ⟨frame.index.toNat, h⟩
    else .error .invalidFrameAddress
  else .error .invalidFrameIndex

/-- `handle_from_address`. -/
def handleFromAddress (address : UInt64) : FrameAllocation :=
  if address % shape.frameSize.size ≠ 0 ∨ address ≥ shape.umemSizeBytes then
    { frame := { address }, status := .invalidFrameAddress }
  else
    { frame := shape.makeHandle (address / shape.frameSize.size).toUInt32, status := .ok }

end UmemShape

structure FrameAllocator (shape : UmemShape) where
  freeStack : List (Fin shape.frameCount)
  owners : Fin shape.frameCount → FrameOwner
  allocationFailures : UInt64
  releaseFailures : UInt64
  transitionFailures : UInt64

namespace FrameAllocator

variable {shape : UmemShape}

/-- The constructor: every frame is free, and frame 0 is on top of the stack. -/
def fresh : FrameAllocator shape := ⟨List.finRange shape.frameCount, fun _ => .free, 0, 0, 0⟩

/-- `available`, the value of `free_count_`. -/
def available (a : FrameAllocator shape) : ℕ := a.freeStack.length

/-- `owner_of`. -/
def ownerOf (a : FrameAllocator shape) (index : UInt32) : FrameOwner :=
  if h : index.toNat < shape.frameCount then a.owners ⟨index.toNat, h⟩ else .free

/-- `owners_[index] = owner`. -/
def setOwner (a : FrameAllocator shape) (index : Fin shape.frameCount) (owner : FrameOwner) :
    FrameAllocator shape :=
  { a with owners := Function.update a.owners index owner }

/-- `owners_[index] = Free; free_stack_[free_count_] = index; ++free_count_`. -/
def push (a : FrameAllocator shape) (index : Fin shape.frameCount) : FrameAllocator shape :=
  { a.setOwner index .free with freeStack := index :: a.freeStack }

def allocate (a : FrameAllocator shape) (owner : FrameOwner := .dataPlane) :
    FrameAllocation × FrameAllocator shape :=
  match a.freeStack with
  | [] => ({ status := .poolEmpty }, { a with allocationFailures := a.allocationFailures + 1 })
  | index :: rest =>
    ({ frame := shape.handle index, status := .ok },
      { a.setOwner index owner with freeStack := rest })

/-- The loop of `allocate_batch` with `count` entries of the output left: the handles it
writes. -/
def allocateLoop (owner : FrameOwner) :
    (count : ℕ) → FrameAllocator shape → List FrameHandle × FrameAllocator shape
  | 0, a => ([], a)
  | count + 1, a =>
    if a.available > 0 then
      let (allocation, a) := a.allocate owner
      let (frames, a) := allocateLoop owner count a
      (allocation.frame :: frames, a)
    else ([], a)

/-- `allocate_batch` into an output span of `size` entries. -/
def allocateBatch (a : FrameAllocator shape) (size : ℕ) (owner : FrameOwner := .dataPlane) :
    List FrameHandle × FrameAllocator shape :=
  let (frames, a) := allocateLoop owner size a
  if frames.length < size then
    (frames, { a with allocationFailures := a.allocationFailures + 1 })
  else (frames, a)

/-- A loop over `allocate` with `count` frames left to allocate, which stops at a failure or goes on
with the frame of the failed call. -/
def allocateEach (owner : FrameOwner) (stops : Bool) :
    (count : ℕ) → FrameAllocator shape → List FrameHandle × FrameAllocator shape
  | 0, a => ([], a)
  | count + 1, a =>
    let (allocation, a) := a.allocate owner
    if stops && !allocation.ok then ([], a)
    else
      let (frames, a) := allocateEach owner stops count a
      (allocation.frame :: frames, a)

/-- The path of every refused release: `++release_failures_` and nothing else. -/
def refuseRelease (a : FrameAllocator shape) (status : FrameStatus) :
    FrameStatus × FrameAllocator shape :=
  (status, { a with releaseFailures := a.releaseFailures + 1 })

/-- The path of a refused transition. -/
def refuseTransition (a : FrameAllocator shape) (status : FrameStatus) :
    FrameStatus × FrameAllocator shape :=
  (status, { a with transitionFailures := a.transitionFailures + 1 })

def release (a : FrameAllocator shape) (frame : FrameHandle)
    (expectedOwner : FrameOwner := .dataPlane) : FrameStatus × FrameAllocator shape :=
  match shape.validateFrame frame with
  | .error status => a.refuseRelease status
  | .ok index =>
    if a.owners index ≠ expectedOwner then a.refuseRelease .invalidOwner
    else if a.available ≥ shape.frameCount then a.refuseRelease .poolFull
    else (.ok, a.push index)

def transition (a : FrameAllocator shape) (frame : FrameHandle)
    (expectedOwner nextOwner : FrameOwner) : FrameStatus × FrameAllocator shape :=
  match shape.validateFrame frame with
  | .error status => a.refuseTransition status
  | .ok index =>
    if a.owners index ≠ expectedOwner then a.refuseTransition .invalidOwner
    else if nextOwner = .free then a.release frame expectedOwner
    else (.ok, a.setOwner index nextOwner)

/-- The checking loop of `release_batch`: the frames named, or the first failure. -/
def checkBatch (a : FrameAllocator shape) (expectedOwner : FrameOwner) :
    List FrameHandle → Except FrameStatus (List (Fin shape.frameCount))
  | [] => .ok []
  | frame :: frames =>
    match shape.validateFrame frame with
    | .error status => .error status
    | .ok index =>
      if a.owners index ≠ expectedOwner then .error .invalidOwner
      else (a.checkBatch expectedOwner frames).map (index :: ·)

def releaseBatch (a : FrameAllocator shape) (frames : List FrameHandle)
    (expectedOwner : FrameOwner := .dataPlane) : FrameStatus × FrameAllocator shape :=
  match a.checkBatch expectedOwner frames with
  | .error status => a.refuseRelease status
  | .ok indices =>
    if a.available + frames.length > shape.frameCount then a.refuseRelease .poolFull
    else (.ok, indices.foldl push a)

/-! ### Field lemmas -/

variable (a : FrameAllocator shape) (index : Fin shape.frameCount) (owner : FrameOwner)

@[simp] lemma freeStack_setOwner : (a.setOwner index owner).freeStack = a.freeStack := rfl

@[simp] lemma owners_setOwner :
    (a.setOwner index owner).owners = Function.update a.owners index owner := rfl

@[simp] lemma freeStack_push : (a.push index).freeStack = index :: a.freeStack := rfl

@[simp] lemma owners_push : (a.push index).owners = Function.update a.owners index .free := rfl

/-- The first `count` frames are taken off the stack. -/
def popped (count : ℕ) : FrameAllocator shape :=
  { a with
    freeStack := a.freeStack.drop count
    owners := fun i => if i ∈ a.freeStack.take count then owner else a.owners i }

/-- Both loops allocate the frames on top of the stack while there are enough. -/
lemma allocateEach_eq {a : FrameAllocator shape} {count : ℕ} (h : count ≤ a.freeStack.length)
    (owner : FrameOwner) (stops : Bool) :
    allocateEach owner stops count a =
      ((a.freeStack.take count).map shape.handle, a.popped owner count) := by
  induction count generalizing a with
  | zero => simp [allocateEach, popped]
  | succ count ih =>
    cases hstack : a.freeStack with
    | nil => simp [hstack] at h
    | cons index rest =>
      rw [hstack, List.length_cons, Nat.succ_le_succ_iff] at h
      have hallocate : a.allocate owner = (⟨shape.handle index, .ok⟩,
          { a.setOwner index owner with freeStack := rest }) := by rw [allocate, hstack]
      have hnext := ih (a := { a.setOwner index owner with freeStack := rest }) h
      rw [allocateEach, hallocate]
      simp only [FrameAllocation.ok, beq_self_eq_true, Bool.not_true, Bool.and_false,
        Bool.false_eq_true, if_false]
      rw [hnext]
      refine Prod.ext rfl ?_
      simp only [popped, hstack, setOwner, List.drop_succ_cons, List.take_succ_cons, List.mem_cons,
        mk.injEq, true_and, and_true]
      funext i
      rw [Function.update_apply]
      by_cases hrest : i ∈ rest.take count
      · rw [if_pos hrest, if_pos (Or.inr hrest)]
      · rw [if_neg hrest]
        exact if_congr (or_iff_left hrest).symm rfl rfl

end FrameAllocator

/-! ### Addresses and handles -/

namespace UmemShape

variable {shape : UmemShape}

/-- The address of a frame, as an exact product. -/
lemma handle_address (i : Fin shape.frameCount) :
    (shape.handle i).address.toNat = i * shape.frameSize.toNat := by
  have hi : i.val < 2 ^ 32 := Nat.lt_of_lt_of_le i.isLt shape.frameCount_le
  have hlt : i.val * shape.frameSize.toNat < 2 ^ 64 :=
    Nat.lt_of_le_of_lt (Nat.mul_le_mul_right _ (Nat.le_of_lt i.isLt)) shape.umemSize_lt
  rw [handle, makeHandle, UInt64.toNat_mul, UInt32.toNat_toUInt64, UInt32.toNat_ofNat',
    Nat.mod_eq_of_lt hi]
  exact Nat.mod_eq_of_lt hlt

lemma umemSizeBytes_toNat :
    shape.umemSizeBytes.toNat = shape.frameCount * shape.frameSize.toNat := by
  have hcount : shape.frameCount < 2 ^ 64 :=
    Nat.lt_of_le_of_lt shape.frameCount_le (by decide)
  rw [umemSizeBytes, UInt64.toNat_mul, UInt64.toNat_ofNat', Nat.mod_eq_of_lt hcount]
  exact Nat.mod_eq_of_lt shape.umemSize_lt

/-- A handle made for a frame names that frame. -/
@[simp] lemma validateFrame_handle (i : Fin shape.frameCount) :
    shape.validateFrame (shape.handle i) = .ok i := by
  have hi : i.val < 2 ^ 32 := Nat.lt_of_lt_of_le i.isLt shape.frameCount_le
  have hindex : (UInt32.ofNat i.val).toNat = i.val := by
    rw [UInt32.toNat_ofNat', Nat.mod_eq_of_lt hi]
  simp only [validateFrame, handle, makeHandle, hindex, i.isLt, dif_pos, if_true]

/-- The only handles that name a frame are those made for it, up to the reserved field. -/
lemma validateFrame_eq_ok {frame : FrameHandle} {i : Fin shape.frameCount}
    (h : shape.validateFrame frame = .ok i) :
    frame.index.toNat = i ∧ frame.address.toNat = i * shape.frameSize.toNat := by
  unfold validateFrame at h
  split_ifs at h with hindex haddress
  cases h
  refine ⟨rfl, ?_⟩
  have hlt : frame.index.toNat * shape.frameSize.toNat < 2 ^ 64 :=
    Nat.lt_of_le_of_lt (Nat.mul_le_mul_right _ (Nat.le_of_lt hindex)) shape.umemSize_lt
  rw [haddress, UInt64.toNat_mul, UInt32.toNat_toUInt64]
  exact Nat.mod_eq_of_lt hlt

/-- An address is looked up as the frame that starts there, and only there. -/
lemma handleFromAddress_eq_ok {address : UInt64}
    (h : (shape.handleFromAddress address).status = .ok) :
    ∃ i : Fin shape.frameCount, address = (shape.handle i).address ∧
      shape.handleFromAddress address = ⟨shape.handle i, .ok⟩ := by
  unfold handleFromAddress at h ⊢
  split_ifs at h ⊢ with hbad
  obtain ⟨hmod, hlt⟩ := not_or.mp hbad
  have hpos := shape.frameSize.toNat_pos
  have hmod' : address.toNat % shape.frameSize.toNat = 0 := by
    have := congrArg UInt64.toNat (not_not.mp hmod)
    rwa [UInt64.toNat_mod] at this
  have hlt' : address.toNat < shape.frameCount * shape.frameSize.toNat := by
    rw [← umemSizeBytes_toNat]
    exact UInt64.lt_iff_toNat_lt.mp (UInt64.not_le.mp hlt)
  have hindex : address.toNat / shape.frameSize.toNat < shape.frameCount :=
    (Nat.div_lt_iff_lt_mul hpos).mpr hlt'
  have hdiv : (address / shape.frameSize.size).toUInt32 =
      UInt32.ofNat (address.toNat / shape.frameSize.toNat) := by
    apply UInt32.toNat_inj.mp
    rw [UInt64.toNat_toUInt32, UInt64.toNat_div, UInt32.toNat_ofNat']
    rfl
  refine ⟨⟨_, hindex⟩, ?_, by rw [hdiv, handle]⟩
  apply UInt64.toNat_inj.mp
  rw [handle_address]
  exact (Nat.div_mul_cancel (Nat.dvd_of_mod_eq_zero hmod')).symm

/-- Different frames start at different addresses. -/
lemma handle_address_inj {i j : Fin shape.frameCount} :
    (shape.handle i).address = (shape.handle j).address ↔
      i = j := by
  constructor
  · intro h
    have hmul := congrArg UInt64.toNat h
    rw [handle_address, handle_address] at hmul
    exact Fin.ext (Nat.eq_of_mul_eq_mul_right shape.frameSize.toNat_pos hmul)
  · rintro rfl
    rfl

@[simp] lemma handleFromAddress_address (i : Fin shape.frameCount) :
    shape.handleFromAddress (shape.handle i).address =
      ⟨shape.handle i, .ok⟩ := by
  have hpos := shape.frameSize.toNat_pos
  have hok : (shape.handleFromAddress (shape.handle i).address).status = .ok := by
    unfold handleFromAddress
    rw [if_neg]
    rw [not_or, not_not, UInt64.not_le]
    constructor
    · apply UInt64.toNat_inj.mp
      rw [UInt64.toNat_mod, handle_address]
      exact Nat.mul_mod_left _ _
    · rw [UInt64.lt_iff_toNat_lt, handle_address, umemSizeBytes_toNat]
      exact Nat.mul_lt_mul_of_pos_right i.isLt hpos
  obtain ⟨j, haddress, heq⟩ := handleFromAddress_eq_ok hok
  rw [handle_address_inj] at haddress
  rw [heq, haddress]

/-- A handle is refused for its index or for its address. -/
lemma validateFrame_status {frame : FrameHandle} {status : FrameStatus}
    (h : shape.validateFrame frame = .error status) :
    status = .invalidFrameIndex ∨ status = .invalidFrameAddress := by
  unfold validateFrame at h
  split_ifs at h
  · exact Or.inr (Except.error.inj h).symm
  · exact Or.inl (Except.error.inj h).symm

lemma validateFrame_ne_ok {frame : FrameHandle} {status : FrameStatus}
    (h : shape.validateFrame frame = .error status) : status ≠ .ok := by
  rcases validateFrame_status h with rfl | rfl <;> exact FrameStatus.noConfusion

lemma validateFrame_ne_poolFull {frame : FrameHandle} {status : FrameStatus}
    (h : shape.validateFrame frame = .error status) : status ≠ .poolFull := by
  rcases validateFrame_status h with rfl | rfl <;> exact FrameStatus.noConfusion

end UmemShape

end ChronosX
