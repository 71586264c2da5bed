import ChronosX.Live.Loop
import ChronosX.Runtime.Custody

/-!
# The initial fill of live mode

The loop allocates frames a batch of 64 at a time and posts each batch to the fill ring, which takes
a batch whole or not at all. The first batch that the ring refuses ends the loop: its frames stay
allocated and tagged `FillRing`, but no ring holds them.
-/

namespace ChronosX

namespace Live

variable {lib : Libxdp} {shape : RuntimeShape}

/-- The number of entries of the fill ring that `init` makes for the configured sizes. -/
def fillCapacity (shape : RuntimeShape) : ℕ := shape.socket.fillSize.size.toUInt32.toNat

/-- The number of frames that the initial fill posts. -/
def postedCount (shape : RuntimeShape) : ℕ :=
  if shape.umem.frameCount ≤ fillCapacity shape then shape.umem.frameCount
  else kDataPlaneBatchSize * (fillCapacity shape / kDataPlaneBatchSize)

/-- The number of frames that the initial fill allocates and does not post. -/
def leakedCount (shape : RuntimeShape) : ℕ :=
  min kDataPlaneBatchSize (shape.umem.frameCount - postedCount shape)

/-- The addresses of the first frames. -/
def firstAddresses (shape : RuntimeShape) (count : ℕ) : List UInt64 :=
  ((List.finRange shape.umem.frameCount).take count).map shape.umem.address

/-- The allocator after the first frames were allocated for the fill ring. -/
def allocated (shape : RuntimeShape) (count : ℕ) : FrameAllocator shape.umem where
  freeStack := (List.finRange shape.umem.frameCount).drop count
  owners i := if i.val < count then .fillRing else .free
  allocationFailures := 0
  releaseFailures := 0
  transitionFailures := 0

lemma postedCount_le (shape : RuntimeShape) :
    postedCount shape ≤ shape.umem.frameCount ∧ postedCount shape ≤ fillCapacity shape := by
  have hdiv := Nat.mul_div_le (fillCapacity shape) kDataPlaneBatchSize
  rw [postedCount]
  split_ifs with hall
  · exact ⟨Nat.le_refl _, hall⟩
  · exact ⟨by omega, hdiv⟩

lemma leakedCount_eq_zero_iff (shape : RuntimeShape) :
    leakedCount shape = 0 ↔ shape.umem.frameCount ≤ fillCapacity shape := by
  have hpos : 0 < kDataPlaneBatchSize := by decide
  have hcount := postedCount_le shape
  rw [leakedCount]
  constructor
  · intro hzero
    omega
  · intro hall
    rw [postedCount, if_pos hall]
    omega

lemma length_firstAddresses {count : ℕ} (h : count ≤ shape.umem.frameCount) :
    (firstAddresses shape count).length = count := by
  rw [firstAddresses, List.length_map, List.length_take, List.length_finRange, Nat.min_eq_left h]

lemma mem_firstAddresses {count : ℕ} {k : UInt64} :
    k ∈ firstAddresses shape count ↔ ∃ i, i.val < count ∧ k = shape.umem.address i := by
  rw [firstAddresses, List.mem_map]
  refine exists_congr fun i => and_congr ?_ eq_comm
  rw [List.mem_take_iff_getElem]
  constructor
  · rintro ⟨j, hj, rfl⟩
    rw [List.getElem_finRange]
    exact (Nat.lt_min.mp hj).1
  · intro hi
    exact ⟨i.val, Nat.lt_min.mpr ⟨hi, by simp⟩, by simp⟩

lemma nodup_firstAddresses (count : ℕ) : (firstAddresses shape count).Nodup := by
  refine List.Nodup.map (fun i j h => UmemShape.handle_address_inj.mp h) ?_
  exact (List.nodup_finRange _).sublist (List.take_sublist _ _)

/-! ### Allocating a batch -/

lemma allocated_zero : allocated shape 0 = .fresh := rfl

lemma mem_take_freeStack {count size : ℕ} {i : Fin shape.umem.frameCount} :
    i ∈ (allocated shape count).freeStack.take size ↔ count ≤ i.val ∧ i.val < count + size := by
  rw [allocated, List.take_drop, List.mem_drop_iff_getElem]
  constructor
  · rintro ⟨j, hj, rfl⟩
    rw [List.length_take, List.length_finRange] at hj
    simp only [List.getElem_take, List.getElem_finRange, Fin.val_cast]
    omega
  · rintro ⟨hle, hlt⟩
    refine ⟨i.val - count, ?_, ?_⟩
    · rw [List.length_take, List.length_finRange]
      omega
    · apply Fin.ext
      simp only [List.getElem_take, List.getElem_finRange, Fin.val_cast]
      omega

lemma popped_allocated (count size : ℕ) :
    (allocated shape count).popped .fillRing size = allocated shape (count + size) := by
  have hstack : (allocated shape count).freeStack.drop size =
      (allocated shape (count + size)).freeStack := List.drop_drop
  have howners : (fun i => if i ∈ (allocated shape count).freeStack.take size then .fillRing
      else (allocated shape count).owners i) = (allocated shape (count + size)).owners := by
    funext i
    rw [if_congr mem_take_freeStack rfl rfl]
    simp only [allocated]
    split_ifs <;> first | rfl | omega
  rw [FrameAllocator.popped, hstack, howners]
  rfl

lemma allocateFrames_allocated {count : ℕ} (size : ℕ) (h : count + size ≤ shape.umem.frameCount) :
    allocateFrames size (allocated shape count) =
      ((((List.finRange shape.umem.frameCount).drop count).take size).map shape.umem.handle,
        allocated shape (count + size)) := by
  have hlength : size ≤ (allocated shape count).freeStack.length := by
    rw [allocated, List.length_drop, List.length_finRange]
    exact Nat.le_sub_of_add_le' h
  rw [allocateFrames, FrameAllocator.allocateEach_eq hlength, popped_allocated]
  rfl

/-! ### The loop -/

/-- The addresses of the frames that are allocated after the first ones. -/
def nextAddresses (shape : RuntimeShape) (count size : ℕ) : List UInt64 :=
  ((((List.finRange shape.umem.frameCount).drop count).take size).map shape.umem.handle).map
    (·.address)

lemma firstAddresses_add (count size : ℕ) : firstAddresses shape (count + size) =
    firstAddresses shape count ++ nextAddresses shape count size := by
  rw [firstAddresses, firstAddresses, List.take_add, List.map_append, nextAddresses, List.map_map]
  rfl

lemma length_nextAddresses {count size : ℕ} (h : count + size ≤ shape.umem.frameCount) :
    (nextAddresses shape count size).length = size := by
  simp only [nextAddresses, List.length_map, List.length_take, List.length_drop,
    List.length_finRange]
  omega

/-- The fill ring holds the first frames. -/
structure Posted (shape : RuntimeShape) (count : ℕ) (fill : lib.fill.Ring) : Prop where
  entries_eq : lib.fill.entries fill = firstAddresses shape count
  size_eq : lib.fill.size fill = fillCapacity shape

/-- The state of the initial fill when the first frames are allocated. -/
def filled (l : Live lib shape) (count : ℕ) (fill : lib.fill.Ring) : Live lib shape :=
  { l with allocator := allocated shape count, socket.fill := fill }

lemma request_eq (shape : RuntimeShape) (count : ℕ) :
    request shape count = min kDataPlaneBatchSize (shape.umem.frameCount - count) := by
  rw [request]
  split_ifs <;> omega

lemma add_request_le {count : ℕ} (h : count ≤ shape.umem.frameCount) :
    count + request shape count ≤ shape.umem.frameCount := by
  rw [request_eq]
  omega

lemma request_pos {count : ℕ} (h : count < shape.umem.frameCount) : 0 < request shape count := by
  have hsize : 0 < kDataPlaneBatchSize := by decide
  rw [request_eq]
  omega

/-- The ring refuses the next batch when as many whole batches are posted as it can hold. -/
lemma postedCount_of_refused {count : ℕ} (hbatches : kDataPlaneBatchSize ∣ count)
    (hcount : count < shape.umem.frameCount) (hfits : count ≤ fillCapacity shape)
    (hrefused : fillCapacity shape < count + request shape count) :
    postedCount shape = count := by
  have hpos : 0 < kDataPlaneBatchSize := by decide
  have hall := add_request_le hcount.le
  have hrequest := request_eq shape count
  obtain ⟨batches, rfl⟩ := hbatches
  rw [postedCount, if_neg (by omega), Nat.div_eq_of_lt_le]
  · rwa [Nat.mul_comm]
  · rw [Nat.add_mul, Nat.one_mul, Nat.mul_comm]
    omega

/-- An iteration of the loop: the next frames are allocated, and posted if the ring takes them. -/
lemma fillLoop_eq_produce (l : Live lib shape) {count : ℕ} (fill : lib.fill.Ring)
    (h : count < shape.umem.frameCount) :
    fillLoop (l.filled count fill) count =
      let posted := lib.fill.produce fill (nextAddresses shape count (request shape count))
      if posted.1.toNat = 0 then l.filled (count + request shape count) posted.2
      else fillLoop (l.filled (count + request shape count) posted.2)
        (count + posted.1.toNat) := by
  rw [fillLoop, if_pos h]
  simp only [filled, allocateFrames_allocated (request shape count) (add_request_le h.le),
    LibxdpSocket.refill]
  rfl

section

variable (hlib : lib.Lawful) (l : Live lib shape)
include hlib

/-- One batch of the initial fill: the ring takes it whole, or the loop ends. -/
lemma fillLoop_filled {count : ℕ} {fill : lib.fill.Ring} (hposted : Posted shape count fill)
    (h : count < shape.umem.frameCount) :
    ∃ fill' : lib.fill.Ring,
      if count + request shape count ≤ fillCapacity shape then
        Posted shape (count + request shape count) fill' ∧
          fillLoop (l.filled count fill) count =
            fillLoop (l.filled (count + request shape count) fill') (count + request shape count)
      else Posted shape count fill' ∧
        fillLoop (l.filled count fill) count = l.filled (count + request shape count) fill' := by
  have hlength := length_nextAddresses (add_request_le h.le)
  have hsmall : (nextAddresses shape count (request shape count)).length < 2 ^ 32 := by
    rw [hlength, request_eq]
    exact (Nat.min_le_left _ _).trans_lt (by decide)
  have hwaiting : (lib.fill.entries fill).length = count := by
    rw [hposted.entries_eq, length_firstAddresses h.le]
  have hloop := fillLoop_eq_produce l fill h
  dsimp only at hloop
  refine ⟨(lib.fill.produce fill (nextAddresses shape count (request shape count))).2, ?_⟩
  split_ifs with hroom
  · obtain ⟨hreserved, happends⟩ := hlib.fill.produce_of_room hsmall
      (by rwa [hwaiting, hlength, hposted.size_eq])
    refine ⟨⟨?_, happends.size_eq.trans hposted.size_eq⟩, ?_⟩
    · rw [happends.entries_eq, hposted.entries_eq, firstAddresses_add]
    · rw [hloop, hreserved, hlength, if_neg (request_pos h).ne']
  · obtain ⟨hreserved, happends⟩ := hlib.fill.produce_of_full hsmall
      (by rw [hwaiting, hlength, hposted.size_eq]; exact Nat.lt_of_not_le hroom)
    refine ⟨⟨?_, happends.size_eq.trans hposted.size_eq⟩, ?_⟩
    · rw [happends.entries_eq, List.append_nil, hposted.entries_eq]
    · rw [hloop, hreserved, if_pos UInt32.toNat_zero]

/-- The loop from any batch on. -/
lemma fillLoop_eq {count : ℕ} {fill : lib.fill.Ring} (hposted : Posted shape count fill)
    (hcount : count ≤ shape.umem.frameCount) (hfits : count ≤ fillCapacity shape)
    (hbatches : kDataPlaneBatchSize ∣ count ∨ count = shape.umem.frameCount) :
    ∃ fill' : lib.fill.Ring, Posted shape (postedCount shape) fill' ∧
      fillLoop (l.filled count fill) count =
        l.filled (postedCount shape + leakedCount shape) fill' := by
  induction hleft : shape.umem.frameCount - count using Nat.strong_induction_on
    generalizing count fill with
  | _ left ih =>
    by_cases hmore : count < shape.umem.frameCount
    · obtain ⟨fill₁, hfill⟩ := fillLoop_filled hlib l hposted hmore
      have hdvd := hbatches.resolve_right (Nat.ne_of_lt hmore)
      have hrequest := request_eq shape count
      have hpos := request_pos hmore
      split_ifs at hfill with hroom
      · rw [hfill.2]
        refine ih _ (by omega) hfill.1 (add_request_le hcount) hroom ?_ rfl
        rcases Nat.le_total kDataPlaneBatchSize (shape.umem.frameCount - count) with hle | hle
        · left
          rw [hrequest, Nat.min_eq_left hle]
          exact (Nat.dvd_add_right hdvd).mpr dvd_rfl
        · right
          omega
      · -- the ring has no room for this batch
        have hall := postedCount_of_refused hdvd hmore hfits (Nat.lt_of_not_le hroom)
        rw [leakedCount, hall, ← hrequest]
        exact ⟨fill₁, hfill⟩
    · have hall : count = shape.umem.frameCount := by omega
      have hposted' : postedCount shape = count := by
        rw [postedCount, if_pos (hall ▸ hfits), hall]
      have hleaked := (leakedCount_eq_zero_iff shape).mpr (hall ▸ hfits)
      rw [fillLoop, if_neg hmore, hleaked, hposted', Nat.add_zero]
      exact ⟨fill, hposted, rfl⟩

end

/-! ### From `init` to the loop -/

/-- `init` of a new socket, as `run_live` calls it. -/
def opening (shape : RuntimeShape) (others : Finset XskResource) (interfaceName : String)
    (queueId : UInt32) (calls : XskCalls lib) : SocketStatus × XskProcess lib :=
  XskProcess.init { opened := others } (some interfaceName) (liveUmemConfig shape)
    (liveSocketConfig shape queueId) calls

/-- The library sets up the rings that `run_live` asks for. -/
abbrev SetUp (shape : RuntimeShape) (queueId : UInt32) (calls : XskCalls lib) : Prop :=
  calls.SetUp (liveUmemConfig shape) (liveSocketConfig shape queueId)

/-- The socket that a successful `init` leaves. -/
structure Ready (shape : RuntimeShape) (socket : LibxdpSocket lib) : Prop where
  fill : Posted shape 0 socket.fill
  completion_eq : lib.completion.entries socket.completion = []
  rx_eq : lib.rx.entries socket.rx = []
  tx_eq : lib.tx.entries socket.tx = []
  txSize_eq : lib.tx.size socket.tx = shape.socket.txSize.size.toUInt32.toNat
  umemArea_eq : ∃ base, socket.umemArea = some base
  umemSize_eq : socket.umemSize = shape.umem.umemSizeBytes

variable {others : Finset XskResource} {interfaceName : String} {queueId : UInt32}
  {calls : XskCalls lib}

lemma ready_opening (hsetup : SetUp shape queueId calls)
    (h : (opening shape others interfaceName queueId calls).1 = .ok) :
    Ready shape (opening shape others interfaceName queueId calls).2.xsk := by
  obtain ⟨mmap, umemCreate, socketCreate⟩ := calls
  rw [opening, XskProcess.init, if_neg Bool.false_ne_true] at h ⊢
  by_cases hbad : some interfaceName = none ∨ !(liveUmemConfig shape).valid ∨
      !(liveSocketConfig shape queueId).valid
  · rw [if_pos hbad] at h
    cases h
  rw [if_neg hbad] at h ⊢
  cases mmap with
  | none => cases h
  | some base =>
    cases umemCreate with
    | none => cases h
    | some umem =>
      cases socketCreate with
      | none => cases h
      | some socket =>
        obtain ⟨hfill, hcompletion, hrx, htx⟩ := hsetup
        exact ⟨⟨(hfill umem rfl).1, (hfill umem rfl).2⟩, (hcompletion umem rfl).1,
          (hrx socket rfl).1, (htx socket rfl).1, (htx socket rfl).2, ⟨base, rfl⟩,
          UInt64.mul_comm _ _⟩

/-- The state in which the loop starts. -/
lemma start_eq (hlib : lib.Lawful) {socket : LibxdpSocket lib} (h : Ready shape socket) :
    ∃ fill : lib.fill.Ring, Posted shape (postedCount shape) fill ∧
      start shape socket =
        (initial shape socket).filled (postedCount shape + leakedCount shape) fill := by
  have hinitial : initial shape socket = (initial shape socket).filled 0 socket.fill := by
    simp only [filled, initial, allocated_zero]
  obtain ⟨fill, hposted, hloop⟩ := fillLoop_eq hlib (initial shape socket) h.fill (Nat.zero_le _)
    (Nat.zero_le _) (Or.inl (dvd_zero _))
  rw [← hinitial] at hloop
  exact ⟨fill, hposted, hloop⟩

end Live

end ChronosX
