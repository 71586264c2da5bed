import ChronosX.Runtime.Stages
import ChronosX.Runtime.Init

/-!
# The adapter and the kernel

The kernel side of an AF_XDP socket, as it is assumed to behave: it takes addresses out of the
fill ring, delivers each of them at most once on the RX ring with the bytes it wrote into the
frame, takes descriptors out of the TX ring and puts each of their addresses at most once on the
completion ring. What it has taken and not yet handed back is in its custody. A run starts with
a successful `init` and interleaves kernel steps and `poll_once` calls with any rules.

A host also remembers, for the statements about runs, what the UMEM held when each address was
last delivered and what was submitted for transmission.
-/

namespace ChronosX

open Ledger Mem AfXdpRuntimeAdapter

variable {shape : RuntimeShape}

/-- A descriptor put on the TX ring, the UMEM at that moment, and the UMEM when the frame was
received. -/
structure Transmission where
  descriptor : TxDescriptor
  sent : Umem
  received : Umem

/-- The adapter, the kernel's custody, and what is remembered of the run. -/
structure Host (shape : RuntimeShape) where
  runtime : AfXdpRuntimeAdapter shape
  rxCustody : List UInt64
  txCustody : List UInt64
  received : UInt64 → Umem
  transmitted : List Transmission

namespace Host

/-- The host after `init` of a default-constructed adapter. -/
def start (shape : RuntimeShape) (count : ℕ) : Host shape where
  runtime := ((fresh : AfXdpRuntimeAdapter shape).init count).2
  rxCustody := []
  txCustody := []
  received := fun _ _ => 0
  transmitted := []

/-- The addresses `init` posts to the fill ring. -/
def posted (shape : RuntimeShape) (count : ℕ) : List UInt64 :=
  (start shape count).runtime.socket.fillRing.toList

variable (s : Host shape)

/-- The kernel takes the next address out of the fill ring, if there is one. -/
def takeFill : Host shape :=
  { s with
    runtime.socket := (s.runtime.socket.consumeFill 1).2
    rxCustody := s.rxCustody ++ (s.runtime.socket.consumeFill 1).1 }

/-- The kernel puts a descriptor on the RX ring, with these bytes in the UMEM. -/
def deliver (rx : RxDescriptor) (umem : Umem) : Host shape :=
  { s with
    runtime.socket := (s.runtime.socket.injectRx [rx]).2
    runtime.umem := umem
    rxCustody := s.rxCustody.erase rx.address
    received := Function.update s.received rx.address umem }

@[simp] lemma deliver_umem (rx : RxDescriptor) (umem : Umem) :
    (s.deliver rx umem).runtime.umem = umem := rfl

@[simp] lemma deliver_received (rx : RxDescriptor) (umem : Umem) :
    (s.deliver rx umem).received = Function.update s.received rx.address umem := rfl

/-- The kernel takes the next descriptor out of the TX ring, if there is one. -/
def takeTx : Host shape :=
  { s with
    runtime.socket.txRing := (s.runtime.socket.txRing.consume 1).2
    txCustody := s.txCustody ++ (s.runtime.socket.txRing.consume 1).1.map (·.address) }

/-- The kernel puts an address on the completion ring. -/
def complete (address : UInt64) : Host shape :=
  { s with
    runtime.socket := (s.runtime.socket.completeTx [address]).2
    txCustody := s.txCustody.erase address }

/-- The descriptors a poll submitted, with the UMEM at that moment. -/
def submissions (log : List PollEvent) : List (TxDescriptor × Umem) :=
  log.filterMap fun event =>
    match event with
    | .submitted descriptor umem => some (descriptor, umem)
    | _ => none

/-- A call of `poll_once`. -/
def poll (rules : List ChaosRule) : Host shape :=
  { s with
    runtime := (s.runtime.pollOnce rules).2.adapter
    transmitted := s.transmitted ++ (submissions (s.runtime.pollOnce rules).2.log).map
      fun (descriptor, umem) => ⟨descriptor, umem, s.received descriptor.address⟩ }

/-- The steps of a well-behaved kernel. -/
inductive KernelStep : Host shape → Host shape → Prop where
  | takeFill (s : Host shape) : KernelStep s s.takeFill
  | deliver {s : Host shape} {rx : RxDescriptor} {umem : Umem}
      (custody : rx.address ∈ s.rxCustody)
      (length_le : rx.length.toNat ≤ shape.umem.frameSize.toNat)
      (room : s.runtime.socket.rxRing.toList.length < shape.socket.rxSize.toNat)
      (others : ∀ x, ¬ InFrame rx.address.toNat shape.umem.frameSize.toNat x →
        umem x = s.runtime.umem x) :
      KernelStep s (s.deliver rx umem)
  | takeTx (s : Host shape) : KernelStep s s.takeTx
  | complete {s : Host shape} {address : UInt64} (custody : address ∈ s.txCustody)
      (room : s.runtime.socket.completionRing.toList.length < shape.socket.compSize.toNat) :
      KernelStep s (s.complete address)

/-- The states of the runs after a successful `init`, in which every poll is called in a state
that is `allowed`. -/
inductive Reachable (allowed : AfXdpRuntimeAdapter shape → Prop) (count : ℕ) :
    Host shape → Prop where
  | start (ok : ((fresh : AfXdpRuntimeAdapter shape).init count).1 = .ok) :
      Reachable allowed count (start shape count)
  | kernel {s s' : Host shape} (reachable : Reachable allowed count s) (step : KernelStep s s') :
      Reachable allowed count s'
  | poll {s : Host shape} (reachable : Reachable allowed count s) (ok : allowed s.runtime)
      (rules : List ChaosRule) : Reachable allowed count (s.poll rules)

/-! ### Custody over kernel steps -/

/-- What the kernel holds, with the tags the frames carry meanwhile. -/
def custody : Multiset Entry :=
  tagged .fillRing (s.rxCustody : Multiset UInt64) + tagged .txRing (s.txCustody : Multiset UInt64)

/-- The frames in circulation and the stranded ones are the posted ones, tagged as they should
be. -/
structure Holds (s : Host shape) (names : Multiset UInt64) (stranded : Multiset Entry) : Prop where
  keeps : s.runtime.Keeps names (s.custody + stranded)
  initialized : s.runtime.initialized = true

end Host

open Host

variable {s s' : Host shape} {names : Multiset UInt64} {stranded : Multiset Entry}

/-- One step of the kernel moves entries between the rings and its custody. -/
lemma Host.KernelStep.entries_eq (h : KernelStep s s') :
    s'.runtime.ledger + s'.custody = s.runtime.ledger + s.custody := by
  cases h with
  | takeFill =>
    obtain ⟨htake, hdrop⟩ := s.runtime.socket.fillRing.consume_spec 1
    simp only [Host.takeFill, custody, ledger, SimulatedXskSocket.consumeFill, htake, hdrop,
      ← Multiset.coe_add, tagged_add]
    rw [tagged_take_add_drop FrameOwner.fillRing 1 s.runtime.socket.fillRing.toList]
    abel
  | @deliver rx umem hcustody hlength hroom hothers =>
    rcases s.runtime.socket.rxRing.produce_singleton rx with ⟨-, -, hlist⟩ | ⟨hfull, -⟩
    · simp only [Host.deliver, custody, ledger, SimulatedXskSocket.injectRx, hlist, List.map_append,
        List.map_cons, List.map_nil, ← Multiset.coe_add, tagged_add]
      rw [tagged_erase FrameOwner.fillRing hcustody]
      abel
    · exact absurd hfull (Nat.ne_of_lt hroom)
  | takeTx =>
    obtain ⟨htake, hdrop⟩ := s.runtime.socket.txRing.consume_spec 1
    simp only [Host.takeTx, custody, ledger, htake, hdrop, ← Multiset.coe_add, tagged_add,
      List.map_take, List.map_drop]
    rw [tagged_take_add_drop FrameOwner.txRing 1 (s.runtime.socket.txRing.toList.map (·.address))]
    abel
  | @complete address hcustody hroom =>
    rcases s.runtime.socket.completionRing.produce_singleton address with
      ⟨-, -, hlist⟩ | ⟨hfull, -⟩
    · simp only [Host.complete, custody, ledger, SimulatedXskSocket.completeTx, hlist,
        ← Multiset.coe_add, tagged_add]
      rw [tagged_erase FrameOwner.txRing hcustody]
      abel
    · exact absurd hfull (Nat.ne_of_lt hroom)

/-- The kernel does not touch the allocator, the wheel or the adapter's flag. -/
lemma Host.KernelStep.same (h : KernelStep s s') :
    s'.runtime.allocator = s.runtime.allocator ∧
      s'.runtime.timingWheel = s.runtime.timingWheel ∧
      s'.runtime.initialized = s.runtime.initialized ∧ s'.transmitted = s.transmitted := by
  cases h <;> exact ⟨rfl, rfl, rfl, rfl⟩

lemma Host.Holds.kernel (h : s.Holds names stranded) (hstep : KernelStep s s') :
    s'.Holds names stranded := by
  obtain ⟨hallocator, -, hinitialized, -⟩ := hstep.same
  refine ⟨h.keeps.of_eq (by rw [hallocator]) ?_, hinitialized.trans h.initialized⟩
  rw [← add_assoc, hstep.entries_eq, add_assoc]

/-- A poll strands the frames whose push found no room. -/
lemma Host.Holds.poll (h : s.Holds names stranded) (rules : List ChaosRule) :
    ∃ lost, s.runtime.Polled rules names (s.custody + stranded) lost ∧
      (s.poll rules).Holds names (lost + stranded) := by
  obtain ⟨lost, hpolled⟩ := pollOnce_polled h.initialized h.keeps rules
  refine ⟨lost, hpolled, ?_, hpolled.initialized⟩
  have hkeeps := hpolled.keeps
  rwa [add_left_comm] at hkeeps

/-! ### The initial state -/

/-- While `init` runs, the posted frames are on the fill ring and nothing is anywhere else. -/
structure Posting (a : AfXdpRuntimeAdapter shape) : Prop where
  consistent : a.allocator.Consistent
  agrees : Agrees shape.umem.address a.allocator.owners
    (tagged .fillRing (a.socket.fillRing.toList : Multiset UInt64))
  rxRing_eq : a.socket.rxRing.toList = []
  txRing_eq : a.socket.txRing.toList = []
  completionRing_eq : a.socket.completionRing.toList = []
  wheel_eq : a.timingWheel = .fresh

lemma posting_fresh : Posting (fresh : AfXdpRuntimeAdapter shape) where
  consistent := FrameAllocator.consistent_fresh
  agrees := by
    rw [fresh, SimulatedXskSocket.fresh, SimulatedRing.toList_fresh]
    exact ⟨Multiset.nodup_zero, fun e he => absurd he (Multiset.notMem_zero e)⟩
  rxRing_eq := SimulatedRing.toList_fresh
  txRing_eq := SimulatedRing.toList_fresh
  completionRing_eq := SimulatedRing.toList_fresh
  wheel_eq := rfl

namespace Posting

variable {a : AfXdpRuntimeAdapter shape}

lemma keeps (h : Posting a) : a.Keeps (a.socket.fillRing.toList : Multiset UInt64) 0 := by
  have hledger : a.ledger = tagged .fillRing (a.socket.fillRing.toList : Multiset UInt64) := by
    simp [ledger, h.rxRing_eq, h.txRing_eq, h.completionRing_eq, h.wheel_eq,
      TimingWheel.pending_fresh]
  constructor
  · rw [add_zero, hledger]
    exact h.agrees
  · rw [add_zero, hledger, map_fst_tagged]

/-- The frame on top of the free stack goes to the fill ring. -/
lemma post (h : Posting a) {i : Fin shape.umem.frameCount} {stack : List (Fin shape.umem.frameCount)}
    (hstack : a.allocator.freeStack = i :: stack)
    (hroom : a.socket.fillRing.toList.length < shape.socket.fillSize.toNat) :
    Posting (a.postOne i stack) := by
  have hfree : a.allocator.owners i = .free := by
    rw [← h.consistent.mem_iff, hstack]
    exact List.mem_cons_self
  -- a frame on the free stack is not on the fill ring: the tags differ
  have hnew : shape.umem.address i ∉
      (tagged FrameOwner.fillRing (a.socket.fillRing.toList : Multiset UInt64)).map Prod.fst := by
    intro hmem
    rw [map_fst_tagged] at hmem
    obtain ⟨j, hj, howner⟩ := h.agrees.owned (shape.umem.address i, .fillRing)
      (mem_tagged.mpr ⟨hmem, rfl⟩)
    rw [← UmemShape.handle_address_inj.mp hj, hfree] at howner
    cases howner
  refine ⟨consistent_postOne h.consistent hstack, ?_, h.rxRing_eq, h.txRing_eq,
    h.completionRing_eq, h.wheel_eq⟩
  have hentries : tagged FrameOwner.fillRing
      ((a.postOne i stack).socket.fillRing.toList : Multiset UInt64) =
      (shape.umem.address i, .fillRing) ::ₘ
        tagged .fillRing (a.socket.fillRing.toList : Multiset UInt64) := by
    rw [toList_postOne hroom, ← Multiset.coe_add, tagged_add, add_comm]
    rfl
  rw [hentries]
  exact h.agrees.enter .fillRing hnew

/-- A loop of `init` that succeeds posts as many frames as it was asked to. -/
lemma postFrames (count : ℕ) (h : Posting a) (hok : (a.postFrames count).1 = .ok) :
    Posting (a.postFrames count).2 ∧ (a.postFrames count).2.initialized = true ∧
      (a.postFrames count).2.socket.fillRing.toList.length =
        a.socket.fillRing.toList.length + count := by
  induction count generalizing a with
  | zero => exact ⟨⟨h.consistent, h.agrees, h.rxRing_eq, h.txRing_eq, h.completionRing_eq,
      h.wheel_eq⟩, rfl, rfl⟩
  | succ count ih =>
    obtain ⟨i, stack, hstack, hroom, heq⟩ := postFrames_succ hok
    rw [heq] at hok ⊢
    obtain ⟨hposting, hinitialized, hlength⟩ := ih (h.post hstack hroom) hok
    refine ⟨hposting, hinitialized, ?_⟩
    rw [hlength, toList_postOne hroom, List.length_append, List.length_singleton, Nat.add_assoc,
      Nat.add_comm 1]

end Posting

/-- A successful `init` posts the requested frames, or all there are. -/
lemma init_posting {count : ℕ} (hok : ((fresh : AfXdpRuntimeAdapter shape).init count).1 = .ok) :
    Posting (Host.start shape count).runtime ∧
      (Host.start shape count).runtime.initialized = true ∧
      (posted shape count).length = min count shape.umem.frameCount := by
  have heq := init_eq (a := (fresh : AfXdpRuntimeAdapter shape)) rfl count
  rw [posted, Host.start]
  rw [heq] at hok ⊢
  obtain ⟨hposting, hinitialized, hlength⟩ := posting_fresh.postFrames _ hok
  refine ⟨hposting, hinitialized, ?_⟩
  rw [hlength, fresh, SimulatedXskSocket.fresh, SimulatedRing.toList_fresh, List.length_nil,
    Nat.zero_add]

lemma holds_start {count : ℕ} (hok : ((fresh : AfXdpRuntimeAdapter shape).init count).1 = .ok) :
    (Host.start shape count).Holds (posted shape count : Multiset UInt64) 0 := by
  obtain ⟨hposting, hinitialized, -⟩ := init_posting hok
  exact ⟨hposting.keeps, hinitialized⟩

/-! ### Whole runs -/

variable {allowed : AfXdpRuntimeAdapter shape → Prop} {count : ℕ}

lemma Host.Reachable.init_ok (h : Reachable allowed count s) :
    ((fresh : AfXdpRuntimeAdapter shape).init count).1 = .ok := by
  induction h with
  | start hok => exact hok
  | kernel _ _ ih => exact ih
  | poll _ _ _ ih => exact ih

/-- In every run the posted frames are in circulation or stranded. -/
lemma Host.Reachable.holds (h : Reachable allowed count s) :
    ∃ stranded, s.Holds (posted shape count : Multiset UInt64) stranded := by
  induction h with
  | start hok => exact ⟨0, holds_start hok⟩
  | kernel _ hstep ih =>
    obtain ⟨stranded, hholds⟩ := ih
    exact ⟨stranded, hholds.kernel hstep⟩
  | poll _ _ rules ih =>
    obtain ⟨stranded, hholds⟩ := ih
    obtain ⟨lost, -, hpoll⟩ := hholds.poll rules
    exact ⟨lost + stranded, hpoll⟩

/-- When every poll finds room in the rings, no frame is ever stranded. -/
lemma Host.Reachable.holds_zero
    (hroom : ∀ s : Host shape, s.Holds (posted shape count : Multiset UInt64) 0 →
      allowed s.runtime → s.runtime.Room)
    (h : Reachable allowed count s) : s.Holds (posted shape count : Multiset UInt64) 0 := by
  induction h with
  | start hok => exact holds_start hok
  | kernel _ hstep ih => exact ih.kernel hstep
  | poll _ hallowed rules ih =>
    obtain ⟨lost, hpolled, hpoll⟩ := ih.poll rules
    rwa [hpolled.room (hroom _ ih hallowed), zero_add] at hpoll

end ChronosX
