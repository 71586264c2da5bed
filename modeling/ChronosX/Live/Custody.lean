import ChronosX.Live.Fill
import ChronosX.DataPlane.Forwarding

/-!
# Frames in custody in live mode

While each posted frame is in one of the rings, with the kernel, or in the hands of an iteration,
and its owner tag says so, the loops of an iteration do what they look like: every tag is as the
code expects it, so no frame is skipped, and every ring has room for every frame in hand, so that
dropping the result of a refill loses nothing. What the loops do is stated on the view of the state:
the entries of the rings, the bytes and the counters.
-/

namespace ChronosX

open Ledger

/-- Different frames have no byte in common. -/
lemma UmemShape.inFrame_inj {shape : UmemShape} {i j : Fin shape.frameCount} {x : ℕ}
    (hi : InFrame (shape.address i).toNat shape.frameSize.toNat x)
    (hj : InFrame (shape.address j).toNat shape.frameSize.toNat x) : i = j := by
  rw [InFrame, address, handle_address, ← Nat.succ_mul] at hi hj
  exact Fin.ext ((Nat.div_eq_of_lt_le hi.1 hi.2).symm.trans (Nat.div_eq_of_lt_le hj.1 hj.2))

/-- From `a` to `a'` only tags of frames with the given names have changed. -/
structure FrameAllocator.SameOutside {shape : UmemShape} (names : Multiset UInt64)
    (a a' : FrameAllocator shape) : Prop where
  freeStack_eq : a'.freeStack = a.freeStack
  owners_eq : ∀ i, shape.address i ∉ names → a'.owners i = a.owners i

namespace FrameAllocator.SameOutside

variable {shape : UmemShape} {names : Multiset UInt64} {a a' a'' : FrameAllocator shape}

lemma refl (a : FrameAllocator shape) : SameOutside names a a := ⟨rfl, fun _ _ => rfl⟩

lemma trans (h : SameOutside names a a') (h' : SameOutside names a' a'') :
    SameOutside names a a'' :=
  ⟨h'.freeStack_eq.trans h.freeStack_eq, fun i hi => (h'.owners_eq i hi).trans (h.owners_eq i hi)⟩

lemma setOwner {i : Fin shape.frameCount} (hi : shape.address i ∈ names) (a : FrameAllocator shape)
    (owner : FrameOwner) : SameOutside names a (a.setOwner i owner) := by
  refine ⟨rfl, fun j hj => ?_⟩
  rw [owners_setOwner, Function.update_of_ne]
  rintro rfl
  exact hj hi

end FrameAllocator.SameOutside

namespace LibxdpSocket

variable {lib : Libxdp} {s : LibxdpSocket lib}

lemma refill_of_room (hlib : lib.Lawful) {k : UInt64}
    (h : (lib.fill.entries s.fill).length < lib.fill.size s.fill) :
    ∃ fill, lib.fill.Appends s.fill [k] fill ∧ (s.refill [k]).2 = { s with fill } :=
  ⟨_, (hlib.fill.produce_one h).2, rfl⟩

lemma submitTx_of_room (hlib : lib.Lawful) {d : TxDescriptor}
    (h : (lib.tx.entries s.tx).length < lib.tx.size s.tx) :
    ∃ tx, lib.tx.Appends s.tx [d] tx ∧ (s.submitTx [d]).1.count = 1 ∧
      (s.submitTx [d]).2 = { s with tx } :=
  ⟨_, (hlib.tx.produce_one h).2, (hlib.tx.produce_one h).1, rfl⟩

/-- A kick changes the kick count at most. -/
lemma kickTx_snd (s : LibxdpSocket lib) (sendto : Option SendError) :
    (s.kickTx sendto).2 = { s with txKickCount := (s.kickTx sendto).2.txKickCount } := by
  rw [kickTx]
  split_ifs <;> rfl

end LibxdpSocket

/-! ### The view of the state -/

/-- The queues, the bytes and the counters of live mode. -/
structure Reflector where
  fill : List UInt64
  completion : List UInt64
  rx : List RxDescriptor
  tx : List TxDescriptor
  umem : Umem
  packetsSeen : UInt64
  packetsDropped : UInt64
  txSubmitted : UInt64
  completed : UInt64

namespace Reflector

variable (r : Reflector)

/-- The frame addresses in the queues, with the tag each queue stands for. -/
def ledger : Multiset Entry :=
  tagged .fillRing (r.fill : Multiset UInt64) +
  tagged .fillRing (r.rx.map (·.address) : Multiset UInt64) +
  tagged .txRing (r.tx.map (·.address) : Multiset UInt64) +
  tagged .txRing (r.completion : Multiset UInt64)

/-- Frames go to the fill queue, `count` of them completed. -/
def returns (addresses : List UInt64) (count : UInt64) : Reflector :=
  { r with fill := r.fill ++ addresses, completed := r.completed + count }

/-- Frames go to the TX queue. -/
def submits (descriptors : List TxDescriptor) : Reflector :=
  { r with
    tx := r.tx ++ descriptors
    txSubmitted := r.txSubmitted + UInt64.ofNat descriptors.length }

lemma ledger_returns (addresses : List UInt64) (count : UInt64) :
    (r.returns addresses count).ledger =
      tagged .fillRing (addresses : Multiset UInt64) + r.ledger := by
  simp only [ledger, returns, ← Multiset.coe_add, tagged_add]
  abel

lemma ledger_submits (descriptors : List TxDescriptor) :
    (r.submits descriptors).ledger =
      tagged .txRing (descriptors.map (·.address) : Multiset UInt64) + r.ledger := by
  simp only [ledger, submits, List.map_append, ← Multiset.coe_add, tagged_add]
  abel

lemma returns_returns (xs ys : List UInt64) (m n : UInt64) :
    (r.returns xs m).returns ys n = r.returns (xs ++ ys) (m + n) := by
  simp only [returns, List.append_assoc, UInt64.add_assoc]

lemma submits_submits (xs ys : List TxDescriptor) :
    (r.submits xs).submits ys = r.submits (xs ++ ys) := by
  simp only [submits, List.append_assoc, UInt64.add_assoc, List.length_append, UInt64.ofNat_add]

end Reflector

namespace Live

variable {lib : Libxdp} {shape : RuntimeShape} {l l' l'' : Live lib shape}
  {names : Multiset UInt64} {rest rest' : Multiset Entry}

/-- What the rings hold, the bytes and the counters. -/
def view (l : Live lib shape) : Reflector where
  fill := lib.fill.entries l.socket.fill
  completion := lib.completion.entries l.socket.completion
  rx := lib.rx.entries l.socket.rx
  tx := lib.tx.entries l.socket.tx
  umem := l.umem
  packetsSeen := l.packetsSeen
  packetsDropped := l.packetsDropped
  txSubmitted := l.txSubmitted
  completed := l.completed

/-- From `l` to `l'` only the view, the kick count and the tags of frames with the given names have
changed. -/
structure Steady (names : Multiset UInt64) (l l' : Live lib shape) : Prop where
  outside : l.allocator.SameOutside names l'.allocator
  timingWheel_eq : l'.timingWheel = l.timingWheel
  fillSize_eq : lib.fill.size l'.socket.fill = lib.fill.size l.socket.fill
  txSize_eq : lib.tx.size l'.socket.tx = lib.tx.size l.socket.tx
  umemArea_eq : l'.socket.umemArea = l.socket.umemArea
  umemSize_eq : l'.socket.umemSize = l.socket.umemSize

namespace Steady

lemma refl (l : Live lib shape) : Steady names l l := ⟨.refl _, rfl, rfl, rfl, rfl, rfl⟩

lemma trans (h : Steady names l l') (h' : Steady names l' l'') : Steady names l l'' :=
  ⟨h.outside.trans h'.outside, h'.timingWheel_eq.trans h.timingWheel_eq,
    h'.fillSize_eq.trans h.fillSize_eq, h'.txSize_eq.trans h.txSize_eq,
    h'.umemArea_eq.trans h.umemArea_eq, h'.umemSize_eq.trans h.umemSize_eq⟩

end Steady

/-- The view and the entries `rest` held elsewhere agree with the owner tags, and together they
hold the given names. -/
def Keeps (l : Live lib shape) (names : Multiset UInt64) (rest : Multiset Entry) : Prop :=
  Kept shape.umem.address l.allocator.owners names (l.view.ledger + rest)

/-- The fill ring and the TX ring can hold all the frames. -/
structure Ample (l : Live lib shape) (names : Multiset UInt64) : Prop where
  fill : names.card ≤ lib.fill.size l.socket.fill
  tx : names.card ≤ lib.tx.size l.socket.tx

lemma Ample.steady (h : l.Ample names) (hsteady : Steady names l l') : l'.Ample names :=
  ⟨hsteady.fillSize_eq ▸ h.fill, hsteady.txSize_eq ▸ h.tx⟩

namespace Keeps

/-- Entries may move between the ledger and the rest. -/
lemma of_eq (h : l.Keeps names rest) (howners : l'.allocator.owners = l.allocator.owners)
    (hentries : l'.view.ledger + rest' = l.view.ledger + rest) : l'.Keeps names rest' := by
  rw [Keeps, howners, hentries]
  exact h

lemma owned {k : UInt64} {t : FrameOwner} (h : l.Keeps names ((k, t) ::ₘ rest)) :
    ∃ i, k = shape.umem.address i ∧ l.allocator.owners i = t := by
  rw [Keeps, Multiset.add_cons] at h
  exact h.owned

/-- A frame in hand is one of the names. -/
lemma mem {k : UInt64} {t : FrameOwner} (h : l.Keeps names ((k, t) ::ₘ rest)) : k ∈ names := by
  rw [← h.names_eq, Multiset.add_cons, Multiset.map_cons]
  exact Multiset.mem_cons_self _ _

/-- An entry is retagged, and may move into the ledger. -/
lemma retag {i : Fin shape.umem.frameCount} {t t' : FrameOwner}
    (h : l.Keeps names ((shape.umem.address i, t) ::ₘ rest))
    (howners : l'.allocator.owners = Function.update l.allocator.owners i t')
    (hentries : l'.view.ledger + rest' =
      (shape.umem.address i, t') ::ₘ (l.view.ledger + rest)) : l'.Keeps names rest' := by
  rw [Keeps, Multiset.add_cons] at h
  rw [Keeps, howners, hentries]
  exact h.retag t'

/-- While a frame is in hand, a ring that can hold all the frames has room. -/
lemma room {e : Entry} (h : l.Keeps names (e ::ₘ rest)) (hample : l.Ample names) :
    (lib.fill.entries l.socket.fill).length < lib.fill.size l.socket.fill ∧
      (lib.tx.entries l.socket.tx).length < lib.tx.size l.socket.tx := by
  have hcard := congrArg Multiset.card h.names_eq
  simp only [Reflector.ledger, view, Multiset.map_add, map_fst_tagged, Multiset.card_add,
    Multiset.map_cons, Multiset.card_cons, Multiset.coe_card, List.length_map,
    Multiset.card_map] at hcard
  have hfill := hample.fill
  have htx := hample.tx
  exact ⟨by omega, by omega⟩

end Keeps

/-! ### Returning frames to the fill ring -/

section

variable (hlib : lib.Lawful)
include hlib

/-- A frame in hand is returned. -/
lemma returnOne_spec {k : UInt64} {owner : FrameOwner} (h : l.Keeps names ((k, owner) ::ₘ rest))
    (hample : l.Ample names) (count : UInt64) :
    Steady names l (l.returnOne owner count k) ∧
      (l.returnOne owner count k).view = l.view.returns [k] count ∧
      (l.returnOne owner count k).Keeps names rest := by
  obtain ⟨i, rfl, howner⟩ := h.owned
  have htransition := l.allocator.transition_handle i (show FrameOwner.fillRing ≠ .free by decide)
  rw [howner] at htransition
  obtain ⟨fill, happends, hrefill⟩ :=
    LibxdpSocket.refill_of_room hlib (k := shape.umem.address i) (h.room hample).1
  have heq : l.returnOne owner count (shape.umem.address i) = { l with
      allocator := l.allocator.setOwner i .fillRing
      socket.fill := fill
      completed := l.completed + count } := by
    rw [UmemShape.address] at hrefill
    simp only [returnOne, UmemShape.handleFromAddress_of_eq rfl, FrameAllocation.ok,
      beq_self_eq_true, Bool.not_true, Bool.false_eq_true, if_false, htransition, hrefill, ne_eq,
      not_true_eq_false]
  have hview : (l.returnOne owner count (shape.umem.address i)).view =
      l.view.returns [shape.umem.address i] count := by
    rw [heq, view, happends.entries_eq]
    rfl
  refine ⟨?_, hview, h.retag (by rw [heq]; rfl) ?_⟩
  · rw [heq]
    exact ⟨.setOwner h.mem _ _, rfl, happends.size_eq, rfl, rfl, rfl⟩
  · rw [hview, Reflector.ledger_returns, Multiset.coe_singleton, ← Multiset.singleton_add,
      add_assoc]
    rfl

/-- A loop that returns the frames in hand. -/
lemma foldl_returnOne {α : Type} (address : α → UInt64) (owner : FrameOwner) (count : UInt64)
    (xs : List α) (h : l.Keeps names (tagged owner (xs.map address : Multiset UInt64) + rest))
    (hample : l.Ample names) :
    let l' := xs.foldl (fun l x => l.returnOne owner count (address x)) l
    Steady names l l' ∧
      l'.view = l.view.returns (xs.map address) (UInt64.ofNat xs.length * count) ∧
      l'.Keeps names rest := by
  induction xs generalizing l with
  | nil =>
    have hkeeps : l.Keeps names rest := by simpa using h
    exact ⟨.refl l, by simp [Reflector.returns], hkeeps⟩
  | cons x xs ih =>
    rw [List.map_cons, ← Multiset.cons_coe, tagged_cons, Multiset.cons_add] at h
    obtain ⟨hsteady, hview, hkeeps⟩ := returnOne_spec hlib h hample count
    obtain ⟨hsteady', hview', hkeeps'⟩ := ih hkeeps (hample.steady hsteady)
    refine ⟨hsteady.trans hsteady', ?_, hkeeps'⟩
    have hcount : UInt64.ofNat (x :: xs).length * count =
        count + UInt64.ofNat xs.length * count := by
      rw [List.length_cons, UInt64.ofNat_add, UInt64.add_mul, UInt64.add_comm]
      exact congrArg (· + _) (UInt64.one_mul count)
    rw [List.foldl_cons, hview', hview, Reflector.returns_returns, hcount]
    rfl

/-- Some completed frames leave the completion ring and go to the fill ring. -/
lemma drainCompletions_spec (h : l.Keeps names rest) (hample : l.Ample names) :
    ∃ done, done ≤ min kDataPlaneBatchSize l.view.completion.length ∧
      (l.view.completion ≠ [] → 0 < done) ∧
      Steady names l l.drainCompletions ∧
      l.drainCompletions.view =
        ({ l.view with completion := l.view.completion.drop done } : Reflector).returns
          (l.view.completion.take done) (UInt64.ofNat done) ∧
      l.drainCompletions.Keeps names rest := by
  obtain ⟨available, completion, hconsume, hle, hpos, hdrops⟩ :=
    hlib.completion.consume_eq l.socket.completion (show kDataPlaneBatchSize < 2 ^ 32 by decide)
  let drained : Live lib shape := { l with socket.completion := completion }
  have hview : drained.view =
      { l.view with completion := l.view.completion.drop available.toNat } := by
    rw [view]
    simp only [drained, hdrops.entries_eq]
    rfl
  have hdrained : drained.Keeps names
      (tagged .txRing ((l.view.completion.take available.toNat).map id : Multiset UInt64) +
        rest) := by
    refine h.of_eq rfl ?_
    rw [hview, List.map_id]
    simp only [Reflector.ledger]
    rw [tagged_take_add_drop FrameOwner.txRing available.toNat l.view.completion]
    abel
  obtain ⟨hsteady, hreturned, hkeeps⟩ :=
    foldl_returnOne hlib id .txRing 1 _ hdrained ⟨hample.fill, hample.tx⟩
  have heq : l.drainCompletions = (l.view.completion.take available.toNat).foldl
      (fun l address => l.returnOne .txRing 1 (id address)) drained := by
    rw [Live.drainCompletions, LibxdpSocket.drainCompletions, hconsume]
    rfl
  have hlength : (l.view.completion.take available.toNat).length = available.toNat := by
    rw [List.length_take]
    exact Nat.min_eq_left (hle.trans (Nat.min_le_right _ _))
  refine ⟨available.toNat, hle, hpos (by decide), ?_, ?_, ?_⟩
  · have hstart : Steady names l drained := ⟨.refl _, rfl, rfl, rfl, rfl, rfl⟩
    rw [heq]
    exact hstart.trans hsteady
  · rw [heq, hreturned, hview, List.map_id, hlength, UInt64.mul_one]
  · rw [heq]
    exact hkeeps

/-- The loop over the frames to recycle. -/
lemma foldl_recycleOne (frames : List ProcessedFrame)
    (h : l.Keeps names
      (tagged .dataPlane (frames.map (·.frameAddress) : Multiset UInt64) + rest))
    (hample : l.Ample names) :
    Steady names l (frames.foldl recycleOne l) ∧
      (frames.foldl recycleOne l).view = l.view.returns (frames.map (·.frameAddress)) 0 ∧
      (frames.foldl recycleOne l).Keeps names rest := by
  have hfold := foldl_returnOne hlib (fun frame : ProcessedFrame => frame.frameAddress) .dataPlane 0
    frames h hample
  rwa [UInt64.mul_zero] at hfold

end

/-! ### Receiving -/

/-- A received frame in custody is handed on, whatever its owner is. -/
lemma receiveOne_eq (ds : List PacketDescriptor) {rx : RxDescriptor} {i : Fin shape.umem.frameCount}
    (hi : rx.address = shape.umem.address i) :
    receiveOne (ds, l) rx = (ds ++ [Poll.packetDescriptor rx],
      { l with allocator := l.allocator.setOwner i .dataPlane }) := by
  have htransition := l.allocator.transition_handle i (show FrameOwner.dataPlane ≠ .free by decide)
  simp only [receiveOne, UmemShape.handleFromAddress_of_eq hi, FrameAllocation.ok,
    FrameAllocator.ownerOf_handle, htransition, beq_self_eq_true, Bool.not_true,
    Bool.false_eq_true, ne_eq, not_true_eq_false, if_false]

/-- Received frames in custody are all handed on. -/
lemma foldl_receiveOne (rxs : List RxDescriptor) (ds : List PacketDescriptor)
    (h : l.Keeps names (tagged .fillRing (rxs.map (·.address) : Multiset UInt64) + rest)) :
    ∃ allocator, l.allocator.SameOutside names allocator ∧
      rxs.foldl receiveOne (ds, l) = (ds ++ rxs.map Poll.packetDescriptor, { l with allocator }) ∧
      ({ l with allocator } : Live lib shape).Keeps names
        (tagged .dataPlane (rxs.map (·.address) : Multiset UInt64) + rest) := by
  induction rxs generalizing ds l rest with
  | nil => exact ⟨l.allocator, .refl _, by simp, h⟩
  | cons rx rxs ih =>
    rw [List.map_cons, ← Multiset.cons_coe, tagged_cons, Multiset.cons_add] at h
    obtain ⟨i, hi, -⟩ := h.owned
    have hmem := h.mem
    rw [hi] at h hmem
    -- the frame stays in hand under its new tag
    have hkeeps : Keeps { l with allocator := l.allocator.setOwner i .dataPlane } names
        (tagged .fillRing (rxs.map (·.address) : Multiset UInt64) +
          ((shape.umem.address i, .dataPlane) ::ₘ rest)) := by
      refine h.retag rfl ?_
      rw [Multiset.add_cons, Multiset.add_cons]
      rfl
    obtain ⟨allocator, hsame, hfold, hkeeps'⟩ := ih (ds ++ [Poll.packetDescriptor rx]) hkeeps
    refine ⟨allocator, .trans (.setOwner hmem _ _) hsame, ?_, ?_⟩
    · rw [List.foldl_cons, receiveOne_eq ds hi, hfold, List.map_cons, List.append_assoc]
      rfl
    · rw [List.map_cons, ← Multiset.cons_coe, tagged_cons, Multiset.cons_add, hi]
      rwa [Multiset.add_cons] at hkeeps'

/-! ### Transmitting -/

/-- The descriptor that a frame is submitted with. -/
def txDescriptorOf (frame : ProcessedFrame) : TxDescriptor :=
  { address := frame.frameAddress, length := frame.frameLength, options := 0 }

section

variable (hlib : lib.Lawful) (sendto : LibxdpSocket lib → Option SendError)
include hlib

/-- A frame in hand is submitted. -/
lemma submitOne_spec {frame : ProcessedFrame}
    (h : l.Keeps names ((frame.frameAddress, .dataPlane) ::ₘ rest)) (hample : l.Ample names) :
    Steady names l (l.submitOne sendto frame) ∧
      (l.submitOne sendto frame).view = l.view.submits [txDescriptorOf frame] ∧
      (l.submitOne sendto frame).Keeps names rest := by
  obtain ⟨i, hi, howner⟩ := h.owned
  have hmem := h.mem
  rw [hi] at hmem
  have htransition := l.allocator.transition_handle i (show FrameOwner.txRing ≠ .free by decide)
  rw [howner] at htransition
  obtain ⟨tx, happends, hcount, hsubmit⟩ :=
    LibxdpSocket.submitTx_of_room hlib (d := txDescriptorOf frame) (h.room hample).2
  let socket : LibxdpSocket lib := { l.socket with tx }
  have heq : l.submitOne sendto frame = { l with
      allocator := l.allocator.setOwner i .txRing
      socket := { socket with txKickCount := (socket.kickTx (sendto socket)).2.txKickCount }
      txSubmitted := l.txSubmitted + 1 } := by
    rw [txDescriptorOf] at hcount hsubmit
    simp only [submitOne, UmemShape.handleFromAddress_of_eq hi, FrameAllocation.ok,
      beq_self_eq_true, Bool.not_true, Bool.false_eq_true, if_false, htransition, hcount, hsubmit,
      ne_eq, not_true_eq_false, if_true]
    rw [LibxdpSocket.kickTx_snd]
  have hview : (l.submitOne sendto frame).view = l.view.submits [txDescriptorOf frame] := by
    rw [heq, view]
    simp only [socket, happends.entries_eq]
    rfl
  refine ⟨?_, hview, ?_⟩
  · rw [heq]
    exact ⟨.setOwner hmem _ _, rfl, rfl, happends.size_eq, rfl, rfl⟩
  · rw [hi] at h
    refine h.retag (by rw [heq]; rfl) ?_
    rw [hview, Reflector.ledger_submits, List.map_singleton, txDescriptorOf, hi,
      Multiset.coe_singleton, ← Multiset.singleton_add, add_assoc]
    rfl

/-- The loop over the frames to transmit. -/
lemma foldl_submitOne (frames : List ProcessedFrame)
    (h : l.Keeps names
      (tagged .dataPlane (frames.map (·.frameAddress) : Multiset UInt64) + rest))
    (hample : l.Ample names) :
    let l' := frames.foldl (fun l frame => l.submitOne sendto frame) l
    Steady names l l' ∧ l'.view = l.view.submits (frames.map txDescriptorOf) ∧
      l'.Keeps names rest := by
  induction frames generalizing l with
  | nil =>
    have hkeeps : l.Keeps names rest := by simpa using h
    exact ⟨.refl l, by simp [Reflector.submits], hkeeps⟩
  | cons frame frames ih =>
    rw [List.map_cons, ← Multiset.cons_coe, tagged_cons, Multiset.cons_add] at h
    obtain ⟨hsteady, hview, hkeeps⟩ := submitOne_spec hlib sendto h hample
    obtain ⟨hsteady', hview', hkeeps'⟩ := ih hkeeps (hample.steady hsteady)
    refine ⟨hsteady.trans hsteady', ?_, hkeeps'⟩
    rw [List.foldl_cons, hview', hview, Reflector.submits_submits]
    rfl

end

end Live

end ChronosX
