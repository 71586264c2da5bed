import ChronosX.Runtime.Basic
import ChronosX.Library.Ledger
import ChronosX.Wheel.Pending
import Mathlib.Tactic.Abel

/-!
# Frames in custody

The ledger of an adapter enters every frame address found in a ring or in the wheel with the
owner tag that place stands for. While a poll runs, some frames are in its hands: the ledger
together with these is kept in agreement with the allocator's tags, and the names in it stay the
same. A push that finds the ring full leaves its frame in no place; these are the lost entries.
-/

namespace ChronosX

open Ledger

abbrev Entry := UInt64 × FrameOwner

/-- The address at which a frame starts. -/
def UmemShape.address (shape : UmemShape) (i : Fin shape.frameCount) : UInt64 :=
  (shape.handle i).address

/-- A frame lies in the UMEM. -/
lemma UmemShape.address_add_le (shape : UmemShape) (i : Fin shape.frameCount) {n : ℕ}
    (h : n ≤ shape.frameSize.toNat) :
    (shape.address i).toNat + n ≤ shape.umemSizeBytes.toNat := by
  rw [umemSizeBytes_toNat, address, handle_address]
  calc i.val * shape.frameSize.toNat + n
      ≤ i.val * shape.frameSize.toNat + shape.frameSize.toNat := Nat.add_le_add_left h _
    _ = (i.val + 1) * shape.frameSize.toNat := (Nat.succ_mul _ _).symm
    _ ≤ shape.frameCount * shape.frameSize.toNat := Nat.mul_le_mul_right _ i.isLt

namespace AfXdpRuntimeAdapter

variable {shape : RuntimeShape}

/-- The frame addresses in the rings and the wheel, with the tag each place stands for. -/
def ledger (a : AfXdpRuntimeAdapter shape) : Multiset Entry :=
  tagged .fillRing (a.socket.fillRing.toList : Multiset UInt64) +
  tagged .fillRing (a.socket.rxRing.toList.map (·.address) : Multiset UInt64) +
  tagged .dataPlane (a.timingWheel.pending.map (·.frameAddress)) +
  tagged .txRing (a.socket.txRing.toList.map (·.address) : Multiset UInt64) +
  tagged .txRing (a.socket.completionRing.toList : Multiset UInt64)

/-- The ledger and the entries `rest` held elsewhere agree with the owner tags, and together
they hold the given names. -/
structure Keeps (a : AfXdpRuntimeAdapter shape) (names : Multiset UInt64) (rest : Multiset Entry) :
    Prop where
  agrees : Agrees shape.umem.address a.allocator.owners (a.ledger + rest)
  names_eq : (a.ledger + rest).map Prod.fst = names

end AfXdpRuntimeAdapter

open AfXdpRuntimeAdapter

section

variable {shape : RuntimeShape} {names : Multiset UInt64} {rest : Multiset Entry}

namespace AfXdpRuntimeAdapter.Keeps

variable {a a' : AfXdpRuntimeAdapter shape}

/-- Entries may move between the ledger and the rest. -/
lemma of_eq {rest' : Multiset Entry} (h : a.Keeps names rest)
    (howners : a'.allocator.owners = a.allocator.owners)
    (hentries : a'.ledger + rest' = a.ledger + rest) : a'.Keeps names rest' := by
  constructor
  · rw [howners, hentries]
    exact h.agrees
  · rw [hentries]
    exact h.names_eq

/-- An entry held elsewhere names a frame, tagged as entered. -/
lemma owned {k : UInt64} {t : FrameOwner} (h : a.Keeps names ((k, t) ::ₘ rest)) :
    ∃ i, k = shape.umem.address i ∧ a.allocator.owners i = t :=
  h.agrees.owned (k, t) (by simp)

/-- An entry is retagged, and may move into the ledger. -/
lemma retag {i : Fin shape.umem.frameCount} {t t' : FrameOwner} {rest' : Multiset Entry}
    (h : a.Keeps names ((shape.umem.address i, t) ::ₘ rest))
    (howners : a'.allocator.owners = Function.update a.allocator.owners i t')
    (hentries : a'.ledger + rest' = (shape.umem.address i, t') ::ₘ (a.ledger + rest)) :
    a'.Keeps names rest' := by
  have hcons : a.ledger + (shape.umem.address i, t) ::ₘ rest =
      (shape.umem.address i, t) ::ₘ (a.ledger + rest) := Multiset.add_cons _ _ _
  have hagrees := h.agrees
  have hnames := h.names_eq
  rw [hcons] at hagrees hnames
  constructor
  · rw [howners, hentries]
    exact hagrees.retag t'
  · rw [hentries, Multiset.map_cons, ← hnames, Multiset.map_cons]

end AfXdpRuntimeAdapter.Keeps

/-! ### The allocator's answers -/

lemma UmemShape.handleFromAddress_of_eq {shape : UmemShape} {k : UInt64} {i : Fin shape.frameCount}
    (hk : k = shape.address i) : shape.handleFromAddress k = ⟨shape.handle i, .ok⟩ := by
  rw [hk]
  exact UmemShape.handleFromAddress_address i

namespace FrameAllocator

variable {shape : UmemShape} (al : FrameAllocator shape) (i : Fin shape.frameCount)

lemma ownerOf_handle : al.ownerOf (shape.handle i).index = al.owners i := by
  have hi : (shape.handle i).index.toNat = i :=
    (UmemShape.validateFrame_eq_ok (UmemShape.validateFrame_handle i)).1
  simp only [ownerOf, hi, i.isLt, dif_pos]

/-- A transition from the current owner to one that is not `Free` sets the tag. -/
lemma transition_handle {next : FrameOwner} (hnext : next ≠ .free) :
    al.transition (shape.handle i) (al.owners i) next = (.ok, al.setOwner i next) := by
  simp [transition, hnext]

end FrameAllocator

/-! ### Single pushes -/

/-- The addresses refused so far. -/
def refusedAddresses (log : List PollEvent) : List UInt64 :=
  log.filterMap fun event =>
    match event with
    | .refused address => some address
    | _ => none

/-- From `p` to `p'`, at most `fills` addresses were pushed on the fill ring and `txs` descriptors
on the TX ring; the entries `lost` found no room, and nothing else changed. -/
structure Pushed (p : Poll shape) (fills txs : ℕ) (lost : Multiset Entry) (p' : Poll shape) :
    Prop where
  umem_eq : p'.adapter.umem = p.adapter.umem
  wheel_eq : p'.adapter.timingWheel = p.adapter.timingWheel
  rx_eq : p'.adapter.socket.rxRing = p.adapter.socket.rxRing
  initialized_eq : p'.adapter.initialized = p.adapter.initialized
  ownerFailures_eq : p'.stats.ownerFailures = p.stats.ownerFailures
  dataPlane_eq : p'.stats.dataPlane = p.stats.dataPlane
  fillFailures_eq : p'.stats.fillFailures = p.stats.fillFailures + lost.card
  fill_length : p'.adapter.socket.fillRing.toList.length ≤
    p.adapter.socket.fillRing.toList.length + fills
  tx_length : p'.adapter.socket.txRing.toList.length ≤
    p.adapter.socket.txRing.toList.length + txs
  lost_of_full : lost ≠ 0 →
    shape.socket.fillSize.toNat < p.adapter.socket.fillRing.toList.length + fills ∨
    shape.socket.txSize.toNat < p.adapter.socket.txRing.toList.length + txs
  refused_eq : (refusedAddresses p'.log : Multiset UInt64) =
    refusedAddresses p.log + lost.map Prod.fst

namespace Pushed

variable {p p' p'' : Poll shape} {fills txs fills' txs' : ℕ} {lost lost' : Multiset Entry}

lemma refl (p : Poll shape) : Pushed p 0 0 0 p :=
  ⟨rfl, rfl, rfl, rfl, rfl, rfl, rfl, Nat.le_refl _, Nat.le_refl _, fun h => absurd rfl h,
    by simp⟩

lemma trans (h : Pushed p fills txs lost p') (h' : Pushed p' fills' txs' lost' p'') :
    Pushed p (fills + fills') (txs + txs') (lost + lost') p'' where
  umem_eq := h'.umem_eq.trans h.umem_eq
  wheel_eq := h'.wheel_eq.trans h.wheel_eq
  rx_eq := h'.rx_eq.trans h.rx_eq
  initialized_eq := h'.initialized_eq.trans h.initialized_eq
  ownerFailures_eq := h'.ownerFailures_eq.trans h.ownerFailures_eq
  dataPlane_eq := h'.dataPlane_eq.trans h.dataPlane_eq
  fillFailures_eq := by
    rw [h'.fillFailures_eq, h.fillFailures_eq, Multiset.card_add, Nat.add_assoc]
  fill_length := by
    have := h.fill_length
    have := h'.fill_length
    omega
  tx_length := by
    have := h.tx_length
    have := h'.tx_length
    omega
  lost_of_full := by
    intro hlost
    have hfill := h.fill_length
    have htx := h.tx_length
    by_cases hfirst : lost = 0
    · have hsecond : lost' ≠ 0 := by
        rintro rfl
        exact hlost (by rw [hfirst, add_zero])
      rcases h'.lost_of_full hsecond with hfull | hfull
      · left
        omega
      · right
        omega
    · rcases h.lost_of_full hfirst with hfull | hfull
      · left
        omega
      · right
        omega
  refused_eq := by
    rw [h'.refused_eq, h.refused_eq, Multiset.map_add, add_assoc]

/-- Nothing is lost where both rings have room for every push. -/
lemma lost_eq_zero (h : Pushed p fills txs lost p')
    (hfill : p.adapter.socket.fillRing.toList.length + fills ≤ shape.socket.fillSize.toNat)
    (htx : p.adapter.socket.txRing.toList.length + txs ≤ shape.socket.txSize.toNat) : lost = 0 := by
  by_contra hlost
  rcases h.lost_of_full hlost with hfull | hfull
  · exact absurd hfull (Nat.not_lt.mpr hfill)
  · exact absurd hfull (Nat.not_lt.mpr htx)

end Pushed

/-- `refill_one` on a frame with the expected owner: the address is pushed and the frame tagged
`FillRing`, or the ring is full and the tag is set back. -/
lemma refillOne_cases (p : Poll shape) (i : Fin shape.umem.frameCount) {t : FrameOwner}
    (ht : p.adapter.allocator.owners i = t) (hfree : t ≠ .free) :
    (p.adapter.socket.fillRing.toList.length < shape.socket.fillSize.toNat ∧
      ∃ ring : SimulatedRing UInt64 shape.socket.fillSize,
        ring.toList = p.adapter.socket.fillRing.toList ++ [shape.umem.address i] ∧
        p.refillOne (shape.umem.handle i) t = { p with
          adapter.allocator := p.adapter.allocator.setOwner i .fillRing
          adapter.socket.fillRing := ring
          stats.fillRefilled := p.stats.fillRefilled + 1 }) ∨
    (p.adapter.socket.fillRing.toList.length = shape.socket.fillSize.toNat ∧
      p.refillOne (shape.umem.handle i) t = { p with
        adapter.allocator := (p.adapter.allocator.setOwner i .fillRing).setOwner i t
        stats.fillFailures := p.stats.fillFailures + 1
        log := p.log ++ [.refused (shape.umem.address i)] }) := by
  have htransition := p.adapter.allocator.transition_handle i (show FrameOwner.fillRing ≠ .free by decide)
  rw [ht] at htransition
  have hback := (p.adapter.allocator.setOwner i .fillRing).transition_handle i hfree
  simp only [FrameAllocator.owners_setOwner, Function.update_self] at hback
  rcases p.adapter.socket.fillRing.produce_singleton (shape.umem.address i) with
    ⟨hroom, hone, hlist⟩ | ⟨hfull, hzero⟩
  · refine Or.inl ⟨hroom, _, hlist, ?_⟩
    rw [UmemShape.address] at hone
    simp only [Poll.refillOne, htransition, SimulatedXskSocket.refill, hone, ne_eq,
      not_true_eq_false, if_false, if_true]
    rfl
  · refine Or.inr ⟨hfull, ?_⟩
    rw [UmemShape.address] at hzero
    simp only [Poll.refillOne, htransition, SimulatedXskSocket.refill, hzero, ne_eq,
      not_true_eq_false, if_false, Nat.zero_ne_one, Poll.refuse, hback]
    rfl

/-- The loop body of `submit_tx` on a frame of the pool: the descriptor is pushed and the frame
tagged `TxRing`, or the ring is full and the tag is set back. -/
lemma submitOne_cases (p : Poll shape) (i : Fin shape.umem.frameCount) (frame : ProcessedFrame)
    (hframe : frame.frameAddress = shape.umem.address i)
    (hfree : p.adapter.allocator.owners i ≠ .free) :
    (p.adapter.socket.txRing.toList.length < shape.socket.txSize.toNat ∧
      ∃ ring : SimulatedRing TxDescriptor shape.socket.txSize,
        ring.toList = p.adapter.socket.txRing.toList ++
          [{ address := frame.frameAddress, length := frame.frameLength, options := 0 }] ∧
        p.submitOne frame = { p with
          adapter.allocator := p.adapter.allocator.setOwner i .txRing
          adapter.socket.txRing := ring
          adapter.socket.txKickCount := p.adapter.socket.txKickCount + 1
          stats.txSubmitted := p.stats.txSubmitted + 1
          log := p.log ++ [.submitted
            { address := frame.frameAddress, length := frame.frameLength, options := 0 }
            p.adapter.umem] }) ∨
    (p.adapter.socket.txRing.toList.length = shape.socket.txSize.toNat ∧
      p.submitOne frame = { p with
        adapter.allocator :=
          (p.adapter.allocator.setOwner i .txRing).setOwner i (p.adapter.allocator.owners i)
        stats.fillFailures := p.stats.fillFailures + 1
        log := p.log ++ [.refused (shape.umem.address i)] }) := by
  have hhandle := UmemShape.handleFromAddress_of_eq hframe
  have htransition := p.adapter.allocator.transition_handle i (show FrameOwner.txRing ≠ .free by decide)
  have hback := (p.adapter.allocator.setOwner i .txRing).transition_handle i hfree
  simp only [FrameAllocator.owners_setOwner, Function.update_self] at hback
  rcases p.adapter.socket.txRing.produce_singleton
      { address := frame.frameAddress, length := frame.frameLength, options := 0 } with
    ⟨hroom, hone, hlist⟩ | ⟨hfull, hzero⟩
  · refine Or.inl ⟨hroom, _, hlist, ?_⟩
    simp only [Poll.submitOne, hhandle, FrameAllocation.ok, FrameAllocator.ownerOf_handle,
      htransition, SimulatedXskSocket.submitTx, SimulatedXskSocket.kickTx, hone,
      beq_self_eq_true, Bool.not_true, Bool.false_eq_true, ne_eq, not_true_eq_false, if_false,
      if_true]
  · refine Or.inr ⟨hfull, ?_⟩
    simp only [Poll.submitOne, hhandle, FrameAllocation.ok, FrameAllocator.ownerOf_handle,
      htransition, SimulatedXskSocket.submitTx, hzero, beq_self_eq_true, Bool.not_true,
      Bool.false_eq_true, ne_eq, not_true_eq_false, if_false, Nat.zero_ne_one, Poll.refuse, hback]
    rfl

/-- The frame in hand goes to the fill ring. -/
lemma AfXdpRuntimeAdapter.Keeps.push_fill {a a' : AfXdpRuntimeAdapter shape}
    {i : Fin shape.umem.frameCount} {t : FrameOwner}
    (h : a.Keeps names ((shape.umem.address i, t) ::ₘ rest))
    (howners : a'.allocator.owners = Function.update a.allocator.owners i .fillRing)
    (hfill : a'.socket.fillRing.toList = a.socket.fillRing.toList ++ [shape.umem.address i])
    (hrx : a'.socket.rxRing = a.socket.rxRing) (hwheel : a'.timingWheel = a.timingWheel)
    (htx : a'.socket.txRing = a.socket.txRing)
    (hcompletion : a'.socket.completionRing = a.socket.completionRing) : a'.Keeps names rest := by
  refine h.retag howners ?_
  simp only [ledger, hfill, hrx, hwheel, htx, hcompletion, ← Multiset.coe_add, tagged_add,
    Multiset.coe_singleton, ← Multiset.singleton_add]
  rw [show tagged FrameOwner.fillRing ({shape.umem.address i} : Multiset UInt64) =
    {(shape.umem.address i, .fillRing)} from rfl]
  abel

/-- The frame in hand goes to the TX ring. -/
lemma AfXdpRuntimeAdapter.Keeps.push_tx {a a' : AfXdpRuntimeAdapter shape}
    {i : Fin shape.umem.frameCount} {t : FrameOwner} {d : TxDescriptor}
    (h : a.Keeps names ((shape.umem.address i, t) ::ₘ rest))
    (hd : d.address = shape.umem.address i)
    (howners : a'.allocator.owners = Function.update a.allocator.owners i .txRing)
    (htx : a'.socket.txRing.toList = a.socket.txRing.toList ++ [d])
    (hfill : a'.socket.fillRing = a.socket.fillRing)
    (hrx : a'.socket.rxRing = a.socket.rxRing) (hwheel : a'.timingWheel = a.timingWheel)
    (hcompletion : a'.socket.completionRing = a.socket.completionRing) : a'.Keeps names rest := by
  refine h.retag howners ?_
  simp only [ledger, hfill, hrx, hwheel, htx, hcompletion, List.map_append, ← Multiset.coe_add,
    tagged_add, List.map_cons, List.map_nil, hd, Multiset.coe_singleton, ← Multiset.singleton_add]
  rw [show tagged FrameOwner.txRing ({shape.umem.address i} : Multiset UInt64) =
    {(shape.umem.address i, .txRing)} from rfl]
  abel

/-- Setting a tag and setting it back leaves the tags as they were. -/
lemma owners_setOwner_setOwner {umem : UmemShape} (al : FrameAllocator umem)
    (i : Fin umem.frameCount) (t : FrameOwner) :
    ((al.setOwner i t).setOwner i (al.owners i)).owners = al.owners := by
  simp

/-- One `refill_one` of a frame in hand: it goes to the fill ring, or is lost. -/
lemma refillOne_pushed (p : Poll shape) {i : Fin shape.umem.frameCount} {t : FrameOwner}
    (hfree : t ≠ .free) (h : p.adapter.Keeps names ((shape.umem.address i, t) ::ₘ rest)) :
    ∃ lost, Pushed p 1 0 lost (p.refillOne (shape.umem.handle i) t) ∧
      (p.refillOne (shape.umem.handle i) t).adapter.Keeps names (lost + rest) := by
  have ht : p.adapter.allocator.owners i = t := by
    obtain ⟨j, hj, howner⟩ := h.owned
    rwa [UmemShape.handle_address_inj.mp hj]
  rcases refillOne_cases p i ht hfree with ⟨hroom, ring, hlist, heq⟩ | ⟨hfull, heq⟩
  · rw [heq]
    refine ⟨0, ⟨rfl, rfl, rfl, rfl, rfl, rfl, rfl, ?_, Nat.le_refl _, fun h => absurd rfl h, ?_⟩,
      ?_⟩
    · simp [hlist]
    · simp
    · rw [zero_add]
      exact h.push_fill rfl hlist rfl rfl rfl rfl
  · rw [heq]
    refine ⟨{(shape.umem.address i, t)}, ⟨rfl, rfl, rfl, rfl, rfl, rfl, rfl, ?_,
      Nat.le_refl _, fun _ => ?_, ?_⟩, h.of_eq ?_ ?_⟩
    · simp
    · left
      rw [hfull]
      exact Nat.lt_succ_self _
    · simp [refusedAddresses, ← Multiset.coe_add]
    · subst ht
      exact owners_setOwner_setOwner _ _ _
    · rw [Multiset.singleton_add]
      rfl

/-- One `submit_tx` of a frame in hand: it goes to the TX ring, or is lost. -/
lemma submitOne_pushed (p : Poll shape) (frame : ProcessedFrame) {t : FrameOwner}
    (hfree : t ≠ .free) (h : p.adapter.Keeps names ((frame.frameAddress, t) ::ₘ rest)) :
    ∃ lost, Pushed p 0 1 lost (p.submitOne frame) ∧
      (p.submitOne frame).adapter.Keeps names (lost + rest) := by
  obtain ⟨i, hi, ht⟩ := h.owned
  rcases submitOne_cases p i frame hi (ht.trans_ne hfree) with ⟨hroom, ring, hlist, heq⟩ | ⟨hfull, heq⟩
  · rw [heq]
    rw [hi] at h
    refine ⟨0, ⟨rfl, rfl, rfl, rfl, rfl, rfl, rfl, Nat.le_refl _, ?_, fun h => absurd rfl h, ?_⟩,
      ?_⟩
    · simp [hlist]
    · simp [refusedAddresses]
    · rw [zero_add]
      exact h.push_tx hi rfl hlist rfl rfl rfl rfl
  · rw [heq]
    rw [hi] at h
    refine ⟨{(shape.umem.address i, t)}, ⟨rfl, rfl, rfl, rfl, rfl, rfl, rfl,
      Nat.le_refl _, ?_, fun _ => ?_, ?_⟩, h.of_eq ?_ ?_⟩
    · simp
    · right
      rw [hfull]
      exact Nat.lt_succ_self _
    · simp [refusedAddresses, ← Multiset.coe_add]
    · exact owners_setOwner_setOwner _ _ _
    · rw [Multiset.singleton_add]
      rfl

/-! ### Loops of pushes -/

/-- A loop that pushes the frames in hand one by one. -/
lemma foldl_pushed {α : Type} {f : Poll shape → α → Poll shape} {address : α → UInt64}
    {t : FrameOwner} {fills txs : ℕ}
    (hstep : ∀ (p : Poll shape) (x : α) (rest : Multiset Entry),
      p.adapter.Keeps names ((address x, t) ::ₘ rest) →
        ∃ lost, Pushed p fills txs lost (f p x) ∧ (f p x).adapter.Keeps names (lost + rest))
    (l : List α) (p : Poll shape)
    (h : p.adapter.Keeps names (tagged t (l.map address : Multiset UInt64) + rest)) :
    ∃ lost, Pushed p (l.length * fills) (l.length * txs) lost (l.foldl f p) ∧
      (l.foldl f p).adapter.Keeps names (lost + rest) := by
  induction l generalizing p rest with
  | nil => exact ⟨0, by simpa using Pushed.refl p, by simpa using h⟩
  | cons x l ih =>
    rw [List.map_cons, ← Multiset.cons_coe, tagged_cons, Multiset.cons_add] at h
    obtain ⟨lost, hpushed, hkeeps⟩ := hstep p x _ h
    rw [add_left_comm] at hkeeps
    obtain ⟨lost', hpushed', hkeeps'⟩ := ih (f p x) hkeeps
    refine ⟨lost + lost', ?_, ?_⟩
    · have htrans := hpushed.trans hpushed'
      simp only [List.length_cons, Nat.succ_mul]
      rwa [Nat.add_comm (l.length * fills), Nat.add_comm (l.length * txs)]
    · rwa [add_comm lost, add_assoc]

end

end ChronosX
