import ChronosX.Runtime.TurnAround

/-!
# What a poll moves

When the rings have room, each part of `poll_once` appends to the rings exactly the frames in its
hands, in order. The stages are put together to the rings, the submissions and the statistics after a
whole poll.
-/

namespace ChronosX

open Ledger Mem AfXdpRuntimeAdapter Host

variable {shape : RuntimeShape} {names : Multiset UInt64} {rest : Multiset Entry}

/-- From `p` to `p'` the addresses `fills` were put on the fill ring and the descriptors `txs` on
the TX ring. -/
structure Moved (p : Poll shape) (fills : List UInt64) (txs : List TxDescriptor) (p' : Poll shape) :
    Prop where
  fill_eq : p'.adapter.socket.fillRing.toList = p.adapter.socket.fillRing.toList ++ fills
  tx_eq : p'.adapter.socket.txRing.toList = p.adapter.socket.txRing.toList ++ txs
  completion_eq : p'.adapter.socket.completionRing = p.adapter.socket.completionRing
  umem_eq : p'.adapter.umem = p.adapter.umem
  stats_eq : p'.stats = { p.stats with
    txSubmitted := p.stats.txSubmitted + txs.length
    fillRefilled := p.stats.fillRefilled + fills.length }
  submissions_eq : submissions p'.log = submissions p.log ++ txs.map (·, p.adapter.umem)

/-- The rings have room for so many frames. -/
def Poll.HasRoom (p : Poll shape) (fills txs : ℕ) : Prop :=
  p.adapter.socket.fillRing.toList.length + fills ≤ shape.socket.fillSize.toNat ∧
    p.adapter.socket.txRing.toList.length + txs ≤ shape.socket.txSize.toNat

namespace Moved

variable {p p' p'' : Poll shape} {fills fills' : List UInt64} {txs txs' : List TxDescriptor}

lemma refl (p : Poll shape) : Moved p [] [] p := by
  refine ⟨?_, ?_, rfl, rfl, rfl, ?_⟩
  · rw [List.append_nil]
  · rw [List.append_nil]
  · rw [List.map_nil, List.append_nil]

lemma trans (h : Moved p fills txs p') (h' : Moved p' fills' txs' p'') :
    Moved p (fills ++ fills') (txs ++ txs') p'' where
  fill_eq := by rw [h'.fill_eq, h.fill_eq, List.append_assoc]
  tx_eq := by rw [h'.tx_eq, h.tx_eq, List.append_assoc]
  completion_eq := h'.completion_eq.trans h.completion_eq
  umem_eq := h'.umem_eq.trans h.umem_eq
  stats_eq := by
    rw [h'.stats_eq, h.stats_eq, List.length_append, List.length_append, Nat.add_assoc,
      Nat.add_assoc]
  submissions_eq := by
    rw [h'.submissions_eq, h.submissions_eq, h.umem_eq, List.map_append, List.append_assoc]

/-- What room is left. -/
lemma hasRoom (h : Moved p fills txs p') {n k : ℕ}
    (hroom : p.HasRoom (fills.length + n) (txs.length + k)) : p'.HasRoom n k := by
  rw [Poll.HasRoom, h.fill_eq, h.tx_eq, List.length_append, List.length_append, Nat.add_assoc,
    Nat.add_assoc]
  exact hroom

end Moved

/-! ### Single frames -/

/-- One `refill_one` of a frame in hand. -/
lemma refillOne_moved (p : Poll shape) {i : Fin shape.umem.frameCount} {t : FrameOwner}
    (hfree : t ≠ .free) (h : p.adapter.Keeps names ((shape.umem.address i, t) ::ₘ rest))
    (hroom : p.HasRoom 1 0) :
    Moved p [shape.umem.address i] [] (p.refillOne (shape.umem.handle i) t) ∧
      (p.refillOne (shape.umem.handle i) t).adapter.Keeps names rest := by
  have ht : p.adapter.allocator.owners i = t := by
    obtain ⟨j, hj, howner⟩ := h.owned
    rwa [UmemShape.handle_address_inj.mp hj]
  rcases refillOne_cases p i ht hfree with ⟨-, ring, hlist, heq⟩ | ⟨hfull, -⟩
  · rw [heq]
    refine ⟨⟨hlist, ?_, rfl, rfl, rfl, ?_⟩, h.push_fill rfl hlist rfl rfl rfl rfl⟩
    · rw [List.append_nil]
    · rw [List.map_nil, List.append_nil]
  · exact absurd hroom.1 (by rw [hfull]; exact Nat.not_succ_le_self _)

/-- One `submit_tx` of a frame in hand. -/
lemma submitOne_moved (p : Poll shape) (frame : ProcessedFrame) {t : FrameOwner} (hfree : t ≠ .free)
    (h : p.adapter.Keeps names ((frame.frameAddress, t) ::ₘ rest)) (hroom : p.HasRoom 0 1) :
    Moved p [] [txDescriptor frame.frameAddress frame.frameLength] (p.submitOne frame) ∧
      (p.submitOne frame).adapter.Keeps names rest := by
  obtain ⟨i, hi, ht⟩ := h.owned
  rcases submitOne_cases p i frame hi (ht.trans_ne hfree) with ⟨-, ring, hlist, heq⟩ | ⟨hfull, -⟩
  · rw [heq]
    rw [hi] at h
    refine ⟨⟨?_, hlist, rfl, rfl, rfl, ?_⟩, h.push_tx hi rfl hlist rfl rfl rfl rfl⟩
    · rw [List.append_nil]
    · rw [submissions_append]
      rfl
  · exact absurd hroom.2 (by rw [hfull]; exact Nat.not_succ_le_self _)

/-! ### Loops -/

/-- A loop that moves the frames in hand one by one. -/
lemma foldl_moved {α : Type} {f : Poll shape → α → Poll shape} {address : α → UInt64}
    {t : FrameOwner} (fills : α → List UInt64) (txs : α → List TxDescriptor)
    (hstep : ∀ (p : Poll shape) (x : α) (rest : Multiset Entry),
      p.adapter.Keeps names ((address x, t) ::ₘ rest) →
      p.HasRoom (fills x).length (txs x).length →
        Moved p (fills x) (txs x) (f p x) ∧ (f p x).adapter.Keeps names rest)
    (l : List α) (p : Poll shape)
    (h : p.adapter.Keeps names (tagged t (l.map address : Multiset UInt64) + rest))
    (hroom : p.HasRoom (l.flatMap fills).length (l.flatMap txs).length) :
    Moved p (l.flatMap fills) (l.flatMap txs) (l.foldl f p) ∧
      (l.foldl f p).adapter.Keeps names rest := by
  induction l generalizing p with
  | nil => exact ⟨.refl p, by simpa using h⟩
  | cons x l ih =>
    rw [List.map_cons, ← Multiset.cons_coe, tagged_cons, Multiset.cons_add] at h
    rw [List.flatMap_cons, List.flatMap_cons, List.length_append, List.length_append] at hroom
    obtain ⟨hfirst, hkeeps⟩ := hstep p x _ h
      ⟨Nat.le_trans (Nat.add_le_add_left (Nat.le_add_right _ _) _) hroom.1,
        Nat.le_trans (Nat.add_le_add_left (Nat.le_add_right _ _) _) hroom.2⟩
    obtain ⟨hmoved, hrest⟩ := ih (f p x) hkeeps (hfirst.hasRoom hroom)
    exact ⟨hfirst.trans hmoved, hrest⟩

/-- A loop that puts the frames in hand on the fill ring. -/
lemma foldl_filled {α : Type} {f : Poll shape → α → Poll shape} {address : α → UInt64}
    {t : FrameOwner} (hstep : ∀ (p : Poll shape) (x : α) (rest : Multiset Entry),
      p.adapter.Keeps names ((address x, t) ::ₘ rest) → p.HasRoom 1 0 →
        Moved p [address x] [] (f p x) ∧ (f p x).adapter.Keeps names rest)
    (l : List α) (p : Poll shape)
    (h : p.adapter.Keeps names (tagged t (l.map address : Multiset UInt64) + rest))
    (hroom : p.HasRoom l.length 0) :
    Moved p (l.map address) [] (l.foldl f p) ∧ (l.foldl f p).adapter.Keeps names rest := by
  have hmoved := foldl_moved (fun x => [address x]) (fun _ => []) hstep l p h
  have hnone : l.flatMap (fun _ => ([] : List TxDescriptor)) = [] :=
    List.flatMap_eq_nil_iff.mpr fun _ _ => rfl
  rw [hnone, ← List.map_eq_flatMap, List.length_map] at hmoved
  exact hmoved hroom

/-- A loop that puts the frames in hand on the TX ring. -/
lemma foldl_submitted {α : Type} {f : Poll shape → α → Poll shape} {address : α → UInt64}
    {t : FrameOwner} {tx : α → TxDescriptor}
    (hstep : ∀ (p : Poll shape) (x : α) (rest : Multiset Entry),
      p.adapter.Keeps names ((address x, t) ::ₘ rest) → p.HasRoom 0 1 →
        Moved p [] [tx x] (f p x) ∧ (f p x).adapter.Keeps names rest)
    (l : List α) (p : Poll shape)
    (h : p.adapter.Keeps names (tagged t (l.map address : Multiset UInt64) + rest))
    (hroom : p.HasRoom 0 l.length) :
    Moved p [] (l.map tx) (l.foldl f p) ∧ (l.foldl f p).adapter.Keeps names rest := by
  have hmoved := foldl_moved (fun _ => []) (fun x => [tx x]) hstep l p h
  have hnone : l.flatMap (fun _ => ([] : List UInt64)) = [] :=
    List.flatMap_eq_nil_iff.mpr fun _ _ => rfl
  rw [hnone, ← List.map_eq_flatMap, List.length_map] at hmoved
  exact hmoved hroom

/-! ### The stages -/

/-- The completed frames that a poll takes back. -/
def AfXdpRuntimeAdapter.completed (a : AfXdpRuntimeAdapter shape) : List UInt64 :=
  a.socket.completionRing.toList.take kDataPlaneBatchSize

/-- The poll after the completion ring has been read. -/
def Poll.drained (p : Poll shape) : Poll shape :=
  { p with
    adapter.socket := (p.adapter.socket.drainCompletions kDataPlaneBatchSize).2.2
    stats.txCompleted := p.stats.txCompleted + p.adapter.completed.length }

/-- The poll after the tick of the wheel. -/
def Poll.ticked (p : Poll shape) : Poll shape :=
  { p with adapter.timingWheel := p.adapter.timingWheel.tick.2 }

/-- What reading the two rings and the tick leave as it was. -/
structure Poll.SameRings (p p' : Poll shape) : Prop where
  fillRing_eq : p'.adapter.socket.fillRing = p.adapter.socket.fillRing
  txRing_eq : p'.adapter.socket.txRing = p.adapter.socket.txRing
  umem_eq : p'.adapter.umem = p.adapter.umem
  log_eq : p'.log = p.log

lemma Poll.sameRings_ticked (p : Poll shape) : p.SameRings p.drained.ticked :=
  ⟨rfl, rfl, rfl, rfl⟩

lemma Poll.sameRings_consumed (p : Poll shape) : p.SameRings p.consumed := ⟨rfl, rfl, rfl, rfl⟩

lemma Poll.consumed_completionRing (p : Poll shape) :
    p.consumed.adapter.socket.completionRing = p.adapter.socket.completionRing := rfl

lemma Poll.consumed_stats (p : Poll shape) : p.consumed.stats = { p.stats with
    rxFrames := p.adapter.received.length } := by
  rw [AfXdpRuntimeAdapter.received, ← (p.adapter.socket.rxRing.consume_spec kDataPlaneBatchSize).1]
  rfl

lemma Poll.ticked_stats (p : Poll shape) : p.drained.ticked.stats = { p.stats with
    txCompleted := p.stats.txCompleted + p.adapter.completed.length } := rfl

lemma Poll.ticked_completionRing (p : Poll shape) :
    p.drained.ticked.adapter.socket.completionRing.toList =
      p.adapter.socket.completionRing.toList.drop kDataPlaneBatchSize :=
  (p.adapter.socket.completionRing.consume_spec kDataPlaneBatchSize).2

lemma Poll.processed_stats (p : Poll shape) (rules : List ChaosRule) (ds : List PacketDescriptor) :
    (p.processed rules ds).stats = { p.stats with
      dataPlane := (p.batch rules ds).1.result.stats } := rfl

lemma Poll.drainCompletions_eq (p : Poll shape) :
    p.drainCompletions = p.adapter.completed.foldl Poll.drainOne p.drained := by
  have htake := (p.adapter.socket.completionRing.consume_spec kDataPlaneBatchSize).1
  rw [Poll.drained, completed, ← htake]
  rfl

lemma drainOne_moved (p : Poll shape) (k : UInt64) (rest : Multiset Entry)
    (h : p.adapter.Keeps names ((k, .txRing) ::ₘ rest)) (hroom : p.HasRoom 1 0) :
    Moved p [k] [] (p.drainOne k) ∧ (p.drainOne k).adapter.Keeps names rest := by
  obtain ⟨i, rfl, -⟩ := h.owned
  have heq : p.drainOne (shape.umem.address i) = p.refillOne (shape.umem.handle i) .txRing := by
    simp [Poll.drainOne, UmemShape.handleFromAddress_of_eq rfl, FrameAllocation.ok]
  rw [heq]
  exact refillOne_moved p (by decide) h hroom

/-- `drain_completions` moves the completed frames to the fill ring. -/
lemma drainCompletions_moved (p : Poll shape) (h : p.adapter.Keeps names rest)
    (hroom : p.HasRoom p.adapter.completed.length 0) :
    Moved p.drained p.adapter.completed [] p.drainCompletions ∧
      p.drainCompletions.adapter.Keeps names rest := by
  have hkeeps := keeps_drained h kDataPlaneBatchSize
  rw [← List.map_id (List.take _ _)] at hkeeps
  have hmoved := foldl_filled drainOne_moved p.adapter.completed p.drained hkeeps hroom
  rwa [List.map_id', ← p.drainCompletions_eq] at hmoved

/-- `release_delayed` moves the expired frames to the TX ring. -/
lemma releaseDelayed_moved (p : Poll shape) (h : p.adapter.Keeps names rest)
    (hroom : p.HasRoom 0 p.adapter.timingWheel.tick.1.length) :
    Moved p.ticked [] (p.adapter.timingWheel.tick.1.map fun frame =>
        txDescriptor frame.frameAddress frame.frameLength) p.releaseDelayed ∧
      p.releaseDelayed.adapter.Keeps names rest := by
  have hstep : ∀ (p : Poll shape) (frame : DelayedFrame) (rest : Multiset Entry),
      p.adapter.Keeps names ((frame.frameAddress, .dataPlane) ::ₘ rest) → p.HasRoom 0 1 →
        Moved p [] [txDescriptor frame.frameAddress frame.frameLength]
            (p.submitTx [Poll.expiredFrame frame]) ∧
          (p.submitTx [Poll.expiredFrame frame]).adapter.Keeps names rest :=
    fun p frame rest h hroom => submitOne_moved p (Poll.expiredFrame frame) (by decide) h hroom
  exact foldl_submitted hstep p.adapter.timingWheel.tick.1 p.ticked (keeps_ticked h) hroom

/-- Nothing is submitted while the RX ring is read. -/
lemma submissions_receive (p : Poll shape) : submissions p.receive.2.log = submissions p.log := by
  have hstep : ∀ (acc : List PacketDescriptor × Poll shape) (rx : RxDescriptor),
      submissions (Poll.receiveOne acc rx).2.log = submissions acc.2.log := by
    rintro ⟨ds, p⟩ rx
    simp only [Poll.receiveOne]
    split_ifs <;> exact (submissions_append _ _).trans (List.append_nil _)
  have hloop : ∀ (l : List RxDescriptor) (acc : List PacketDescriptor × Poll shape),
      submissions (l.foldl Poll.receiveOne acc).2.log = submissions acc.2.log := by
    intro l
    induction l with
    | nil => exact fun _ => rfl
    | cons rx l ih => exact fun acc => (ih _).trans (hstep acc rx)
  rw [Poll.receive_eq]
  exact hloop _ _

lemma submitTx_moved (p : Poll shape) (l : List ProcessedFrame)
    (h : p.adapter.Keeps names (tagged .dataPlane (l.map (·.frameAddress) : Multiset UInt64) + rest))
    (hroom : p.HasRoom 0 l.length) :
    Moved p [] (l.map fun frame => txDescriptor frame.frameAddress frame.frameLength)
        (p.submitTx l) ∧
      (p.submitTx l).adapter.Keeps names rest :=
  foldl_submitted (fun p frame _ h hroom => submitOne_moved p frame (by decide) h hroom) l p h hroom

lemma recycleOne_moved (p : Poll shape) (frame : ProcessedFrame) (rest : Multiset Entry)
    (h : p.adapter.Keeps names ((frame.frameAddress, .dataPlane) ::ₘ rest)) (hroom : p.HasRoom 1 0) :
    Moved p [frame.frameAddress] [] (p.recycleOne frame) ∧
      (p.recycleOne frame).adapter.Keeps names rest := by
  obtain ⟨i, hi, -⟩ := h.owned
  have heq : p.recycleOne frame = p.refillOne (shape.umem.handle i) .dataPlane := by
    simp [Poll.recycleOne, UmemShape.handleFromAddress_of_eq hi, FrameAllocation.ok]
  rw [heq, hi]
  rw [hi] at h
  exact refillOne_moved p (by decide) h hroom

lemma refillRecycled_moved (p : Poll shape) (l : List ProcessedFrame)
    (h : p.adapter.Keeps names (tagged .dataPlane (l.map (·.frameAddress) : Multiset UInt64) + rest))
    (hroom : p.HasRoom l.length 0) :
    Moved p (l.map (·.frameAddress)) [] (p.refillRecycled l) ∧
      (p.refillRecycled l).adapter.Keeps names rest :=
  foldl_filled recycleOne_moved l p h hroom

/-! ### The whole poll -/

namespace AfXdpRuntimeAdapter

/-- What a poll that finds room moves, submits and reports. -/
structure Moves (a : AfXdpRuntimeAdapter shape) (rules : List ChaosRule) : Prop where
  fill_eq : (a.pollOnce rules).2.adapter.socket.fillRing.toList =
    a.socket.fillRing.toList ++ a.completed ++ (a.plane rules).1.recycle.map (·.frameAddress)
  tx_eq : (a.pollOnce rules).2.adapter.socket.txRing.toList =
    a.socket.txRing.toList ++ a.timingWheel.tick.1.map (fun frame =>
      txDescriptor frame.frameAddress frame.frameLength) ++ (a.plane rules).1.tx.map fun frame =>
        txDescriptor frame.frameAddress frame.frameLength
  completion_eq : (a.pollOnce rules).2.adapter.socket.completionRing.toList =
    a.socket.completionRing.toList.drop kDataPlaneBatchSize
  submissions_eq : submissions (a.pollOnce rules).2.log =
    a.timingWheel.tick.1.map (fun frame =>
      (txDescriptor frame.frameAddress frame.frameLength, a.umem)) ++
    (a.plane rules).1.tx.map fun frame =>
      (txDescriptor frame.frameAddress frame.frameLength, (a.plane rules).2)
  stats_eq : (a.pollOnce rules).2.stats =
    { rxFrames := a.received.length
      txSubmitted := a.timingWheel.tick.1.length + (a.plane rules).1.tx.length
      txCompleted := a.completed.length
      fillRefilled := a.completed.length + (a.plane rules).1.recycle.length
      dataPlane := (a.plane rules).1.result.stats }

/-- The poll up to the RX ring. -/
lemma atReceive_moved {a : AfXdpRuntimeAdapter shape} (h : a.Keeps names rest) (hroom : a.Room) :
    Moved (Poll.drained { adapter := a }).ticked a.completed
      (a.timingWheel.tick.1.map fun frame => txDescriptor frame.frameAddress frame.frameLength)
      a.atReceive ∧ a.atReceive.adapter.Keeps names rest := by
  obtain ⟨hfill, htx⟩ := hroom
  have hlength : a.completed.length =
      min kDataPlaneBatchSize a.socket.completionRing.toList.length := List.length_take
  obtain ⟨hdrained, hkeeps⟩ := drainCompletions_moved ({ adapter := a } : Poll shape) h
    ⟨by rw [hlength]; exact Nat.le_trans (Nat.le_add_right _ _) hfill,
      Nat.le_trans (Nat.le_add_right _ _) (Nat.le_trans (Nat.le_add_right _ _) htx)⟩
  obtain ⟨lost, hpushed, -⟩ := drainCompletions_pushed ({ adapter := a } : Poll shape) h
  have hwheel : (Poll.drainCompletions { adapter := a }).adapter.timingWheel = a.timingWheel :=
    hpushed.wheel_eq
  obtain ⟨hreleased, hkeeps'⟩ := releaseDelayed_moved _ hkeeps (hdrained.hasRoom ⟨by
    rw [Nat.add_zero, hlength]
    exact Nat.le_trans (Nat.le_add_right _ _) hfill, by
    rw [List.length_nil, Nat.zero_add, hwheel]
    exact Nat.le_trans (Nat.le_add_right _ _) htx⟩)
  rw [hwheel] at hreleased
  have hticked : Moved (Poll.drained { adapter := a }).ticked a.completed []
      (Poll.drainCompletions { adapter := a }).ticked :=
    ⟨hdrained.fill_eq, hdrained.tx_eq, hdrained.completion_eq, hdrained.umem_eq, hdrained.stats_eq,
      hdrained.submissions_eq⟩
  have htrans := hticked.trans hreleased
  rw [List.append_nil, List.nil_append] at htrans
  exact ⟨htrans, hkeeps'⟩

/-- The poll when the data plane has run: the rings are those of the poll that read the RX ring. -/
structure AtTransmit (a : AfXdpRuntimeAdapter shape) (rules : List ChaosRule) : Prop where
  fillRing_eq : (a.atTransmit rules).adapter.socket.fillRing = a.atReceive.adapter.socket.fillRing
  txRing_eq : (a.atTransmit rules).adapter.socket.txRing = a.atReceive.adapter.socket.txRing
  completionRing_eq : (a.atTransmit rules).adapter.socket.completionRing =
    a.atReceive.adapter.socket.completionRing
  submissions_eq : submissions (a.atTransmit rules).log = submissions a.atReceive.log
  stats_eq : (a.atTransmit rules).stats = { a.atReceive.stats with
    rxFrames := a.received.length
    dataPlane := (a.plane rules).1.result.stats }

lemma atTransmit_same {a : AfXdpRuntimeAdapter shape} (h : a.Keeps names rest) (hroom : a.Room)
    (rules : List ChaosRule) : a.AtTransmit rules := by
  obtain ⟨lost, ht⟩ := transmitting h rules
  obtain ⟨lost', hpushed, -⟩ := atReceive_pushed h
  obtain ⟨-, hkeeps⟩ := atReceive_moved h hroom
  obtain ⟨p, hreceive, hsame, -⟩ := receive_retagged a.atReceive hkeeps
  have hsnd : a.atReceive.receive.2 = p := by rw [hreceive]
  have hsocket : (a.atTransmit rules).adapter.socket = a.atReceive.consumed.adapter.socket := by
    rw [atTransmit, Poll.processed_socket, hsnd, hsame.socket_eq]
  have hreceived : a.atReceive.adapter.received = a.received := by
    rw [received, hpushed.rx_eq]
    rfl
  have hconsumed := a.atReceive.sameRings_consumed
  constructor
  · rw [hsocket, hconsumed.fillRing_eq]
  · rw [hsocket, hconsumed.txRing_eq]
  · rw [hsocket, Poll.consumed_completionRing]
  · rw [atTransmit, Poll.processed_log, submissions_receive]
  · rw [← ht.plane_eq, atTransmit, Poll.processed_stats, hsnd, hsame.stats_eq, Poll.consumed_stats,
      hreceived, batchOf, hsnd]

/-- A poll that finds room in the rings. -/
lemma moves {a : AfXdpRuntimeAdapter shape} (hinit : a.initialized = true) (h : a.Keeps names rest)
    (hroom : a.Room) (rules : List ChaosRule) : a.Moves rules := by
  obtain ⟨lost, ht⟩ := transmitting h rules
  obtain ⟨hreceive, -⟩ := atReceive_moved h hroom
  have hsame := atTransmit_same h hroom rules
  have hkeeps := ht.keeps
  rw [ht.room hroom, zero_add] at hkeeps
  have hfill := ht.fillRing_length
  have htx := ht.txRing_length
  have hsent := ht.tx_length
  have hreturned := ht.recycle_length
  obtain ⟨hroomFill, hroomTx⟩ := hroom
  obtain ⟨hsubmitted, hkeeps₁⟩ := submitTx_moved _ _ hkeeps ⟨by omega, by omega⟩
  obtain ⟨hrecycled, -⟩ := refillRecycled_moved _ _ hkeeps₁
    (hsubmitted.hasRoom ⟨by rw [List.length_nil]; omega, by rw [List.length_map]; omega⟩)
  have hmoved := hsubmitted.trans hrecycled
  rw [List.nil_append, List.append_nil, ← pollOnce_snd hinit rules, ht.plane_eq] at hmoved
  have hticked := Poll.sameRings_ticked { adapter := a }
  constructor
  · rw [hmoved.fill_eq, hsame.fillRing_eq, hreceive.fill_eq, hticked.fillRing_eq]
  · rw [hmoved.tx_eq, hsame.txRing_eq, hreceive.tx_eq, hticked.txRing_eq]
  · rw [hmoved.completion_eq, hsame.completionRing_eq, hreceive.completion_eq,
      Poll.ticked_completionRing]
  · rw [hmoved.submissions_eq, hsame.submissions_eq, hreceive.submissions_eq, ht.umem_eq,
      hticked.umem_eq, hticked.log_eq, List.map_map, List.map_map]
    rfl
  · rw [hmoved.stats_eq, hsame.stats_eq, hreceive.stats_eq, Poll.ticked_stats, List.length_map,
      List.length_map, List.length_map]
    simp

end AfXdpRuntimeAdapter

end ChronosX
