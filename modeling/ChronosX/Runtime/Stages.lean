import ChronosX.Runtime.Custody
import ChronosX.DataPlane.Accounting

/-!
# The stages of a poll

What each part of `poll_once` does to the frames in custody, from any state in which the ledger
agrees with the owner tags.
-/

namespace ChronosX

open Ledger Mem AfXdpRuntimeAdapter

variable {shape : RuntimeShape} {names : Multiset UInt64} {rest : Multiset Entry}

/-! ### Completions and expired frames -/

/-- The completed frames leave the completion ring. -/
lemma keeps_drained {p : Poll shape} (h : p.adapter.Keeps names rest) (size : ℕ) :
    Keeps { p.adapter with socket := (p.adapter.socket.drainCompletions size).2.2 } names
      (tagged .txRing (p.adapter.socket.completionRing.toList.take size : Multiset UInt64) +
        rest) := by
  refine h.of_eq rfl ?_
  obtain ⟨-, hdrop⟩ := p.adapter.socket.completionRing.consume_spec size
  have hsplit : (p.adapter.socket.completionRing.toList : Multiset UInt64) =
      (p.adapter.socket.completionRing.toList.take size : Multiset UInt64) +
        (p.adapter.socket.completionRing.toList.drop size : Multiset UInt64) := by
    rw [Multiset.coe_add, List.take_append_drop]
  simp only [ledger, SimulatedXskSocket.drainCompletions, hdrop]
  conv_rhs => rw [hsplit]
  rw [tagged_add]
  abel

lemma drainOne_pushed (p : Poll shape) (k : UInt64) (rest : Multiset Entry)
    (h : p.adapter.Keeps names ((k, .txRing) ::ₘ rest)) :
    ∃ lost, Pushed p 1 0 lost (p.drainOne k) ∧
      (p.drainOne k).adapter.Keeps names (lost + rest) := by
  obtain ⟨i, rfl, -⟩ := h.owned
  have heq : p.drainOne (shape.umem.address i) = p.refillOne (shape.umem.handle i) .txRing := by
    simp [Poll.drainOne, UmemShape.handleFromAddress_of_eq rfl, FrameAllocation.ok]
  rw [heq]
  exact refillOne_pushed p (by decide) h

/-- `drain_completions` moves the completed frames to the fill ring. -/
lemma drainCompletions_pushed (p : Poll shape) (h : p.adapter.Keeps names rest) :
    ∃ lost, Pushed p (min kDataPlaneBatchSize p.adapter.socket.completionRing.toList.length) 0 lost
        p.drainCompletions ∧
      p.drainCompletions.adapter.Keeps names (lost + rest) := by
  obtain ⟨htake, -⟩ := p.adapter.socket.completionRing.consume_spec kDataPlaneBatchSize
  have hlength := congrArg List.length htake
  rw [List.length_take] at hlength
  have hkeeps := keeps_drained h kDataPlaneBatchSize
  rw [← htake, ← List.map_id (p.adapter.socket.completionRing.consume kDataPlaneBatchSize).1]
    at hkeeps
  obtain ⟨lost, hpushed, hkeeps'⟩ := foldl_pushed drainOne_pushed _ { p with
    adapter.socket := (p.adapter.socket.drainCompletions kDataPlaneBatchSize).2.2
    stats.txCompleted := p.stats.txCompleted +
      (p.adapter.socket.drainCompletions kDataPlaneBatchSize).2.1.count } hkeeps
  refine ⟨lost, ?_, hkeeps'⟩
  rw [Nat.mul_one, Nat.mul_zero, hlength] at hpushed
  exact ⟨hpushed.umem_eq, hpushed.wheel_eq, hpushed.rx_eq, hpushed.initialized_eq,
    hpushed.ownerFailures_eq, hpushed.dataPlane_eq, hpushed.fillFailures_eq, hpushed.fill_length,
    hpushed.tx_length, hpushed.lost_of_full, hpushed.refused_eq⟩

/-- The expired frames leave the wheel. -/
lemma keeps_ticked {p : Poll shape} (h : p.adapter.Keeps names rest) :
    Keeps { p.adapter with timingWheel := p.adapter.timingWheel.tick.2 } names
      (tagged .dataPlane (p.adapter.timingWheel.tick.1.map (·.frameAddress) : Multiset UInt64) +
        rest) := by
  refine h.of_eq rfl ?_
  simp only [ledger]
  conv_rhs => rw [p.adapter.timingWheel.pending_tick]
  rw [Multiset.map_add, tagged_add, Multiset.map_coe]
  abel

/-- `release_delayed` moves the expired frames to the TX ring. -/
lemma releaseDelayed_pushed (p : Poll shape) (h : p.adapter.Keeps names rest) :
    ∃ lost, Pushed { p with adapter.timingWheel := p.adapter.timingWheel.tick.2 } 0
        p.adapter.timingWheel.tick.1.length lost p.releaseDelayed ∧
      p.releaseDelayed.adapter.Keeps names (lost + rest) := by
  have hstep : ∀ (p : Poll shape) (frame : DelayedFrame) (rest : Multiset Entry),
      p.adapter.Keeps names ((frame.frameAddress, .dataPlane) ::ₘ rest) →
        ∃ lost, Pushed p 0 1 lost (p.submitTx [Poll.expiredFrame frame]) ∧
          (p.submitTx [Poll.expiredFrame frame]).adapter.Keeps names (lost + rest) :=
    fun p frame rest h => submitOne_pushed p (Poll.expiredFrame frame) (by decide) h
  obtain ⟨lost, hpushed, hkeeps⟩ := foldl_pushed hstep p.adapter.timingWheel.tick.1
    { p with adapter.timingWheel := p.adapter.timingWheel.tick.2 } (keeps_ticked h)
  rw [Nat.mul_zero, Nat.mul_one] at hpushed
  exact ⟨lost, hpushed, hkeeps⟩

/-! ### Receiving -/

/-- The loop body on the address of a frame: the frame is tagged `DataPlane` whatever its owner
is, and its descriptor is handed on. -/
lemma receiveOne_valid (ds : List PacketDescriptor) (p : Poll shape) (rx : RxDescriptor)
    {i : Fin shape.umem.frameCount} (hi : rx.address = shape.umem.address i) :
    Poll.receiveOne (ds, p) rx = (ds ++ [Poll.packetDescriptor rx], { p with
      adapter.allocator := p.adapter.allocator.setOwner i .dataPlane
      log := p.log ++ [.handed (Poll.packetDescriptor rx) (p.adapter.allocator.owners i)] }) := by
  have hhandle := UmemShape.handleFromAddress_of_eq hi
  have htransition := p.adapter.allocator.transition_handle i
    (show FrameOwner.dataPlane ≠ .free by decide)
  simp only [Poll.receiveOne, hhandle, FrameAllocation.ok, FrameAllocator.ownerOf_handle,
    htransition, beq_self_eq_true, Bool.not_true, Bool.false_eq_true, ne_eq, not_true_eq_false,
    if_false]

/-- The loop body on any other address: the descriptor is counted and nothing is touched. -/
lemma receiveOne_invalid (ds : List PacketDescriptor) (p : Poll shape) (rx : RxDescriptor)
    (h : ∀ i, rx.address ≠ shape.umem.address i) :
    Poll.receiveOne (ds, p) rx =
      (ds, { p.countOwnerFailure with log := p.log ++ [.rejected rx] }) := by
  have hbad : (shape.umem.handleFromAddress rx.address).ok = false := by
    rw [FrameAllocation.ok, beq_eq_false_iff_ne]
    intro hok
    obtain ⟨i, hi, -⟩ := UmemShape.handleFromAddress_eq_ok hok
    exact h i hi
  simp only [Poll.receiveOne, hbad, Bool.not_false, if_true]

/-- From `p` to `p'` only owner tags have changed, and the log has no new refusals. -/
structure Retagged (p p' : Poll shape) : Prop where
  umem_eq : p'.adapter.umem = p.adapter.umem
  wheel_eq : p'.adapter.timingWheel = p.adapter.timingWheel
  socket_eq : p'.adapter.socket = p.adapter.socket
  initialized_eq : p'.adapter.initialized = p.adapter.initialized
  stats_eq : p'.stats = p.stats
  refused_eq : refusedAddresses p'.log = refusedAddresses p.log

/-- Received frames in custody are all handed on. -/
lemma foldl_receiveOne (l : List RxDescriptor) (ds : List PacketDescriptor) (p : Poll shape)
    (h : p.adapter.Keeps names (tagged .fillRing (l.map (·.address) : Multiset UInt64) + rest)) :
    ∃ p', l.foldl Poll.receiveOne (ds, p) = (ds ++ l.map Poll.packetDescriptor, p') ∧
      Retagged p p' ∧
      p'.adapter.Keeps names (tagged .dataPlane (l.map (·.address) : Multiset UInt64) + rest) := by
  induction l generalizing ds p rest with
  | nil => exact ⟨p, by simp, ⟨rfl, rfl, rfl, rfl, rfl, rfl⟩, h⟩
  | cons rx l ih =>
    rw [List.map_cons, ← Multiset.cons_coe, tagged_cons, Multiset.cons_add] at h
    obtain ⟨i, hi, -⟩ := h.owned
    rw [List.foldl_cons, receiveOne_valid ds p rx hi]
    rw [hi] at h
    -- the frame stays in hand under its new tag
    have hkeeps : Keeps { p.adapter with
        allocator := p.adapter.allocator.setOwner i .dataPlane } names
        (tagged .fillRing (l.map (·.address) : Multiset UInt64) +
          ((shape.umem.address i, .dataPlane) ::ₘ rest)) := by
      refine h.retag rfl ?_
      rw [Multiset.add_cons, Multiset.add_cons]
      rfl
    obtain ⟨p', heq, hsame, hkeeps'⟩ := ih (ds ++ [Poll.packetDescriptor rx]) { p with
      adapter.allocator := p.adapter.allocator.setOwner i .dataPlane
      log := p.log ++ [.handed (Poll.packetDescriptor rx) (p.adapter.allocator.owners i)] } hkeeps
    refine ⟨p', ?_, ⟨hsame.umem_eq, hsame.wheel_eq, hsame.socket_eq, hsame.initialized_eq,
      hsame.stats_eq, ?_⟩, ?_⟩
    · rw [heq, List.map_cons, List.append_assoc]
      rfl
    · rw [hsame.refused_eq]
      simp [refusedAddresses]
    · rw [List.map_cons, ← Multiset.cons_coe, tagged_cons, Multiset.cons_add, hi]
      rwa [Multiset.add_cons] at hkeeps'

/-- The received frames leave the RX ring. -/
lemma keeps_consumed {p : Poll shape} (h : p.adapter.Keeps names rest) (size : ℕ) :
    Keeps { p.adapter with socket := (p.adapter.socket.consumeRx size).2.2 } names
      (tagged .fillRing ((p.adapter.socket.rxRing.toList.take size).map (·.address) :
        Multiset UInt64) + rest) := by
  refine h.of_eq rfl ?_
  obtain ⟨-, hdrop⟩ := p.adapter.socket.rxRing.consume_spec size
  have hsplit : (p.adapter.socket.rxRing.toList.map (·.address) : Multiset UInt64) =
      ((p.adapter.socket.rxRing.toList.take size).map (·.address) : Multiset UInt64) +
        ((p.adapter.socket.rxRing.toList.drop size).map (·.address) : Multiset UInt64) := by
    rw [Multiset.coe_add, ← List.map_append, List.take_append_drop]
  simp only [ledger, SimulatedXskSocket.consumeRx, hdrop]
  conv_rhs => rw [hsplit]
  rw [tagged_add]
  abel

/-- The descriptors `poll_once` finds on the RX ring. -/
def AfXdpRuntimeAdapter.received (a : AfXdpRuntimeAdapter shape) : List RxDescriptor :=
  a.socket.rxRing.toList.take kDataPlaneBatchSize

/-- The poll after the RX ring has been read. -/
def Poll.consumed (p : Poll shape) : Poll shape :=
  { p with
    adapter.socket := (p.adapter.socket.consumeRx kDataPlaneBatchSize).2.2
    stats.rxFrames := (p.adapter.socket.consumeRx kDataPlaneBatchSize).2.1.count }

lemma Poll.consumed_rxRing (p : Poll shape) : p.consumed.adapter.socket.rxRing =
    (p.adapter.socket.rxRing.consume kDataPlaneBatchSize).2 := rfl

/-- Pushes before the RX ring is read, and new tags after that. -/
lemma Pushed.retagged {p p' p'' : Poll shape} {fills txs : ℕ} {lost : Multiset Entry}
    (h : Pushed p fills txs lost p') (hsame : Retagged p'.consumed p'') :
    Pushed p.consumed fills txs lost p'' where
  umem_eq := hsame.umem_eq.trans h.umem_eq
  wheel_eq := hsame.wheel_eq.trans h.wheel_eq
  rx_eq := by rw [hsame.socket_eq, Poll.consumed_rxRing, Poll.consumed_rxRing, h.rx_eq]
  initialized_eq := hsame.initialized_eq.trans h.initialized_eq
  ownerFailures_eq := by
    rw [hsame.stats_eq]
    exact h.ownerFailures_eq
  dataPlane_eq := by
    rw [hsame.stats_eq]
    exact h.dataPlane_eq
  fillFailures_eq := by
    rw [hsame.stats_eq]
    exact h.fillFailures_eq
  fill_length := by
    rw [hsame.socket_eq]
    exact h.fill_length
  tx_length := by
    rw [hsame.socket_eq]
    exact h.tx_length
  lost_of_full := h.lost_of_full
  refused_eq := hsame.refused_eq ▸ h.refused_eq

lemma Poll.receive_eq (p : Poll shape) :
    p.receive = p.adapter.received.foldl Poll.receiveOne ([], p.consumed) := by
  rw [Poll.receive, received, ← (p.adapter.socket.rxRing.consume_spec kDataPlaneBatchSize).1]
  rfl

lemma receive_retagged (p : Poll shape) (h : p.adapter.Keeps names rest) :
    ∃ p', p.receive = (p.adapter.received.map Poll.packetDescriptor, p') ∧
      Retagged p.consumed p' ∧
      p'.adapter.Keeps names
        (tagged .dataPlane (p.adapter.received.map (·.address) : Multiset UInt64) + rest) := by
  obtain ⟨p', heq, hsame, hkeeps⟩ := foldl_receiveOne p.adapter.received [] p.consumed
    (keeps_consumed h kDataPlaneBatchSize)
  exact ⟨p', by rw [Poll.receive_eq, heq, List.nil_append], hsame, hkeeps⟩

/-! ### The data plane -/

/-- The batch state after `process_packet_batch`, as `poll_once` calls it. -/
def Poll.batch (p : Poll shape) (rules : List ChaosRule) (ds : List PacketDescriptor) :
    Batch shape.wheel × Umem :=
  run (processPacketBatch (some 0) shape.umem.umemSizeBytes rules kDefaultTimingWheelTickNs ds
    p.adapter.timingWheel (List.replicate kDataPlaneBatchSize {})
    (List.replicate kDataPlaneBatchSize {})) p.adapter.umem

/-- The poll after the data plane. -/
def Poll.processed (p : Poll shape) (rules : List ChaosRule) (ds : List PacketDescriptor) :
    Poll shape :=
  { p with
    adapter.umem := (p.batch rules ds).2
    adapter.timingWheel := (p.batch rules ds).1.timingWheel
    stats.dataPlane := (p.batch rules ds).1.result.stats }

section

variable (p : Poll shape) (rules : List ChaosRule) (ds : List PacketDescriptor)

@[simp] lemma Poll.processed_umem :
    (p.processed rules ds).adapter.umem = (p.batch rules ds).2 := rfl

@[simp] lemma Poll.processed_timingWheel :
    (p.processed rules ds).adapter.timingWheel = (p.batch rules ds).1.timingWheel := rfl

@[simp] lemma Poll.processed_socket :
    (p.processed rules ds).adapter.socket = p.adapter.socket := rfl

@[simp] lemma Poll.processed_initialized :
    (p.processed rules ds).adapter.initialized = p.adapter.initialized := rfl

@[simp] lemma Poll.processed_ownerFailures :
    (p.processed rules ds).stats.ownerFailures = p.stats.ownerFailures := rfl

@[simp] lemma Poll.processed_fillFailures :
    (p.processed rules ds).stats.fillFailures = p.stats.fillFailures := rfl

@[simp] lemma Poll.processed_dataPlane :
    (p.processed rules ds).stats.dataPlane = (p.batch rules ds).1.result.stats := rfl

@[simp] lemma Poll.processed_log : (p.processed rules ds).log = p.log := rfl

end

lemma Poll.process_eq (p : Poll shape) (rules : List ChaosRule) (ds : List PacketDescriptor) :
    p.process rules ds =
      ((p.batch rules ds).1.tx, (p.batch rules ds).1.recycle, p.processed rules ds) := rfl

/-- What the data plane does with a batch that fits its output spans. -/
structure Batched (p : Poll shape) (rules : List ChaosRule) (ds : List PacketDescriptor) : Prop where
  noOverflow : (p.batch rules ds).1.result.stats.outputOverflows = 0
  tx_length : (p.batch rules ds).1.tx.length ≤ ds.length
  recycle_length : (p.batch rules ds).1.recycle.length ≤ ds.length
  shared : ∃ frames : List DelayedFrame,
    p.adapter.timingWheel.Accepted (p.batch rules ds).1.timingWheel frames ∧
    ((p.batch rules ds).1.tx.map (·.key) ++ ((p.batch rules ds).1.recycle.map (·.key) ++
      frames.map (·.key))).Perm (ds.map fun d => (d.frameAddress, d.frameLength))

lemma batched (p : Poll shape) (rules : List ChaosRule) (ds : List PacketDescriptor)
    (hlength : ds.length ≤ kDataPlaneBatchSize) : Batched p rules ds := by
  have h := routed_processPacketBatch (some 0) shape.umem.umemSizeBytes rules
    kDefaultTimingWheelTickNs ds p.adapter.timingWheel (List.replicate kDataPlaneBatchSize {})
    (List.replicate kDataPlaneBatchSize {}) p.adapter.umem
  obtain ⟨frames, hframes, hwheel⟩ := h.scheduled
  have hroom : ds.length ≤ (List.replicate kDataPlaneBatchSize ({} : ProcessedFrame)).length := by
    rwa [List.length_replicate]
  have hrefused := h.not_refused rfl hroom
  have htxFull := h.not_txFull rfl hroom
  have htx : (p.batch rules ds).1.tx.map (·.key) = sentTo Route.isTx ds _ := h.tx_eq
  have hrecycle : (p.batch rules ds).1.recycle.map (·.key) = sentTo Route.isRecycle ds _ :=
    h.recycle_eq
  constructor
  · have hoverflows := h.counters .outputOverflows
    rw [(totalWeight_balance _).2.2.2.1, List.countP_eq_zero.mpr (by simpa using htxFull),
      List.countP_eq_zero.mpr (by simpa using hrefused)] at hoverflows
    exact hoverflows
  · rw [← List.length_map (f := (·.key)), htx]
    exact (sentTo_sublist _ h.length_eq).length_le.trans_eq (List.length_map _)
  · rw [← List.length_map (f := (·.key)), hrecycle]
    exact (sentTo_sublist _ h.length_eq).length_le.trans_eq (List.length_map _)
  · refine ⟨frames, hwheel, ?_⟩
    rw [htx, hrecycle, hframes]
    exact sentTo_partition h.length_eq hrefused

/-- The frames handed to the data plane come back for transmission or recycling, or wait in the
wheel. -/
lemma keeps_processed {p : Poll shape} {rules : List ChaosRule} {ds : List PacketDescriptor}
    (hbatch : Batched p rules ds)
    (h : p.adapter.Keeps names
      (tagged .dataPlane (ds.map (·.frameAddress) : Multiset UInt64) + rest)) :
    (p.processed rules ds).adapter.Keeps names
      (tagged .dataPlane ((p.batch rules ds).1.tx.map (·.frameAddress) : Multiset UInt64) +
        (tagged .dataPlane ((p.batch rules ds).1.recycle.map (·.frameAddress) :
          Multiset UInt64) + rest)) := by
  obtain ⟨frames, hwheel, hperm⟩ := hbatch.shared
  have hshare : (ds.map (·.frameAddress) : Multiset UInt64) =
      ((p.batch rules ds).1.tx.map (·.frameAddress) : Multiset UInt64) +
        (((p.batch rules ds).1.recycle.map (·.frameAddress) : Multiset UInt64) +
          (frames.map (·.frameAddress) : Multiset UInt64)) := by
    have hfst := hperm.map Prod.fst
    rw [Multiset.coe_add, Multiset.coe_add, Multiset.coe_eq_coe]
    simp only [List.map_append, List.map_map] at hfst
    exact hfst.symm
  refine h.of_eq rfl ?_
  have hpending : (p.processed rules ds).adapter.timingWheel.pending =
      p.adapter.timingWheel.pending + frames := hwheel.pending
  have hledger : (p.processed rules ds).adapter.ledger =
      p.adapter.ledger + tagged .dataPlane (frames.map (·.frameAddress) : Multiset UInt64) := by
    rw [ledger, hpending, Multiset.map_add, tagged_add, Multiset.map_coe]
    simp only [ledger, Poll.processed]
    abel
  rw [hledger, hshare, tagged_add, tagged_add]
  abel

/-! ### Transmitting and recycling -/

lemma submitTx_pushed (p : Poll shape) (l : List ProcessedFrame)
    (h : p.adapter.Keeps names
      (tagged .dataPlane (l.map (·.frameAddress) : Multiset UInt64) + rest)) :
    ∃ lost, Pushed p 0 l.length lost (p.submitTx l) ∧
      (p.submitTx l).adapter.Keeps names (lost + rest) := by
  obtain ⟨lost, hpushed, hkeeps⟩ := foldl_pushed
    (fun p frame _ h => submitOne_pushed p frame (by decide) h) l p h
  rw [Nat.mul_zero, Nat.mul_one] at hpushed
  exact ⟨lost, hpushed, hkeeps⟩

lemma recycleOne_pushed (p : Poll shape) (frame : ProcessedFrame) (rest : Multiset Entry)
    (h : p.adapter.Keeps names ((frame.frameAddress, .dataPlane) ::ₘ rest)) :
    ∃ lost, Pushed p 1 0 lost (p.recycleOne frame) ∧
      (p.recycleOne frame).adapter.Keeps names (lost + rest) := by
  obtain ⟨i, hi, -⟩ := h.owned
  have heq : p.recycleOne frame = p.refillOne (shape.umem.handle i) .dataPlane := by
    simp [Poll.recycleOne, UmemShape.handleFromAddress_of_eq hi, FrameAllocation.ok]
  rw [heq]
  rw [hi] at h
  exact refillOne_pushed p (by decide) h

lemma refillRecycled_pushed (p : Poll shape) (l : List ProcessedFrame)
    (h : p.adapter.Keeps names
      (tagged .dataPlane (l.map (·.frameAddress) : Multiset UInt64) + rest)) :
    ∃ lost, Pushed p l.length 0 lost (p.refillRecycled l) ∧
      (p.refillRecycled l).adapter.Keeps names (lost + rest) := by
  obtain ⟨lost, hpushed, hkeeps⟩ := foldl_pushed recycleOne_pushed l p h
  rw [Nat.mul_zero, Nat.mul_one] at hpushed
  exact ⟨lost, hpushed, hkeeps⟩

/-! ### The whole poll -/

namespace AfXdpRuntimeAdapter

/-- The poll when it reads the RX ring. -/
def atReceive (a : AfXdpRuntimeAdapter shape) : Poll shape :=
  ({ adapter := a } : Poll shape).drainCompletions.releaseDelayed

/-- The poll when the data plane has run. -/
def atTransmit (a : AfXdpRuntimeAdapter shape) (rules : List ChaosRule) : Poll shape :=
  a.atReceive.receive.2.processed rules a.atReceive.receive.1

/-- The batch state when the data plane has run. -/
def batchOf (a : AfXdpRuntimeAdapter shape) (rules : List ChaosRule) : Batch shape.wheel :=
  (a.atReceive.receive.2.batch rules a.atReceive.receive.1).1

lemma pollOnce_eq {a : AfXdpRuntimeAdapter shape} (h : a.initialized = true)
    (rules : List ChaosRule) :
    a.pollOnce rules = (.ok, ((a.atTransmit rules).submitTx (a.batchOf rules).tx).refillRecycled
      (a.batchOf rules).recycle) := by
  simp only [pollOnce, h, Bool.not_true, Bool.false_eq_true, if_false, atTransmit, batchOf,
    atReceive]
  rw [Poll.process_eq]

lemma pollOnce_snd {a : AfXdpRuntimeAdapter shape} (h : a.initialized = true)
    (rules : List ChaosRule) :
    (a.pollOnce rules).2 = ((a.atTransmit rules).submitTx (a.batchOf rules).tx).refillRecycled
      (a.batchOf rules).recycle := by
  rw [pollOnce_eq h]

/-- The data plane's run over the received frames, from the state before the poll. -/
def plane (a : AfXdpRuntimeAdapter shape) (rules : List ChaosRule) : Batch shape.wheel × Umem :=
  run (processPacketBatch (some 0) shape.umem.umemSizeBytes rules kDefaultTimingWheelTickNs
    (a.received.map Poll.packetDescriptor) a.timingWheel.tick.2
    (List.replicate kDataPlaneBatchSize {}) (List.replicate kDataPlaneBatchSize {})) a.umem

/-- The rings have room for every frame that a poll could push. -/
def Room (a : AfXdpRuntimeAdapter shape) : Prop :=
  a.socket.fillRing.toList.length +
      min kDataPlaneBatchSize a.socket.completionRing.toList.length + a.received.length ≤
    shape.socket.fillSize.toNat ∧
  a.socket.txRing.toList.length + a.timingWheel.tick.1.length + a.received.length ≤
    shape.socket.txSize.toNat

/-- What a poll does to the frames in custody: some may be lost, but only when the rings have
too little room, and each is counted and logged. -/
structure Polled (a : AfXdpRuntimeAdapter shape) (rules : List ChaosRule) (names : Multiset UInt64)
    (rest lost : Multiset Entry) : Prop where
  keeps : (a.pollOnce rules).2.adapter.Keeps names (lost + rest)
  initialized : (a.pollOnce rules).2.adapter.initialized = true
  ownerFailures : (a.pollOnce rules).2.stats.ownerFailures = 0
  fillFailures : (a.pollOnce rules).2.stats.fillFailures = lost.card
  overflows : (a.pollOnce rules).2.stats.dataPlane.outputOverflows = 0
  refused : (refusedAddresses (a.pollOnce rules).2.log : Multiset UInt64) = lost.map Prod.fst
  umem_eq : (a.pollOnce rules).2.adapter.umem = (a.plane rules).2
  wheel_eq : (a.pollOnce rules).2.adapter.timingWheel = (a.plane rules).1.timingWheel
  rx_eq : (a.pollOnce rules).2.adapter.socket.rxRing.toList =
    a.socket.rxRing.toList.drop kDataPlaneBatchSize
  room : a.Room → lost = 0

/-- The poll up to the RX ring. -/
lemma atReceive_pushed {a : AfXdpRuntimeAdapter shape} (h : a.Keeps names rest) :
    ∃ lost, Pushed { adapter := { a with timingWheel := a.timingWheel.tick.2 } }
        (min kDataPlaneBatchSize a.socket.completionRing.toList.length)
        a.timingWheel.tick.1.length lost a.atReceive ∧
      a.atReceive.adapter.Keeps names (lost + rest) := by
  obtain ⟨lost, hpushed, hkeeps⟩ := drainCompletions_pushed ({ adapter := a } : Poll shape) h
  obtain ⟨lost', hpushed', hkeeps'⟩ := releaseDelayed_pushed _ hkeeps
  have hwheel := hpushed.wheel_eq
  rw [hwheel] at hpushed'
  have hfirst : Pushed { adapter := { a with timingWheel := a.timingWheel.tick.2 } }
      (min kDataPlaneBatchSize a.socket.completionRing.toList.length) 0 lost
      { ({ adapter := a } : Poll shape).drainCompletions with
        adapter.timingWheel := a.timingWheel.tick.2 } :=
    ⟨hpushed.umem_eq, rfl, hpushed.rx_eq, hpushed.initialized_eq, hpushed.ownerFailures_eq,
      hpushed.dataPlane_eq, hpushed.fillFailures_eq, hpushed.fill_length, hpushed.tx_length,
      hpushed.lost_of_full, hpushed.refused_eq⟩
  refine ⟨lost + lost', ?_, ?_⟩
  · have htrans := hfirst.trans hpushed'
    rwa [Nat.add_zero, Nat.zero_add] at htrans
  · rwa [add_comm lost, add_assoc]

/-- The poll up to the transmission, and the pushes that remain. -/
structure Transmitting (a : AfXdpRuntimeAdapter shape) (rules : List ChaosRule)
    (names : Multiset UInt64) (rest lost : Multiset Entry) : Prop where
  keeps : (a.atTransmit rules).adapter.Keeps names
    (tagged .dataPlane ((a.batchOf rules).tx.map (·.frameAddress) : Multiset UInt64) +
      (tagged .dataPlane ((a.batchOf rules).recycle.map (·.frameAddress) : Multiset UInt64) +
        (lost + rest)))
  plane_eq : a.batchOf rules = (a.plane rules).1
  umem_eq : (a.atTransmit rules).adapter.umem = (a.plane rules).2
  wheel_eq : (a.atTransmit rules).adapter.timingWheel = (a.plane rules).1.timingWheel
  rx_eq : (a.atTransmit rules).adapter.socket.rxRing.toList =
    a.socket.rxRing.toList.drop kDataPlaneBatchSize
  initialized_eq : (a.atTransmit rules).adapter.initialized = a.initialized
  ownerFailures_eq : (a.atTransmit rules).stats.ownerFailures = 0
  fillFailures_eq : (a.atTransmit rules).stats.fillFailures = lost.card
  overflows_eq : (a.atTransmit rules).stats.dataPlane.outputOverflows = 0
  refused_eq : (refusedAddresses (a.atTransmit rules).log : Multiset UInt64) = lost.map Prod.fst
  tx_length : (a.batchOf rules).tx.length ≤ a.received.length
  recycle_length : (a.batchOf rules).recycle.length ≤ a.received.length
  fillRing_length : (a.atTransmit rules).adapter.socket.fillRing.toList.length ≤
    a.socket.fillRing.toList.length +
      min kDataPlaneBatchSize a.socket.completionRing.toList.length
  txRing_length : (a.atTransmit rules).adapter.socket.txRing.toList.length ≤
    a.socket.txRing.toList.length + a.timingWheel.tick.1.length
  room : a.Room → lost = 0

/-- The poll up to the data plane: the received frames are in hand. -/
lemma receive_pushed {a : AfXdpRuntimeAdapter shape} (h : a.Keeps names rest) :
    ∃ lost p, a.atReceive.receive = (a.received.map Poll.packetDescriptor, p) ∧
      Pushed (Poll.consumed { adapter := { a with timingWheel := a.timingWheel.tick.2 } })
        (min kDataPlaneBatchSize a.socket.completionRing.toList.length)
        a.timingWheel.tick.1.length lost p ∧
      p.adapter.Keeps names
        (tagged .dataPlane (a.received.map (·.address) : Multiset UInt64) + (lost + rest)) := by
  obtain ⟨lost, hpushed, hkeeps⟩ := atReceive_pushed h
  obtain ⟨p, hreceive, hsame, hkeeps'⟩ := receive_retagged a.atReceive hkeeps
  have hreceived : a.atReceive.adapter.received = a.received := by
    rw [received, hpushed.rx_eq]
    rfl
  rw [hreceived] at hreceive hkeeps'
  exact ⟨lost, p, hreceive, hpushed.retagged hsame, hkeeps'⟩

lemma transmitting {a : AfXdpRuntimeAdapter shape} (h : a.Keeps names rest)
    (rules : List ChaosRule) : ∃ lost, a.Transmitting rules names rest lost := by
  obtain ⟨lost, p, hreceive, hpushed, hkeeps⟩ := receive_pushed h
  have hlength : (a.received.map Poll.packetDescriptor).length = a.received.length :=
    List.length_map _
  have hbatch := batched p rules (a.received.map Poll.packetDescriptor) (by
    rw [hlength]
    exact List.length_take_le _ _)
  have hbatchOf : a.batchOf rules = (p.batch rules (a.received.map Poll.packetDescriptor)).1 := by
    rw [batchOf, hreceive]
  have htransmit : a.atTransmit rules =
      p.processed rules (a.received.map Poll.packetDescriptor) := by
    rw [atTransmit, hreceive]
  have hplane : p.batch rules (a.received.map Poll.packetDescriptor) = a.plane rules := by
    rw [Poll.batch, hpushed.umem_eq, hpushed.wheel_eq]
    rfl
  exact ⟨lost, {
    keeps := by
      rw [htransmit, hbatchOf]
      refine keeps_processed hbatch ?_
      rwa [List.map_map]
    plane_eq := by rw [hbatchOf, hplane]
    umem_eq := by rw [htransmit, Poll.processed_umem, hplane]
    wheel_eq := by rw [htransmit, Poll.processed_timingWheel, hplane]
    rx_eq := by
      rw [htransmit, Poll.processed_socket, hpushed.rx_eq, Poll.consumed_rxRing]
      exact (a.socket.rxRing.consume_spec kDataPlaneBatchSize).2
    initialized_eq := by
      rw [htransmit, Poll.processed_initialized]
      exact hpushed.initialized_eq
    ownerFailures_eq := by
      rw [htransmit, Poll.processed_ownerFailures]
      exact hpushed.ownerFailures_eq
    fillFailures_eq := by
      rw [htransmit, Poll.processed_fillFailures]
      exact hpushed.fillFailures_eq.trans (Nat.zero_add _)
    overflows_eq := by
      rw [htransmit, Poll.processed_dataPlane]
      exact hbatch.noOverflow
    refused_eq := by
      rw [htransmit, Poll.processed_log]
      exact hpushed.refused_eq.trans (zero_add _)
    tx_length := by
      rw [hbatchOf, ← hlength]
      exact hbatch.tx_length
    recycle_length := by
      rw [hbatchOf, ← hlength]
      exact hbatch.recycle_length
    fillRing_length := by
      rw [htransmit, Poll.processed_socket]
      exact hpushed.fill_length
    txRing_length := by
      rw [htransmit, Poll.processed_socket]
      exact hpushed.tx_length
    room := by
      rintro ⟨hfill, htx⟩
      exact hpushed.lost_eq_zero (Nat.le_trans (Nat.le_add_right _ _) hfill)
        (Nat.le_trans (Nat.le_add_right _ _) htx) }⟩

/-- A poll keeps the frames in custody, up to those that find no room. -/
lemma pollOnce_polled {a : AfXdpRuntimeAdapter shape} (hinit : a.initialized = true)
    (h : a.Keeps names rest) (rules : List ChaosRule) :
    ∃ lost, a.Polled rules names rest lost := by
  obtain ⟨lost, ht⟩ := transmitting h rules
  obtain ⟨lost₁, hpushed₁, hkeeps₁⟩ := submitTx_pushed _ _ ht.keeps
  rw [add_left_comm] at hkeeps₁
  obtain ⟨lost₂, hpushed₂, hkeeps₂⟩ := refillRecycled_pushed _ _ hkeeps₁
  have hpushed := hpushed₁.trans hpushed₂
  rw [Nat.zero_add, Nat.add_zero] at hpushed
  have hpoll := pollOnce_snd hinit rules
  refine ⟨lost + (lost₁ + lost₂), ?_⟩
  constructor
  · rw [hpoll]
    convert hkeeps₂ using 1
    abel
  · rw [hpoll, hpushed.initialized_eq, ht.initialized_eq, hinit]
  · rw [hpoll, hpushed.ownerFailures_eq, ht.ownerFailures_eq]
  · rw [hpoll, hpushed.fillFailures_eq, ht.fillFailures_eq, Multiset.card_add,
      Multiset.card_add, Multiset.card_add]
  · rw [hpoll, hpushed.dataPlane_eq, ht.overflows_eq]
  · rw [hpoll, hpushed.refused_eq, ht.refused_eq, Multiset.map_add, Multiset.map_add,
      Multiset.map_add]
  · rw [hpoll, hpushed.umem_eq, ht.umem_eq]
  · rw [hpoll, hpushed.wheel_eq, ht.wheel_eq]
  · rw [hpoll, hpushed.rx_eq, ht.rx_eq]
  · intro hroom
    have hfill := ht.fillRing_length
    have htx := ht.txRing_length
    have hrecycle := ht.recycle_length
    have hsent := ht.tx_length
    rw [ht.room hroom, zero_add]
    obtain ⟨hroomFill, hroomTx⟩ := hroom
    apply hpushed.lost_eq_zero
    · omega
    · omega

end AfXdpRuntimeAdapter

end ChronosX
