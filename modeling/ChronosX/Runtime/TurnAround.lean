import ChronosX.Runtime.Conservation
import ChronosX.DataPlane.Delay
import ChronosX.DataPlane.TurnAround

/-!
# Transmitted frames

Along every run, the frames on the RX ring and in the wheel hold the bytes that were received in
them. A frame transmitted by the poll that received it is turned around by the data plane. A
frame that was delayed is submitted as it was received: it counts as turned around only when its
two MAC addresses are equal.
-/

namespace ChronosX

open Ledger Mem AfXdpRuntimeAdapter Host

variable {shape : RuntimeShape} {names : Multiset UInt64} {rest : Multiset Entry}

/-! ### What a poll submits -/

/-- From `p` to `p'` the UMEM is the same, and new submissions satisfy `S`. -/
structure Sends (p : Poll shape) (S : TxDescriptor → Prop) (p' : Poll shape) : Prop where
  umem_eq : p'.adapter.umem = p.adapter.umem
  sent : ∀ e ∈ submissions p'.log, e ∈ submissions p.log ∨ (e.2 = p.adapter.umem ∧ S e.1)

lemma submissions_append (log log' : List PollEvent) :
    submissions (log ++ log') = submissions log ++ submissions log' :=
  List.filterMap_append

namespace Sends

variable {p p' p'' : Poll shape} {S S' : TxDescriptor → Prop}

lemma refl (p : Poll shape) : Sends p S p := ⟨rfl, fun _ h => Or.inl h⟩

lemma trans (h : Sends p S p') (h' : Sends p' S p'') : Sends p S p'' := by
  refine ⟨h'.umem_eq.trans h.umem_eq, fun e he => ?_⟩
  rcases h'.sent e he with hold | hnew
  · exact h.sent e hold
  · rw [h.umem_eq] at hnew
    exact Or.inr hnew

lemma mono (h : Sends p S p') (hS : ∀ d, S d → S' d) : Sends p S' p' :=
  ⟨h.umem_eq, fun e he => (h.sent e he).imp id fun hnew => ⟨hnew.1, hS _ hnew.2⟩⟩

/-- A step that logs no submission. -/
lemma of_log_eq (humem : p'.adapter.umem = p.adapter.umem)
    (hlog : submissions p'.log = submissions p.log) : Sends p S p' :=
  ⟨humem, fun _ he => Or.inl (hlog ▸ he)⟩

/-- A step that logs other events only. -/
lemma of_log_append (humem : p'.adapter.umem = p.adapter.umem) {log : List PollEvent}
    (hlog : p'.log = p.log ++ log) (hnone : submissions log = []) : Sends p S p' := by
  refine .of_log_eq humem ?_
  rw [hlog, submissions_append, hnone, List.append_nil]

lemma foldl {α : Type} {f : Poll shape → α → Poll shape} (l : List α)
    (hstep : ∀ p, ∀ x ∈ l, Sends p S (f p x)) (p : Poll shape) : Sends p S (l.foldl f p) := by
  induction l generalizing p with
  | nil => exact refl p
  | cons x l ih =>
    refine (hstep p x List.mem_cons_self).trans (ih (fun p y hy => ?_) _)
    exact hstep p y (List.mem_cons_of_mem x hy)

end Sends

/-- The descriptor a frame is submitted with. -/
def txDescriptor (address : UInt64) (length : UInt32) : TxDescriptor :=
  { address, length, options := 0 }

lemma submitOne_sends (p : Poll shape) (frame : ProcessedFrame) :
    Sends p (· = txDescriptor frame.frameAddress frame.frameLength) (p.submitOne frame) := by
  simp only [Poll.submitOne]
  split_ifs
  · exact .of_log_eq rfl rfl
  · exact .of_log_eq rfl rfl
  · refine ⟨rfl, fun e he => ?_⟩
    rw [submissions_append, List.mem_append] at he
    refine he.imp id fun hnew => ?_
    rw [List.mem_singleton.mp hnew]
    exact ⟨rfl, rfl⟩
  · exact .of_log_append rfl rfl rfl

lemma refillOne_sends (p : Poll shape) (frame : FrameHandle) (owner : FrameOwner) :
    Sends p (fun _ => False) (p.refillOne frame owner) := by
  simp only [Poll.refillOne]
  split_ifs
  · exact .of_log_eq rfl rfl
  · exact .of_log_eq rfl rfl
  · exact .of_log_append rfl rfl rfl

lemma drainCompletions_sends (p : Poll shape) :
    Sends p (fun _ => False) p.drainCompletions := by
  have hstep : ∀ (p : Poll shape) (k : UInt64), Sends p (fun _ => False) (p.drainOne k) := by
    intro p k
    rw [Poll.drainOne]
    split_ifs
    · exact .of_log_eq rfl rfl
    · exact refillOne_sends p _ _
  obtain ⟨humem, hsent⟩ := Sends.foldl (p.adapter.socket.drainCompletions kDataPlaneBatchSize).1
    (fun p k _ => hstep p k) { p with
      adapter.socket := (p.adapter.socket.drainCompletions kDataPlaneBatchSize).2.2
      stats.txCompleted := p.stats.txCompleted +
        (p.adapter.socket.drainCompletions kDataPlaneBatchSize).2.1.count }
  exact ⟨humem, hsent⟩

lemma releaseDelayed_sends (p : Poll shape) :
    Sends p (fun d => ∃ frame ∈ p.adapter.timingWheel.tick.1,
      d = txDescriptor frame.frameAddress frame.frameLength) p.releaseDelayed := by
  have hstep : ∀ (p' : Poll shape), ∀ frame ∈ p.adapter.timingWheel.tick.1,
      Sends p' (fun d => ∃ frame ∈ p.adapter.timingWheel.tick.1,
        d = txDescriptor frame.frameAddress frame.frameLength)
        (p'.submitTx [Poll.expiredFrame frame]) := by
    intro p' frame hframe
    exact (submitOne_sends p' (Poll.expiredFrame frame)).mono fun d hd => ⟨frame, hframe, hd⟩
  obtain ⟨humem, hsent⟩ := Sends.foldl p.adapter.timingWheel.tick.1 hstep
    { p with adapter.timingWheel := p.adapter.timingWheel.tick.2 }
  exact ⟨humem, hsent⟩

lemma receive_sends (p : Poll shape) : Sends p (fun _ => False) p.receive.2 := by
  have hstep : ∀ (acc : List PacketDescriptor × Poll shape) (rx : RxDescriptor),
      Sends acc.2 (fun _ => False) (Poll.receiveOne acc rx).2 := by
    rintro ⟨ds, p⟩ rx
    simp only [Poll.receiveOne]
    split_ifs
    · exact .of_log_append rfl rfl rfl
    · exact .of_log_append rfl rfl rfl
    · exact .of_log_append rfl rfl rfl
  have hloop : ∀ (l : List RxDescriptor) (acc : List PacketDescriptor × Poll shape),
      Sends acc.2 (fun _ => False) (l.foldl Poll.receiveOne acc).2 := by
    intro l
    induction l with
    | nil => exact fun acc => .refl acc.2
    | cons rx l ih => exact fun acc => (hstep acc rx).trans (ih _)
  obtain ⟨humem, hsent⟩ := hloop p.adapter.received ([], p.consumed)
  rw [Poll.receive_eq]
  exact ⟨humem, hsent⟩

lemma submitTx_sends (p : Poll shape) (l : List ProcessedFrame) :
    Sends p (fun d => ∃ frame ∈ l, d = txDescriptor frame.frameAddress frame.frameLength)
      (p.submitTx l) := by
  refine Sends.foldl l (fun p frame hframe => ?_) p
  exact (submitOne_sends p frame).mono fun d hd => ⟨frame, hframe, hd⟩

lemma refillRecycled_sends (p : Poll shape) (l : List ProcessedFrame) :
    Sends p (fun _ => False) (p.refillRecycled l) := by
  refine Sends.foldl l (fun p frame _ => ?_) p
  rw [Poll.recycleOne]
  split_ifs
  · exact .of_log_eq rfl rfl
  · exact refillOne_sends p _ _

/-- A poll submits frames that are due, as they were before it, and frames of its batch, as the
data plane leaves them. -/
lemma pollOnce_submissions {a : AfXdpRuntimeAdapter shape} (hinit : a.initialized = true)
    (h : a.Keeps names rest) (rules : List ChaosRule) {e : TxDescriptor × Umem}
    (he : e ∈ submissions (a.pollOnce rules).2.log) :
    (e.2 = a.umem ∧ ∃ frame ∈ a.timingWheel.tick.1,
      e.1 = txDescriptor frame.frameAddress frame.frameLength) ∨
    (e.2 = (a.plane rules).2 ∧ ∃ frame ∈ (a.plane rules).1.tx,
      e.1 = txDescriptor frame.frameAddress frame.frameLength) := by
  obtain ⟨lost, ht⟩ := transmitting h rules
  obtain ⟨lost', hdrained, -⟩ := drainCompletions_pushed ({ adapter := a } : Poll shape) h
  have hrelease := releaseDelayed_sends ({ adapter := a } : Poll shape).drainCompletions
  rw [hdrained.wheel_eq] at hrelease
  have hreceive : Sends ({ adapter := a } : Poll shape) (fun d => ∃ frame ∈ a.timingWheel.tick.1,
      d = txDescriptor frame.frameAddress frame.frameLength) a.atReceive.receive.2 :=
    ((drainCompletions_sends _).mono fun _ hfalse => hfalse.elim).trans
      (hrelease.trans ((receive_sends _).mono fun _ hfalse => hfalse.elim))
  have hsubmit := (submitTx_sends (a.atTransmit rules) (a.batchOf rules).tx).trans
    ((refillRecycled_sends _ (a.batchOf rules).recycle).mono fun _ hfalse => hfalse.elim)
  rw [pollOnce_snd hinit] at he
  rcases hsubmit.sent e he with hold | hnew
  · left
    rw [atTransmit, Poll.processed_log] at hold
    rcases hreceive.sent e hold with hnone | hdue
    · exact absurd hnone List.not_mem_nil
    · exact hdue
  · right
    rw [ht.umem_eq, ht.plane_eq] at hnew
    exact hnew

/-! ### Frames that hold what was received -/

namespace AfXdpRuntimeAdapter

/-- The addresses and lengths on the RX ring and in the wheel. -/
def held (a : AfXdpRuntimeAdapter shape) : Multiset (UInt64 × UInt32) :=
  (a.socket.rxRing.toList.map fun rx => (rx.address, rx.length) : Multiset (UInt64 × UInt32)) +
    a.timingWheel.pending.map (·.key)

/-- What is held beyond the descriptors that the next poll takes from the RX ring. -/
def waiting (a : AfXdpRuntimeAdapter shape) : Multiset (UInt64 × UInt32) :=
  ((a.socket.rxRing.toList.drop kDataPlaneBatchSize).map fun rx => (rx.address, rx.length) :
    Multiset (UInt64 × UInt32)) + a.timingWheel.pending.map (·.key)

lemma held_eq (a : AfXdpRuntimeAdapter shape) :
    a.held = (a.received.map fun rx => (rx.address, rx.length) : Multiset (UInt64 × UInt32)) +
      a.waiting := by
  rw [held, waiting, received, ← add_assoc, Multiset.coe_add, ← List.map_append,
    List.take_append_drop]

namespace Keeps

variable {a : AfXdpRuntimeAdapter shape}

lemma held_le (h : a.Keeps names rest) : a.held.map Prod.fst ≤ names := by
  rw [← h.names_eq, held, ledger]
  simp only [Multiset.map_add, map_fst_tagged, Multiset.map_map, Multiset.map_coe, List.map_map]
  have hsum : ∀ p q r s t u : Multiset UInt64, q + r ≤ p + q + r + s + t + u := by
    intro p q r s t u
    rw [show p + q + r + s + t + u = q + r + (p + s + t + u) by abel]
    exact Multiset.le_add_right _ _
  exact hsum _ _ _ _ _ _

lemma held_nodup (h : a.Keeps names rest) : (a.held.map Prod.fst).Nodup := by
  refine Multiset.nodup_of_le h.held_le ?_
  rw [← h.names_eq]
  exact h.agrees.nodup

/-- The names are addresses of frames. -/
lemma exists_address (h : a.Keeps names rest) {k : UInt64} (hk : k ∈ names) :
    ∃ i, k = shape.umem.address i := by
  rw [← h.names_eq, Multiset.mem_map] at hk
  obtain ⟨e, he, rfl⟩ := hk
  obtain ⟨i, hi, -⟩ := h.agrees.owned e he
  exact ⟨i, hi⟩

/-- Different frames have no byte in common. -/
lemma frames_apart (h : a.Keeps names rest) {k k' : UInt64} (hk : k ∈ names) (hk' : k' ∈ names)
    (hne : k ≠ k') (x : ℕ) (hx : InFrame k.toNat shape.umem.frameSize.toNat x) :
    ¬ InFrame k'.toNat shape.umem.frameSize.toNat x := by
  have hdiv : ∀ k ∈ names, InFrame k.toNat shape.umem.frameSize.toNat x →
      ∃ i, k = shape.umem.address i ∧ x / shape.umem.frameSize.toNat = i := by
    intro k hk hx
    obtain ⟨i, hi⟩ := h.exists_address hk
    rw [hi, InFrame, UmemShape.address, UmemShape.handle_address, ← Nat.succ_mul] at hx
    exact ⟨i, hi, Nat.div_eq_of_lt_le hx.1 hx.2⟩
  intro hx'
  obtain ⟨i, hi, hxi⟩ := hdiv k hk hx
  obtain ⟨j, hj, hxj⟩ := hdiv k' hk' hx'
  have heq : i = j := Fin.ext (hxi.symm.trans hxj)
  exact hne (by rw [hi, hj, heq])

end Keeps

end AfXdpRuntimeAdapter

namespace Host

/-- The frames on the RX ring and in the wheel hold what was received in them. -/
def Intact (s : Host shape) : Prop :=
  ∀ e ∈ s.runtime.held, e.2.toNat ≤ shape.umem.frameSize.toNat ∧
    SameBytes e.1.toNat shape.umem.frameSize.toNat (s.received e.1) s.runtime.umem

variable {s s' : Host shape} {stranded : Multiset Entry}

lemma held_deliver {rx : RxDescriptor} {umem : Umem}
    (hroom : s.runtime.socket.rxRing.toList.length < shape.socket.rxSize.toNat) :
    (s.deliver rx umem).runtime.held = (rx.address, rx.length) ::ₘ s.runtime.held := by
  rcases s.runtime.socket.rxRing.produce_singleton rx with ⟨-, -, hlist⟩ | ⟨hfull, -⟩
  · rw [held, deliver, SimulatedXskSocket.injectRx]
    simp only [hlist, List.map_append, ← Multiset.coe_add, List.map_cons, List.map_nil]
    rw [held, Multiset.coe_singleton, ← Multiset.singleton_add]
    abel
  · exact absurd hfull (Nat.ne_of_lt hroom)

/-- A delivery writes to the delivered frame only. -/
lemma Intact.kernel (h : s.Intact) (hholds : s.Holds names stranded) (hstep : KernelStep s s') :
    s'.Intact := by
  have hkeeps := (hholds.kernel hstep).keeps
  cases hstep with
  | takeFill => exact h
  | @deliver rx umem hcustody hlength hroom hothers =>
    have hnodup := hkeeps.held_nodup
    have hle := hkeeps.held_le
    rw [held_deliver hroom, Multiset.map_cons] at hnodup hle
    intro e he
    rw [held_deliver hroom, Multiset.mem_cons] at he
    rw [deliver_umem, deliver_received]
    rcases he with rfl | hold
    · rw [Function.update_self]
      exact ⟨hlength, SameBytes.refl umem⟩
    · have hmem : e.1 ∈ s.runtime.held.map Prod.fst := Multiset.mem_map_of_mem Prod.fst hold
      have hne : e.1 ≠ rx.address := fun heq => (Multiset.nodup_cons.mp hnodup).1 (heq ▸ hmem)
      have hapart := hkeeps.frames_apart
        (Multiset.mem_of_le hle (Multiset.mem_cons_of_mem hmem))
        (Multiset.mem_of_le hle (Multiset.mem_cons_self rx.address _)) hne
      obtain ⟨hfits, hsame⟩ := h e hold
      rw [Function.update_of_ne hne]
      exact ⟨hfits, hsame.trans fun x hx => hothers x (hapart x hx)⟩
  | takeTx => exact h
  | complete => exact h

end Host

/-! ### The data plane's batch -/

section

variable {a : AfXdpRuntimeAdapter shape}

/-- No frame is received twice. -/
lemma AfXdpRuntimeAdapter.Keeps.received_nodup (h : a.Keeps names rest) :
    (a.received.map (·.address)).Nodup := by
  have hnodup := h.held_nodup
  rw [a.held_eq, Multiset.map_add, Multiset.map_coe, List.map_map] at hnodup
  exact Multiset.coe_nodup.mp (Multiset.nodup_add.mp hnodup).1

lemma AfXdpRuntimeAdapter.Keeps.received_mem (h : a.Keeps names rest) {rx : RxDescriptor}
    (hrx : rx ∈ a.received) : rx.address ∈ names := by
  have hle := h.held_le
  rw [a.held_eq, Multiset.map_add, Multiset.map_coe, List.map_map] at hle
  exact Multiset.mem_of_le hle (Multiset.mem_add.mpr (Or.inl (List.mem_map_of_mem hrx)))

/-- The received frames are different frames. -/
lemma AfXdpRuntimeAdapter.Keeps.received_apart (h : a.Keeps names rest) :
    (a.received.map Poll.packetDescriptor).Pairwise
      (PacketDescriptor.Apart shape.umem.frameSize.toNat) := by
  have hnodup := h.received_nodup
  rw [List.Nodup, List.pairwise_map] at hnodup
  rw [List.pairwise_map]
  refine hnodup.imp_of_mem ?_
  intro rx rx' hrx hrx' hne
  exact h.frames_apart (h.received_mem hrx) (h.received_mem hrx') hne

/-- The other frames are not touched. -/
lemma plane_waiting (h : a.Keeps names rest)
    (hlength : ∀ rx ∈ a.received, rx.length.toNat ≤ shape.umem.frameSize.toNat)
    (rules : List ChaosRule) {e : UInt64 × UInt32} (he : e ∈ a.waiting) :
    SameBytes e.1.toNat shape.umem.frameSize.toNat a.umem (a.plane rules).2 := by
  have hnodup := h.held_nodup
  have hle := h.held_le
  rw [a.held_eq, Multiset.map_add] at hnodup hle
  have hdisjoint := (Multiset.nodup_add.mp hnodup).2.2
  have hmem := Multiset.mem_map_of_mem Prod.fst he
  apply processDescriptors_others
  · intro d hd
    obtain ⟨rx, hrx, rfl⟩ := List.mem_map.mp hd
    exact hlength rx hrx
  · intro d hd
    obtain ⟨rx, hrx, rfl⟩ := List.mem_map.mp hd
    have hrx' : rx.address ∈ (a.received.map fun rx => (rx.address, rx.length) :
        Multiset (UInt64 × UInt32)).map Prod.fst :=
      Multiset.mem_map.mpr ⟨_, Multiset.mem_coe.mpr (List.mem_map.mpr ⟨rx, hrx, rfl⟩), rfl⟩
    refine h.frames_apart (h.received_mem hrx)
      (Multiset.mem_of_le hle (Multiset.mem_add.mpr (Or.inr hmem))) ?_
    intro heq
    have heq' : rx.address = e.1 := heq
    exact Multiset.disjoint_left.mp hdisjoint hrx' (heq' ▸ hmem)

/-- The frames transmitted come turned around, the delayed ones untouched. -/
lemma plane_turning (h : a.Keeps names rest)
    (hlength : ∀ rx ∈ a.received, rx.length.toNat ≤ shape.umem.frameSize.toNat)
    (rules : List ChaosRule) :
    (∀ frame ∈ (a.plane rules).1.tx, ∃ rx ∈ a.received, frame.key = (rx.address, rx.length) ∧
      (Poll.packetDescriptor rx).Turned a.umem (a.plane rules).2) ∧
    ∀ frame ∈ (a.plane rules).1.timingWheel.pending, frame.key ∈ a.waiting ∨
      ∃ rx ∈ a.received, frame.key = (rx.address, rx.length) ∧
        SameBytes rx.address.toNat shape.umem.frameSize.toNat a.umem (a.plane rules).2 := by
  have hturning := processDescriptors_turning shape.umem.umemSizeBytes rules
    kDefaultTimingWheelTickNs
    { timingWheel := a.timingWheel.tick.2, txOutput := List.replicate kDataPlaneBatchSize {}
      recycleOutput := List.replicate kDataPlaneBatchSize {} }
    (a.received.map Poll.packetDescriptor) (by simpa [Poll.packetDescriptor] using hlength)
    h.received_apart a.umem
  constructor
  · intro frame hframe
    rcases hturning.tx frame.key (List.mem_map_of_mem hframe) with hnone | ⟨d, hd, hkey, hturned⟩
    · simp [Batch.tx] at hnone
    · obtain ⟨rx, hrx, rfl⟩ := List.mem_map.mp hd
      exact ⟨rx, hrx, hkey.symm, hturned⟩
  · intro frame hframe
    rcases hturning.wheel frame hframe with hold | ⟨d, hd, hkey, hsame⟩
    · left
      refine Multiset.mem_add.mpr (Or.inr (Multiset.mem_map_of_mem _ ?_))
      rw [a.timingWheel.pending_tick]
      exact Multiset.mem_add.mpr (Or.inr hold)
    · obtain ⟨rx, hrx, rfl⟩ := List.mem_map.mp hd
      exact Or.inr ⟨rx, hrx, hkey.symm, hsame⟩

end

namespace Host

variable {s s' : Host shape} {stranded : Multiset Entry}

lemma Intact.received (h : s.Intact) (rx : RxDescriptor) (hrx : rx ∈ s.runtime.received) :
    rx.length.toNat ≤ shape.umem.frameSize.toNat ∧
      SameBytes rx.address.toNat shape.umem.frameSize.toNat (s.received rx.address)
        s.runtime.umem := by
  refine h (rx.address, rx.length) ?_
  rw [held_eq]
  exact Multiset.mem_add.mpr (Or.inl (Multiset.mem_coe.mpr (List.mem_map.mpr ⟨rx, hrx, rfl⟩)))

lemma Intact.poll (h : s.Intact) (hholds : s.Holds names stranded) (rules : List ChaosRule) :
    (s.poll rules).Intact := by
  obtain ⟨lost, hpolled, -⟩ := hholds.poll rules
  have hlength := fun rx hrx => (h.received rx hrx).1
  obtain ⟨-, hpending⟩ := plane_turning hholds.keeps hlength rules
  have hwaiting : ∀ e ∈ s.runtime.waiting, e.2.toNat ≤ shape.umem.frameSize.toNat ∧
      SameBytes e.1.toNat shape.umem.frameSize.toNat (s.received e.1) (s.runtime.plane rules).2 := by
    intro e he
    obtain ⟨hfits, hsame⟩ := h e (by
      rw [held_eq]
      exact Multiset.mem_add.mpr (Or.inr he))
    exact ⟨hfits, hsame.trans (plane_waiting hholds.keeps hlength rules he)⟩
  intro e he
  rw [held, Host.poll, hpolled.rx_eq, hpolled.wheel_eq, Multiset.mem_add, Multiset.mem_map] at he
  rw [show (s.poll rules).runtime.umem = (s.runtime.plane rules).2 from hpolled.umem_eq]
  rcases he with hrx | ⟨frame, hframe, rfl⟩
  · exact hwaiting e (Multiset.mem_add.mpr (Or.inl hrx))
  · rcases hpending frame hframe with hold | ⟨rx, hrx, hkey, hsame⟩
    · exact hwaiting frame.key hold
    · obtain ⟨hfits, hbefore⟩ := h.received rx hrx
      rw [hkey]
      exact ⟨hfits, hbefore.trans hsame⟩

end Host

/-! ### The transmitted frames -/

/-- The frame was sent as it was received, with the MAC addresses exchanged and at most one bit
of the payload flipped. -/
def Transmission.TurnedAround (t : Transmission) : Prop :=
  TurnedFrom t.descriptor.address.toNat t.descriptor.length.toNat t.received t.sent

/-- The frames due at the next tick have equal MAC addresses. -/
def AfXdpRuntimeAdapter.DueSymmetric (a : AfXdpRuntimeAdapter shape) : Prop :=
  ∀ frame ∈ a.timingWheel.tick.1, ∀ i < 6,
    a.umem (frame.frameAddress.toNat + i) = a.umem (frame.frameAddress.toNat + (6 + i))

/-- A frame with equal MAC addresses is its own turned copy. -/
lemma turnedFrom_of_symmetric {address length size : ℕ} {m m' : Umem} (hsize : 12 ≤ size)
    (hlength : length ≤ size) (hsame : SameBytes address size m m')
    (hmacs : ∀ i < 6, m' (address + i) = m' (address + (6 + i))) :
    TurnedFrom address length m m' := by
  refine ⟨_, .swapped, fun x hx => ?_⟩
  have hframe : ∀ i < 12, m' (address + i) = m (address + i) := fun i hi =>
    hsame _ ⟨by omega, by omega⟩
  rw [swapMacs]
  split_ifs with hlow hhigh
  · obtain ⟨i, rfl⟩ := Nat.exists_eq_add_of_le hlow.1
    rw [hmacs i (by omega), hframe _ (by omega)]
    congr 1
    omega
  · obtain ⟨i, rfl⟩ := Nat.exists_eq_add_of_le hhigh.1
    rw [Nat.add_assoc, ← hmacs i (by omega), hframe _ (by omega)]
    congr 1
    omega
  · exact hsame x ⟨hx.1, by have := hx.2; omega⟩

namespace Host

variable {s : Host shape} {stranded : Multiset Entry} {count : ℕ}

lemma intact_start (hok : ((fresh : AfXdpRuntimeAdapter shape).init count).1 = .ok) :
    (start shape count).Intact := by
  obtain ⟨hposting, -, -⟩ := init_posting hok
  intro e he
  simp [held, hposting.rxRing_eq, hposting.wheel_eq] at he

/-- Every frame on the RX ring or in the wheel holds what was received in it. -/
lemma Reachable.intact {allowed : AfXdpRuntimeAdapter shape → Prop}
    (h : Reachable allowed count s) : s.Intact := by
  induction h with
  | start hok => exact intact_start hok
  | kernel hreachable hstep ih =>
    obtain ⟨stranded, hholds⟩ := hreachable.holds
    exact ih.kernel hholds hstep
  | poll hreachable _ rules ih =>
    obtain ⟨stranded, hholds⟩ := hreachable.holds
    exact ih.poll hholds rules

/-- What one poll transmits is turned around, if the frames due have equal MAC addresses. -/
lemma Intact.submissions_turned (h : s.Intact) (hholds : s.Holds names stranded)
    (hdue : s.runtime.DueSymmetric) (rules : List ChaosRule) {e : TxDescriptor × Umem}
    (he : e ∈ submissions (s.runtime.pollOnce rules).2.log) :
    Transmission.TurnedAround ⟨e.1, e.2, s.received e.1.address⟩ := by
  have hlength := fun rx hrx => (h.received rx hrx).1
  rcases pollOnce_submissions hholds.initialized hholds.keeps rules he with
    ⟨humem, frame, hframe, heq⟩ | ⟨humem, frame, hframe, heq⟩
  · rw [humem, heq]
    obtain ⟨hfits, hsame⟩ := h frame.key (by
      refine Multiset.mem_add.mpr (Or.inr (Multiset.mem_map_of_mem _ ?_))
      rw [s.runtime.timingWheel.pending_tick]
      exact Multiset.mem_add.mpr (Or.inl hframe))
    have hsize := shape.umem.frameSize_ge
    rw [kMinXdpFrameSizeBytes] at hsize
    exact turnedFrom_of_symmetric (by omega) hfits hsame (hdue frame hframe)
  · obtain ⟨rx, hrx, hkey, hheader, hturned⟩ :=
      (plane_turning hholds.keeps hlength rules).1 frame hframe
    obtain ⟨hfits, hsame⟩ := h.received rx hrx
    have heq' : e.1 = txDescriptor rx.address rx.length := by
      rw [heq, show frame.frameAddress = rx.address from congrArg Prod.fst hkey,
        show frame.frameLength = rx.length from congrArg Prod.snd hkey]
    rw [humem, heq']
    exact hturned.congr hheader (hsame.mono hfits).symm (SameBytes.refl _)

/-- In every run whose polls only ever find due frames with equal MAC addresses, everything
transmitted was turned around. -/
theorem transmitted_turned (h : Reachable DueSymmetric count s) :
    ∀ t ∈ s.transmitted, t.TurnedAround := by
  induction h with
  | start hok => exact fun t ht => absurd ht List.not_mem_nil
  | kernel _ hstep ih =>
    obtain ⟨-, -, -, htransmitted⟩ := hstep.same
    rwa [htransmitted]
  | poll hreachable hdue rules ih =>
    intro t ht
    obtain ⟨stranded, hholds⟩ := hreachable.holds
    rw [Host.poll, List.mem_append, List.mem_map] at ht
    rcases ht with hold | ⟨e, he, rfl⟩
    · exact ih t hold
    · exact hreachable.intact.submissions_turned hholds hdue rules he

/-- The datagram is passed on at once, turned around. -/
theorem transmitted_turned_marked :
    (markedReceived.poll []).transmitted.map (·.descriptor) = [⟨0, 42, 0⟩] ∧
    ∀ t ∈ (markedReceived.poll []).transmitted, t.TurnedAround := by
  have hdue : markedReceived.runtime.DueSymmetric := by
    have hnone : markedReceived.runtime.timingWheel.tick.1 = [] := by decide
    intro frame hframe
    rw [hnone] at hframe
    exact absurd hframe List.not_mem_nil
  exact ⟨by decide +kernel, transmitted_turned (.poll reachable_markedReceived hdue [])⟩

/-- The datagram is delayed until the next poll, which transmits it as it was received. -/
theorem delayed_not_turned :
    Reachable (fun _ => True) 1 ((markedReceived.poll [delayRule 1]).poll []) ∧
    ∃ t ∈ ((markedReceived.poll [delayRule 1]).poll []).transmitted, ¬ t.TurnedAround := by
  have hsent : ((markedReceived.poll [delayRule 1]).poll []).transmitted.map (fun t =>
      (t.descriptor, t.sent 0, t.received 6,
        (run (parsePacket (some 0) 42) t.received).1.payloadOffset)) =
      [(⟨0, 42, 0⟩, 0, 1, 42)] := by
    decide +kernel
  obtain ⟨t, ht, heq⟩ := List.map_eq_singleton_iff.mp hsent
  obtain ⟨hdescriptor, hbyte, hsource, hpayload⟩ : t.descriptor = ⟨0, 42, 0⟩ ∧ t.sent 0 = 0 ∧
      t.received 6 = 1 ∧ (run (parsePacket (some 0) 42) t.received).1.payloadOffset = 42 := by
    simpa only [Prod.mk.injEq] using heq
  refine ⟨.poll (.poll reachable_markedReceived trivial _) trivial _, t, ?_, ?_⟩
  · rw [ht]
    exact List.mem_singleton_self t
  · intro hturned
    rw [Transmission.TurnedAround, hdescriptor] at hturned
    have hframe : TurnedFrom 0 42 t.received t.sent := hturned
    have hfirst := hframe.destination_eq (i := 0) (by rw [hpayload]; decide) (by decide) (by decide)
    rw [Nat.zero_add, Nat.zero_add, hbyte, hsource] at hfirst
    exact absurd hfirst (by decide)

end Host

end ChronosX
