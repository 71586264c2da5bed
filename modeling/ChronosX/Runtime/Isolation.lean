import ChronosX.DataPlane.Effect
import ChronosX.Runtime.RxOwnership

/-!
# Frame isolation

A poll writes to the UMEM in the data plane only, and there one received descriptor changes the
MAC addresses at the start of its frame and at most one payload byte. The payload is the one the
IPv4 header announces within the descriptor's length, and the length is checked against the whole
UMEM: the byte lies in the frame that the descriptor names exactly when the offset that the hash
selects is below the frame size.
-/

namespace ChronosX

open Mem AfXdpRuntimeAdapter

variable {shape : RuntimeShape}

/-! ### The stages of a poll that keep the UMEM -/

namespace Poll

@[simp] lemma umem_refillOne (p : Poll shape) (frame : FrameHandle) (expectedOwner : FrameOwner) :
    (p.refillOne frame expectedOwner).adapter.umem = p.adapter.umem := by
  simp only [refillOne]
  split_ifs <;> rfl

@[simp] lemma umem_submitOne (p : Poll shape) (frame : ProcessedFrame) :
    (p.submitOne frame).adapter.umem = p.adapter.umem := by
  simp only [submitOne]
  split_ifs <;> rfl

@[simp] lemma umem_drainOne (p : Poll shape) (address : UInt64) :
    (p.drainOne address).adapter.umem = p.adapter.umem := by
  simp only [drainOne]
  split_ifs
  · rfl
  · exact p.umem_refillOne _ _

@[simp] lemma umem_recycleOne (p : Poll shape) (frame : ProcessedFrame) :
    (p.recycleOne frame).adapter.umem = p.adapter.umem := by
  simp only [recycleOne]
  split_ifs
  · rfl
  · exact p.umem_refillOne _ _

/-- A loop keeps the UMEM when its body does. -/
lemma umem_foldl {α : Type} {f : Poll shape → α → Poll shape}
    (hf : ∀ p x, (f p x).adapter.umem = p.adapter.umem) (l : List α) (p : Poll shape) :
    (l.foldl f p).adapter.umem = p.adapter.umem := by
  induction l generalizing p with
  | nil => rfl
  | cons x l ih => rw [List.foldl_cons, ih, hf]

@[simp] lemma umem_submitTx (p : Poll shape) (frames : List ProcessedFrame) :
    (p.submitTx frames).adapter.umem = p.adapter.umem :=
  umem_foldl umem_submitOne frames p

@[simp] lemma umem_refillRecycled (p : Poll shape) (frames : List ProcessedFrame) :
    (p.refillRecycled frames).adapter.umem = p.adapter.umem :=
  umem_foldl umem_recycleOne frames p

@[simp] lemma umem_drainCompletions (p : Poll shape) :
    p.drainCompletions.adapter.umem = p.adapter.umem :=
  umem_foldl umem_drainOne _ _

@[simp] lemma umem_releaseDelayed (p : Poll shape) :
    p.releaseDelayed.adapter.umem = p.adapter.umem :=
  umem_foldl (fun p frame => p.umem_submitTx [expiredFrame frame]) _ _

lemma umem_receiveOne (acc : List PacketDescriptor × Poll shape) (rx : RxDescriptor) :
    (receiveOne acc rx).2.adapter.umem = acc.2.adapter.umem := by
  simp only [receiveOne]
  split_ifs <;> rfl

@[simp] lemma umem_receive (p : Poll shape) : p.receive.2.adapter.umem = p.adapter.umem := by
  rw [receive_eq]
  suffices h : ∀ acc : List PacketDescriptor × Poll shape,
      (p.adapter.received.foldl receiveOne acc).2.adapter.umem = acc.2.adapter.umem from h _
  induction p.adapter.received with
  | nil => exact fun _ => rfl
  | cons rx l ih =>
    intro acc
    rw [List.foldl_cons, ih, umem_receiveOne]

end Poll

namespace AfXdpRuntimeAdapter

lemma umem_atReceive (a : AfXdpRuntimeAdapter shape) : a.atReceive.adapter.umem = a.umem := by
  rw [atReceive, Poll.umem_releaseDelayed, Poll.umem_drainCompletions]

/-- The data plane's run over some of the received frames. -/
def planeOver (a : AfXdpRuntimeAdapter shape) (rules : List ChaosRule)
    (ds : List PacketDescriptor) : Batch shape.wheel × Umem :=
  run (processPacketBatch (some 0) shape.umem.umemSizeBytes rules kDefaultTimingWheelTickNs ds
    a.atReceive.receive.2.adapter.timingWheel (List.replicate kDataPlaneBatchSize {})
    (List.replicate kDataPlaneBatchSize {})) a.umem

/-- The data plane is the only part of a poll that writes to the UMEM. -/
lemma umem_pollOnce {a : AfXdpRuntimeAdapter shape} (hinit : a.initialized = true)
    (rules : List ChaosRule) :
    (a.pollOnce rules).2.adapter.umem = (a.planeOver rules a.atReceive.receive.1).2 := by
  rw [pollOnce_snd hinit, Poll.umem_refillRecycled, Poll.umem_submitTx, atTransmit,
    Poll.processed_umem, Poll.batch, Poll.umem_receive, umem_atReceive]
  rfl

end AfXdpRuntimeAdapter

/-! ### The bytes one descriptor changes -/

section

variable {umemSizeBytes : UInt64} {rules : List ChaosRule} {tickNs : UInt64} {base : ℕ}
  {d : PacketDescriptor} {m : Umem}

/-- A byte that judging changes belongs to a valid descriptor with a packet that is sent on, and
is a byte of the MAC addresses or the selected payload byte. -/
lemma changed_judge {x : ℕ}
    (h : (run (judge (some base) umemSizeBytes rules tickNs d) m).2 x ≠ m x) :
    d.Valid (some base) umemSizeBytes ∧ Forwards rules (packetOf base d m) ∧
      ∃ i, x = base + d.frameAddress.toNat + i ∧ (i < 12 ∨
        Corrupts rules (packetOf base d m) ∧ i = corruptedOffset rules (packetOf base d m)) := by
  have hown : OwnByte (some base) umemSizeBytes d x := by
    by_contra hnot
    apply h
    apply run_of_notMem_accesses
    exact fun hmem => hnot ((judge_sat _ _ _ _ d m).accesses_ok x hmem)
  rw [run_judge umemSizeBytes rules tickNs base m hown.valid] at h
  by_cases hforwards : Forwards rules (packetOf base d m)
  · refine ⟨hown.valid, hforwards, ?_⟩
    obtain ⟨base', hbase, -, hle, hlt⟩ := hown
    cases hbase
    obtain ⟨i, rfl⟩ := Nat.exists_eq_add_of_le hle
    refine ⟨i, rfl, ?_⟩
    rw [if_pos hforwards] at h
    have hsent : SentOn rules _ _ _ m _ :=
      sentOn_turnAround (parsed_packetOf base d m) hforwards.1
    by_contra hnot
    rw [not_or, not_lt, not_and] at hnot
    exact h (hsent.kept i hnot.1 (Nat.lt_of_add_lt_add_left hlt) hnot.2)
  · rw [if_neg hforwards] at h
    exact absurd rfl h

/-- All changes stay within the length of the descriptor. -/
lemma changed_judge_within_length {x : ℕ}
    (h : (run (judge (some base) umemSizeBytes rules tickNs d) m).2 x ≠ m x) :
    InFrame (base + d.frameAddress.toNat) d.frameLength.toNat x := by
  have hown : OwnByte (some base) umemSizeBytes d x := by
    by_contra hnot
    refine h (run_of_notMem_accesses _ m fun hmem => hnot ?_)
    exact (judge_sat _ _ _ _ d m).accesses_ok x hmem
  obtain ⟨base', hbase, -, hbyte⟩ := hown
  cases hbase
  exact hbyte

/-- All changes stay within `size` bytes exactly when the selected byte does. -/
lemma changed_judge_within_iff {size : ℕ} (hsize : 12 ≤ size) :
    (∀ x, (run (judge (some base) umemSizeBytes rules tickNs d) m).2 x ≠ m x →
      InFrame (base + d.frameAddress.toNat) size x) ↔
      (d.Valid (some base) umemSizeBytes → Forwards rules (packetOf base d m) →
        Corrupts rules (packetOf base d m) →
        corruptedOffset rules (packetOf base d m) < size) := by
  constructor
  · intro hwithin hvalid hforwards hcorrupts
    have hsent : SentOn rules _ _ _ m _ :=
      sentOn_turnAround (parsed_packetOf base d m) hforwards.1
    have hchanged := xor_one_ne
      (m (base + d.frameAddress.toNat + corruptedOffset rules (packetOf base d m)))
    rw [← hsent.corrupted hcorrupts] at hchanged
    rw [run_judge umemSizeBytes rules tickNs base m hvalid, if_pos hforwards] at hwithin
    exact Nat.lt_of_add_lt_add_left (hwithin _ hchanged).2
  · intro hselected x hx
    obtain ⟨hvalid, hforwards, i, rfl, hi⟩ := changed_judge hx
    refine ⟨Nat.le_add_right _ _, Nat.add_lt_add_left ?_ _⟩
    rcases hi with hi | ⟨hcorrupts, rfl⟩
    · exact hi.trans_le hsize
    · exact hselected hvalid hforwards hcorrupts

end

/-- A poll processes a received descriptor, after the descriptors before it. The descriptor names
a frame, and the bytes that its processing changes all lie in that frame exactly when it holds no
packet to corrupt, or the offset of the byte to corrupt is below the frame size. They do when the
length of the descriptor is at most the frame size. Whatever a poll changes in the UMEM, it changes
by processing descriptors so. -/
theorem frame_isolation_iff {a : AfXdpRuntimeAdapter shape} (hinit : a.initialized = true)
    (rules : List ChaosRule) (before after : List PacketDescriptor) (d : PacketDescriptor)
    (hd : a.atReceive.receive.1 = before ++ d :: after) :
    let s := a.planeOver rules before
    let packet := packetOf 0 d s.2
    (a.pollOnce rules).2.adapter.umem = (a.planeOver rules (before ++ d :: after)).2 ∧
    (∃ i, d.frameAddress = shape.umem.address i) ∧
    ((∀ x, (run (processDescriptor (some 0) shape.umem.umemSizeBytes rules
          kDefaultTimingWheelTickNs s.1 d) s.2).2 x ≠ s.2 x →
        InFrame d.frameAddress.toNat shape.umem.frameSize.toNat x) ↔
      (d.Valid (some 0) shape.umem.umemSizeBytes → Forwards rules packet → Corrupts rules packet →
        corruptedOffset rules packet < shape.umem.frameSize.toNat)) ∧
    (d.frameLength.toNat ≤ shape.umem.frameSize.toNat →
      ∀ x, (run (processDescriptor (some 0) shape.umem.umemSizeBytes rules
          kDefaultTimingWheelTickNs s.1 d) s.2).2 x ≠ s.2 x →
        InFrame d.frameAddress.toNat shape.umem.frameSize.toNat x) := by
  intro s packet
  have hjudge := (run_processDescriptor (some 0) shape.umem.umemSizeBytes rules
    kDefaultTimingWheelTickNs s.1 d s.2).1
  refine ⟨by rw [umem_pollOnce hinit, hd], ?_, ?_, fun hlength x hx => ?_⟩
  · have hmem : d ∈ a.atReceive.receive.1 := by
      rw [hd]
      exact List.mem_append_right before List.mem_cons_self
    obtain ⟨rx, -, i, hi, rfl⟩ := mem_receive hmem
    exact ⟨i, hi⟩
  · have hsize : 12 ≤ shape.umem.frameSize.toNat :=
      Nat.le_trans (by decide) shape.umem.frameSize_ge
    rw [← changed_judge_within_iff hsize, Nat.zero_add, hjudge]
  · rw [hjudge] at hx
    obtain ⟨hle, hlt⟩ := changed_judge_within_length hx
    rw [Nat.zero_add] at hle hlt
    exact ⟨hle, hlt.trans_le (Nat.add_le_add_left hlength _)⟩

/-- A UDP datagram of 4094 bytes at the start of the UMEM, with addresses and ports zero. -/
def longDatagram : Umem
  | 12 => 0x08
  | 14 => 0x45
  | 16 => 0x0F
  | 17 => 0xF0
  | 23 => 17
  | 38 => 0x0F
  | 39 => 0xDC
  | _  => 0

/-- An adapter with both frames posted, whose RX ring names the first one with the length of the
long datagram. -/
def longFrameReceived : AfXdpRuntimeAdapter Host.oneTxSlot :=
  { (AfXdpRuntimeAdapter.fresh.init 2).2 with
    socket := ((AfXdpRuntimeAdapter.fresh.init 2).2.socket.injectRx [⟨0, 4094, 0⟩]).2
    umem := longDatagram }

/-- A rule that corrupts packets with the given probability. -/
def corruptRule (probability : UInt16) : ChaosRule := { probability, action := .corrupt }

/-- A rule that corrupts every packet selects the first payload byte, so that even the long
datagram is corrupted in its own frame. -/
theorem frame_isolation_iff_always :
    corruptedOffset [corruptRule 10000] (packetOf 0 ⟨0, 4094, 0⟩
      (longFrameReceived.planeOver [corruptRule 10000] []).2) = 42 ∧
    ∀ x, (run (processDescriptor (some 0) Host.oneTxSlot.umem.umemSizeBytes [corruptRule 10000]
        kDefaultTimingWheelTickNs (longFrameReceived.planeOver [corruptRule 10000] []).1
        ⟨0, 4094, 0⟩) (longFrameReceived.planeOver [corruptRule 10000] []).2).2 x ≠
        (longFrameReceived.planeOver [corruptRule 10000] []).2 x →
      InFrame (0 : UInt64).toNat Host.oneTxSlot.umem.frameSize.toNat x := by
  have hoffset : corruptedOffset [corruptRule 10000] (packetOf 0 ⟨0, 4094, 0⟩
      (longFrameReceived.planeOver [corruptRule 10000] []).2) = 42 := by
    decide +kernel
  have hiff := (frame_isolation_iff (a := longFrameReceived) (by decide) [corruptRule 10000] [] []
    ⟨0, 4094, 0⟩ (by decide)).2.2.1
  refine ⟨hoffset, hiff.mpr fun _ _ _ => ?_⟩
  rw [hoffset]
  decide

/-- A rule that corrupts nearly every packet selects byte 2335 of the long datagram: a byte of the
second frame, which the kernel owns. -/
theorem corrupts_other_frame :
    Driven (fun _ => True) longFrameReceived ∧
    longFrameReceived.atReceive.receive.1 = [⟨0, 4094, 0⟩] ∧
    longFrameReceived.allocator.ownerOf 1 = .fillRing ∧
    Host.oneTxSlot.umem.address ⟨1, by decide⟩ = 2048 ∧
    longFrameReceived.umem 2335 = 0 ∧
    (longFrameReceived.pollOnce [corruptRule 9999]).2.adapter.umem 2335 = 1 :=
  ⟨.outside (.init .fresh 2) _ _, by decide +kernel, by decide +kernel, by decide +kernel, rfl,
    by decide +kernel⟩

end ChronosX
