import ChronosX.Live.Custody

/-!
# What an iteration does

The reflector is what live mode is for: a machine with four queues that returns completed frames,
sends every received packet back with its MAC addresses exchanged, and returns the frames that hold
no packet. It knows nothing of owner tags, of batches in progress or of calls that fail. How many
entries a turn handles is open, as the library may find fewer than there are, but a queue with an
entry does not wait. From every state in which the frames are in custody, an iteration of `run_live`
does exactly one turn of the reflector.
-/

namespace ChronosX

open Ledger Mem

/-- The descriptor that sends a frame back. -/
def PacketDescriptor.reply (d : PacketDescriptor) : TxDescriptor :=
  { address := d.frameAddress, length := d.frameLength, options := 0 }

/-! ### The turns of the reflector -/

namespace Reflector

variable (r : Reflector) (done received : ℕ)

/-- The first entries of the RX queue, as the data plane gets them. -/
def batch : List PacketDescriptor := (r.rx.take received).map Poll.packetDescriptor

/-- Those whose frame holds a packet. -/
def packets : List PacketDescriptor := (r.batch received).filter (·.HoldsPacket r.umem)

/-- Those whose frame does not. -/
def others : List PacketDescriptor := (r.batch received).filter fun d => !d.HoldsPacket r.umem

/-- One turn, with `done` completions and `received` received frames. -/
def turn : Reflector where
  fill := r.fill ++ r.completion.take done ++ (r.others received).map (·.frameAddress)
  completion := r.completion.drop done
  rx := r.rx.drop received
  tx := r.tx ++ (r.packets received).map (·.reply)
  umem := swapAll (r.packets received) r.umem
  packetsSeen := r.packetsSeen + UInt64.ofNat received
  packetsDropped := r.packetsDropped + UInt64.ofNat (r.others received).length
  txSubmitted := r.txSubmitted + UInt64.ofNat (r.packets received).length
  completed := r.completed + UInt64.ofNat done

/-- A number of entries of a queue that a turn may handle. -/
structure Handles {α : Type} (count : ℕ) (queue : List α) : Prop where
  le_batch : count ≤ kDataPlaneBatchSize
  le_length : count ≤ queue.length
  pos : queue ≠ [] → 0 < count

/-- The second reflector is the first one after a turn. -/
def Turns (r r' : Reflector) : Prop :=
  ∃ done received, Handles done r.completion ∧ Handles received r.rx ∧ r' = r.turn done received

/-- The reflector after the received frames have been judged. -/
def judged : Reflector :=
  { r with
    rx := r.rx.drop received
    umem := swapAll (r.packets received) r.umem
    packetsSeen := r.packetsSeen + UInt64.ofNat (r.batch received).length
    packetsDropped := r.packetsDropped + UInt64.ofNat (r.others received).length }

/-- The reflector after the received frames have been handled. -/
def forwarded : Reflector :=
  ((r.judged received).returns ((r.others received).map (·.frameAddress)) 0).submits
    ((r.packets received).map (·.reply))

variable {received}

lemma length_batch (h : received ≤ r.rx.length) : (r.batch received).length = received := by
  rw [batch, List.length_map, List.length_take, Nat.min_eq_left h]

lemma length_packets_add_others (h : received ≤ r.rx.length) :
    (r.packets received).length + (r.others received).length = received := by
  rw [packets, others, ← List.length_append,
    (List.filter_append_perm (·.HoldsPacket r.umem) (r.batch received)).length_eq, length_batch r h]

/-- A turn returns the completed frames and then handles the received ones. -/
lemma turn_eq (h : received ≤ r.rx.length) :
    r.turn done received =
      (({ r with completion := r.completion.drop done } : Reflector).returns
        (r.completion.take done) (UInt64.ofNat done)).forwarded received := by
  have hbatch : UInt64.ofNat received = UInt64.ofNat (r.batch received).length := by
    rw [length_batch r h]
  rw [turn, hbatch]
  simp only [forwarded, judged, returns, submits, List.length_map, UInt64.add_zero]
  rfl

/-- The frames that hold a packet and the others are the frames of the batch. -/
lemma tagged_batch (received : ℕ) (t : FrameOwner) :
    tagged t ((r.batch received).map (·.frameAddress) : Multiset UInt64) =
      tagged t ((r.others received).map (·.frameAddress) : Multiset UInt64) +
        tagged t ((r.packets received).map (·.frameAddress) : Multiset UInt64) := by
  rw [← tagged_add, Multiset.coe_add, ← List.map_append]
  refine congrArg (tagged t) (Multiset.coe_eq_coe.mpr (List.Perm.map _ ?_))
  exact (List.filter_append_perm (·.HoldsPacket r.umem) (r.batch received)).symm.trans
    List.perm_append_comm

lemma map_frameAddress_batch (received : ℕ) :
    (r.batch received).map (·.frameAddress) = (r.rx.take received).map (·.address) := by
  rw [batch, List.map_map]
  rfl

end Reflector

namespace Live

variable {lib : Libxdp} {shape : RuntimeShape} {l : Live lib shape} {names : Multiset UInt64}
  {rest : Multiset Entry}

/-- The UMEM is there, and the received packets lie in their frames. -/
structure Mapped (l : Live lib shape) : Prop where
  umemArea_eq : ∃ base, l.socket.umemArea = some base
  umemSize_eq : l.socket.umemSize = shape.umem.umemSizeBytes
  length_le : ∀ rx ∈ l.view.rx, rx.length.toNat ≤ shape.umem.frameSize.toNat

/-! ### The batch -/

section

variable {received : ℕ} {ring : lib.rx.Ring}

/-- The view when the RX ring has been read. -/
lemma view_consumed (h : lib.rx.Drops l.socket.rx received ring) :
    ({ l with socket.rx := ring } : Live lib shape).view =
      { l.view with rx := l.view.rx.drop received } := by
  rw [view]
  simp only [h.entries_eq]
  rfl

/-- The received frames leave the RX ring. -/
lemma Keeps.consumed (h : l.Keeps names rest) (hdrops : lib.rx.Drops l.socket.rx received ring) :
    ({ l with socket.rx := ring } : Live lib shape).Keeps names
      (tagged .fillRing ((l.view.rx.take received).map (·.address) : Multiset UInt64) + rest) := by
  refine h.of_eq rfl ?_
  rw [view_consumed hdrops]
  simp only [Reflector.ledger]
  rw [tagged_take_add_drop FrameOwner.fillRing received (l.view.rx.map (·.address)),
    List.map_take, List.map_drop]
  abel

/-- The received frames are different frames of the UMEM. -/
lemma Keeps.batch_owned (h : l.Keeps names rest) (received : ℕ) :
    ((l.view.batch received).map (·.frameAddress)).Nodup ∧
      ∀ d ∈ l.view.batch received, ∃ i, d.frameAddress = shape.umem.address i := by
  rw [Reflector.map_frameAddress_batch]
  have hsublist : ((l.view.rx.take received).map (·.address)).Sublist
      (l.view.rx.map (·.address)) := (List.take_sublist _ _).map _
  have hentries : tagged .fillRing (l.view.rx.map (·.address) : Multiset UInt64) ≤
      l.view.ledger + rest := by
    refine le_trans ?_ (Multiset.le_add_right _ _)
    rw [Reflector.ledger, add_assoc, add_assoc]
    exact (Multiset.le_add_right _ _).trans (Multiset.le_add_left _ _)
  refine ⟨?_, fun d hd => ?_⟩
  · have hnodup := Multiset.nodup_of_le (Multiset.map_le_map hentries) h.agrees.nodup
    rw [map_fst_tagged, Multiset.coe_nodup] at hnodup
    exact hnodup.sublist hsublist
  · have haddress : d.frameAddress ∈ (l.view.batch received).map (·.frameAddress) :=
      List.mem_map_of_mem hd
    rw [Reflector.map_frameAddress_batch] at haddress
    have hentry : (d.frameAddress, FrameOwner.fillRing) ∈ l.view.ledger + rest :=
      Multiset.mem_of_le hentries (mem_tagged.mpr ⟨hsublist.mem haddress, rfl⟩)
    obtain ⟨i, hi, -⟩ := h.agrees.owned _ hentry
    exact ⟨i, hi⟩

lemma Mapped.batch_length_le (h : l.Mapped) {d : PacketDescriptor}
    (hd : d ∈ l.view.batch received) : d.frameLength.toNat ≤ shape.umem.frameSize.toNat := by
  obtain ⟨rx, hrx, rfl⟩ := List.mem_map.mp hd
  exact h.length_le rx (List.mem_of_mem_take hrx)

lemma Keeps.batch_valid (h : l.Keeps names rest) (hmapped : l.Mapped) {d : PacketDescriptor}
    (hd : d ∈ l.view.batch received) : d.Valid (some 0) l.socket.umemSizeBytes := by
  obtain ⟨i, hi⟩ := (h.batch_owned received).2 d hd
  refine (d.valid_iff _ _).mpr ⟨0, rfl, ?_⟩
  rw [LibxdpSocket.umemSizeBytes, hmapped.umemSize_eq, hi]
  exact shape.umem.address_add_le i (hmapped.batch_length_le hd)

lemma Keeps.batch_disjoint (h : l.Keeps names rest) (hmapped : l.Mapped) :
    (l.view.batch received).Pairwise PacketDescriptor.Disjoint := by
  obtain ⟨hnodup, howned⟩ := h.batch_owned received
  rw [List.Nodup, List.pairwise_map] at hnodup
  refine hnodup.imp_of_mem ?_
  intro d d' hd hd' hne x hx hx'
  obtain ⟨i, hi⟩ := howned d hd
  obtain ⟨j, hj⟩ := howned d' hd'
  have hframe : InFrame (shape.umem.address i).toNat shape.umem.frameSize.toNat x :=
    hi ▸ ⟨hx.1, hx.2.trans_le (Nat.add_le_add_left (hmapped.batch_length_le hd) _)⟩
  have hframe' : InFrame (shape.umem.address j).toNat shape.umem.frameSize.toNat x :=
    hj ▸ ⟨hx'.1, hx'.2.trans_le (Nat.add_le_add_left (hmapped.batch_length_le hd') _)⟩
  exact hne (by rw [hi, hj, UmemShape.inFrame_inj hframe hframe'])

/-- The data plane's run over the received frames. -/
lemma Keeps.passed (h : l.Keeps names rest) (hmapped : l.Mapped)
    (hbatch : received ≤ kDataPlaneBatchSize) :
    Passed (l.view.batch received) l.timingWheel l.umem
      (run (processPacketBatch (l.socket.umemArea.map fun _ => 0) l.socket.umemSizeBytes []
        kDefaultTimingWheelTickNs (l.view.batch received) l.timingWheel
        (List.replicate kDataPlaneBatchSize {})
        (List.replicate kDataPlaneBatchSize {})) l.umem) := by
  obtain ⟨base, hbase⟩ := hmapped.umemArea_eq
  have hlength : (l.view.batch received).length ≤ kDataPlaneBatchSize := by
    rw [Reflector.batch, List.length_map]
    exact (List.length_take_le _ _).trans hbatch
  rw [hbase, Option.map_some]
  refine passed_processPacketBatch _ _ _ (fun d hd => h.batch_valid hmapped hd)
    (h.batch_disjoint hmapped) ?_ ?_
  · rwa [List.length_replicate]
  · rwa [List.length_replicate]

end

/-! ### The stages of an iteration -/

lemma process_of_passed {ds : List PacketDescriptor}
    (h : Passed ds l.timingWheel l.umem
      (run (processPacketBatch (l.socket.umemArea.map fun _ => 0) l.socket.umemSizeBytes []
        kDefaultTimingWheelTickNs ds l.timingWheel (List.replicate kDataPlaneBatchSize {})
        (List.replicate kDataPlaneBatchSize {})) l.umem)) :
    l.process ds = ((ds.filter (·.HoldsPacket l.umem)).map (·.passed),
      (ds.filter fun d => !d.HoldsPacket l.umem).map (·.passed), { l with
        umem := swapAll (ds.filter (·.HoldsPacket l.umem)) l.umem
        packetsSeen := l.packetsSeen + UInt64.ofNat ds.length
        packetsDropped := l.packetsDropped +
          UInt64.ofNat (ds.filter fun d => !d.HoldsPacket l.umem).length }) := by
  simp only [process, h.tx_eq, h.recycle_eq, h.umem_eq, h.timingWheel_eq, h.packetsSeen_eq,
    h.packetsDropped_eq]

/-- The received frames are handed to the data plane, which shares them out. -/
lemma process_spec {received : ℕ} {ring : lib.rx.Ring} (h : l.Keeps names rest)
    (hmapped : l.Mapped) (hbatch : received ≤ kDataPlaneBatchSize)
    (hdrops : lib.rx.Drops l.socket.rx received ring) :
    let out := (l.view.rx.take received).foldl receiveOne ([], { l with socket.rx := ring })
    ∃ l', out.2.process out.1 =
        ((l.view.packets received).map (·.passed), (l.view.others received).map (·.passed), l') ∧
      Steady names l l' ∧ l'.view = l.view.judged received ∧
      l'.Keeps names
        (tagged .dataPlane ((l.view.others received).map (·.frameAddress) : Multiset UInt64) +
          (tagged .dataPlane ((l.view.packets received).map (·.frameAddress) : Multiset UInt64) +
            rest)) := by
  obtain ⟨allocator, hsame, hreceived, hkeeps⟩ := foldl_receiveOne _ [] (h.consumed hdrops)
  rw [← Reflector.map_frameAddress_batch, Reflector.tagged_batch, add_assoc] at hkeeps
  let handed : Live lib shape := { l with socket.rx := ring, allocator }
  let judged : Live lib shape := { handed with
    umem := swapAll (l.view.packets received) l.umem
    packetsSeen := l.packetsSeen + UInt64.ofNat (l.view.batch received).length
    packetsDropped := l.packetsDropped + UInt64.ofNat (l.view.others received).length }
  have hprocess := process_of_passed (l := handed) (h.passed hmapped hbatch)
  intro out
  refine ⟨judged, ?_, ?_, ?_, hkeeps.of_eq rfl rfl⟩
  · simp only [out, hreceived, List.nil_append]
    exact hprocess
  · exact ⟨hsame, rfl, rfl, rfl, rfl, rfl⟩
  · rw [view]
    simp only [judged, handed, hdrops.entries_eq]
    rfl

lemma map_frameAddress_passed (ds : List PacketDescriptor) :
    (ds.map (·.passed)).map (·.frameAddress) = ds.map (·.frameAddress) := by
  rw [List.map_map]
  rfl

lemma map_txDescriptorOf_passed (ds : List PacketDescriptor) :
    (ds.map (·.passed)).map txDescriptorOf = ds.map (·.reply) := by
  rw [List.map_map]
  rfl

lemma process_nil (l : Live lib shape) : l.process [] = ([], [], l) := by
  have hseen : l.packetsSeen + UInt64.ofNat 0 = l.packetsSeen := UInt64.add_zero _
  have hdropped : l.packetsDropped + UInt64.ofNat 0 = l.packetsDropped := UInt64.add_zero _
  have hprocess : l.process [] = ([], [], { l with
      packetsSeen := l.packetsSeen + UInt64.ofNat 0
      packetsDropped := l.packetsDropped + UInt64.ofNat 0 }) := rfl
  rw [hprocess, hseen, hdropped]

/-- When no descriptor is handed on, nothing happens. -/
lemma forward_of_receives_none (sendto : LibxdpSocket lib → Option SendError)
    {rx : List RxDescriptor} (h : rx.foldl receiveOne ([], l) = ([], l)) :
    l.forward sendto rx = l := by
  simp only [forward, h, process_nil, List.foldl_nil]

section

variable (hlib : lib.Lawful) (sendto : LibxdpSocket lib → Option SendError)
include hlib

/-- The part of an iteration that handles received frames. -/
lemma forward_spec {received : ℕ} {ring : lib.rx.Ring} (h : l.Keeps names rest)
    (hample : l.Ample names) (hmapped : l.Mapped) (hbatch : received ≤ kDataPlaneBatchSize)
    (hdrops : lib.rx.Drops l.socket.rx received ring) :
    let l' := ({ l with socket.rx := ring } : Live lib shape).forward sendto
      (l.view.rx.take received)
    Steady names l l' ∧ l'.view = l.view.forwarded received ∧ l'.Keeps names rest := by
  obtain ⟨l₁, hprocess, hsteady₁, hview₁, hkeeps₁⟩ := process_spec h hmapped hbatch hdrops
  rw [← map_frameAddress_passed, ← map_frameAddress_passed] at hkeeps₁
  have hample₁ := hample.steady hsteady₁
  obtain ⟨hsteady₂, hview₂, hkeeps₂⟩ := foldl_recycleOne hlib _ hkeeps₁ hample₁
  obtain ⟨hsteady₃, hview₃, hkeeps₃⟩ :=
    foldl_submitOne hlib sendto _ hkeeps₂ (hample₁.steady hsteady₂)
  rw [hview₂, hview₁, map_frameAddress_passed, map_txDescriptorOf_passed] at hview₃
  intro l'
  have heq : l' = ((l.view.packets received).map (·.passed)).foldl
      (fun l frame => l.submitOne sendto frame)
      (((l.view.others received).map (·.passed)).foldl recycleOne l₁) := by
    simp only [l', forward, hprocess]
  rw [heq]
  exact ⟨hsteady₁.trans (hsteady₂.trans hsteady₃), hview₃, hkeeps₃⟩

/-! ### An iteration -/

/-- An iteration handles completions and then some of the received descriptors. -/
lemma iterate_eq_forward (l : Live lib shape) :
    ∃ received ring, Reflector.Handles received l.drainCompletions.view.rx ∧
      lib.rx.Drops l.drainCompletions.socket.rx received ring ∧
      l.iterate sendto = ({ l.drainCompletions with socket.rx := ring } : Live lib shape).forward
        sendto (l.drainCompletions.view.rx.take received) := by
  obtain ⟨available, ring, hconsume, hle, hpos, hdrops⟩ := hlib.rx.consume_eq
    l.drainCompletions.socket.rx (show kDataPlaneBatchSize < 2 ^ 32 by decide)
  obtain ⟨hbatch, hlength⟩ := Nat.le_min.mp hle
  refine ⟨available.toNat, ring, ⟨hbatch, hlength, hpos (by decide)⟩, hdrops, ?_⟩
  have hiterate : l.iterate sendto =
      if available.toNat = 0 then { l.drainCompletions with socket.rx := ring }
      else ({ l.drainCompletions with socket.rx := ring } : Live lib shape).forward
        sendto (l.drainCompletions.view.rx.take available.toNat) := by
    rw [iterate]
    simp only [LibxdpSocket.consumeRx, hconsume]
    rfl
  rw [hiterate]
  split_ifs with hnone
  · rw [hnone, List.take_zero, forward_of_receives_none sendto rfl]
  · rfl

/-- An iteration is one turn of the reflector. -/
lemma iterate_spec (h : l.Keeps names rest) (hample : l.Ample names) (hmapped : l.Mapped) :
    Steady names l (l.iterate sendto) ∧ l.view.Turns (l.iterate sendto).view ∧
      (l.iterate sendto).Keeps names rest := by
  obtain ⟨done, hdone, hsome, hsteady₁, hview₁, hkeeps₁⟩ := drainCompletions_spec hlib h hample
  obtain ⟨received, ring, hhandles, hdrops, heq⟩ := iterate_eq_forward hlib sendto l
  have hrx : l.drainCompletions.view.rx = l.view.rx := by
    rw [hview₁]
    rfl
  have hmapped₁ : l.drainCompletions.Mapped :=
    ⟨hsteady₁.umemArea_eq ▸ hmapped.umemArea_eq, hsteady₁.umemSize_eq ▸ hmapped.umemSize_eq,
      hrx ▸ hmapped.length_le⟩
  obtain ⟨hsteady₂, hview₂, hkeeps₂⟩ := forward_spec hlib sendto hkeeps₁ (hample.steady hsteady₁)
    hmapped₁ hhandles.le_batch hdrops
  rw [← heq] at hsteady₂ hview₂ hkeeps₂
  rw [hrx] at hhandles
  obtain ⟨hbatch, hlength⟩ := Nat.le_min.mp hdone
  refine ⟨hsteady₁.trans hsteady₂, ⟨done, received, ⟨hbatch, hlength, hsome⟩, hhandles, ?_⟩,
    hkeeps₂⟩
  rw [hview₂, hview₁, Reflector.turn_eq _ _ hhandles.le_length]

end

end Live

end ChronosX
