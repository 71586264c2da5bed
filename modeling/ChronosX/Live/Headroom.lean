import ChronosX.Live.Conservation

/-!
# Live mode and headroom

`handle_from_address` accepts the start of a frame only, and the loop over the received descriptors
skips what it does not accept, without returning the frame. With a kernel that leaves any headroom
in front of its packets no descriptor is ever accepted: live mode receives one packet in each posted
frame, handles none of them, and then no frame is left.
-/

namespace ChronosX

open Mem

/-- An address inside a frame is not the start of one. -/
lemma UmemShape.address_add_ne {shape : UmemShape} {headroom : UInt64} (hpos : 0 < headroom.toNat)
    (hlt : headroom.toNat < shape.frameSize.toNat) (i j : Fin shape.frameCount) :
    shape.address i + headroom ≠ shape.address j := by
  intro heq
  have hnat := congrArg UInt64.toNat heq
  have hbound : i.val * shape.frameSize.toNat + headroom.toNat < 2 ^ 64 := by
    calc i.val * shape.frameSize.toNat + headroom.toNat
        < i.val * shape.frameSize.toNat + shape.frameSize.toNat := Nat.add_lt_add_left hlt _
      _ = (i.val + 1) * shape.frameSize.toNat := (Nat.succ_mul _ _).symm
      _ ≤ shape.frameCount * shape.frameSize.toNat := Nat.mul_le_mul_right _ i.isLt
      _ < 2 ^ 64 := shape.umemSize_lt
  rw [UInt64.toNat_add, address, address, handle_address, handle_address,
    Nat.mod_eq_of_lt hbound] at hnat
  have hmod := congrArg (· % shape.frameSize.toNat) hnat
  simp only [Nat.mul_add_mod_self_right, Nat.mul_mod_left, Nat.mod_eq_of_lt hlt] at hmod
  omega

namespace Live

variable {lib : Libxdp} {shape : RuntimeShape} {l : Live lib shape}

/-- A descriptor whose address is not the start of a frame is skipped. -/
lemma receiveOne_skip (ds : List PacketDescriptor) {rx : RxDescriptor}
    (h : ∀ i, rx.address ≠ shape.umem.address i) : receiveOne (ds, l) rx = (ds, l) := by
  have hbad : (shape.umem.handleFromAddress rx.address).ok = false := by
    rw [FrameAllocation.ok, beq_eq_false_iff_ne]
    intro hok
    obtain ⟨i, hi, -⟩ := UmemShape.handleFromAddress_eq_ok hok
    exact h i hi
  simp only [receiveOne, hbad, Bool.not_false, if_true]

lemma foldl_receiveOne_skip {rxs : List RxDescriptor}
    (h : ∀ rx ∈ rxs, ∀ i, rx.address ≠ shape.umem.address i) (ds : List PacketDescriptor) :
    rxs.foldl receiveOne (ds, l) = (ds, l) := by
  induction rxs with
  | nil => rfl
  | cons rx rxs ih =>
    rw [List.forall_mem_cons] at h
    rw [List.foldl_cons, receiveOne_skip ds h.1, ih h.2]

section

variable (hlib : lib.Lawful)
include hlib

lemma drainCompletions_of_nil (h : l.view.completion = []) :
    ∃ completion, lib.completion.entries completion = [] ∧
      l.drainCompletions = { l with socket.completion := completion } := by
  have hentries : lib.completion.entries l.socket.completion = [] := h
  obtain ⟨available, completion, hconsume, -, -, hdrops⟩ :=
    hlib.completion.consume_eq l.socket.completion (show kDataPlaneBatchSize < 2 ^ 32 by decide)
  rw [hentries, List.take_nil] at hconsume
  refine ⟨completion, ?_, ?_⟩
  · rw [hdrops.entries_eq, hentries, List.drop_nil]
  · rw [drainCompletions, LibxdpSocket.drainCompletions, hconsume]
    rfl

/-- An iteration that accepts no descriptor takes some from the RX ring and does nothing else. -/
lemma iterate_skip (sendto : LibxdpSocket lib → Option SendError)
    (hcompletion : l.view.completion = [])
    (hrx : ∀ rx ∈ l.view.rx, ∀ i, rx.address ≠ shape.umem.address i) :
    ∃ received, (l.iterate sendto).view = { l.view with rx := l.view.rx.drop received } := by
  obtain ⟨completion, hempty, hdrained⟩ := drainCompletions_of_nil hlib hcompletion
  obtain ⟨received, ring, -, hdrops, heq⟩ := iterate_eq_forward hlib sendto l
  have hview : l.drainCompletions.view = l.view := by
    rw [hdrained, view, view]
    simp only [hempty]
    rw [← hcompletion]
    rfl
  have hskip := foldl_receiveOne_skip (l := { l.drainCompletions with socket.rx := ring })
    (fun rx hmem => hrx rx (List.mem_of_mem_take (i := received) hmem)) []
  refine ⟨received, ?_⟩
  rw [heq, hview, forward_of_receives_none sendto hskip, view_consumed hdrops, hview]

end

end Live

namespace LiveHost

variable {lib : Libxdp} {shape : RuntimeShape} {s s' : LiveHost lib shape} {headroom : UInt64}

/-- Nothing has been handled, and every packet delivered has cost a frame. -/
structure Starving (headroom : UInt64) (s : LiveHost lib shape) : Prop where
  frames : ∀ k ∈ s.live.view.fill ++ s.rxCustody, ∃ i, k = shape.umem.address i
  received : ∀ rx ∈ s.live.view.rx, ∃ i, rx.address = shape.umem.address i + headroom
  tx_eq : s.live.view.tx = []
  completion_eq : s.live.view.completion = []
  txCustody_eq : s.txCustody = []
  packetsSeen_eq : s.live.view.packetsSeen = 0
  txSubmitted_eq : s.live.view.txSubmitted = 0
  delivered_eq : s.delivered + s.live.view.fill.length + s.rxCustody.length =
    Live.postedCount shape

lemma Starving.kernel (h : s.Starving headroom) (hstep : KernelStep headroom s s') :
    s'.Starving headroom := by
  cases hstep with
  | @takeFill k fill htakes =>
    have hfill : s.live.view.fill = k :: lib.fill.entries fill := htakes.entries_eq
    refine ⟨fun k' hk' => h.frames k' ?_, h.received, h.tx_eq, h.completion_eq, h.txCustody_eq,
      h.packetsSeen_eq, h.txSubmitted_eq, ?_⟩
    · rw [hfill]
      simp only [takeFill, Live.view, List.mem_append, List.mem_cons, List.not_mem_nil,
        or_false] at hk' ⊢
      tauto
    · have hdelivered := h.delivered_eq
      rw [hfill, List.length_cons] at hdelivered
      simp only [takeFill, Live.view, List.length_append, List.length_singleton]
      omega
  | @deliver base d rx umem hcustody haddress hfits hputs hothers =>
    refine ⟨fun k hk => h.frames k ?_, fun rx' hrx' => ?_, h.tx_eq, h.completion_eq,
      h.txCustody_eq, h.packetsSeen_eq, h.txSubmitted_eq, ?_⟩
    · rcases List.mem_append.mp hk with hfill | hmem
      · exact List.mem_append_left _ hfill
      · exact List.mem_append_right _ (List.mem_of_mem_erase hmem)
    · have hmem : rx' ∈ lib.rx.entries rx := hrx'
      rw [hputs.entries_eq] at hmem
      rcases List.mem_append.mp hmem with hold | hnew
      · exact h.received rx' hold
      · obtain ⟨i, hi⟩ := h.frames base (List.mem_append_right _ hcustody)
        rw [List.mem_singleton.mp hnew, haddress, hi]
        exact ⟨i, rfl⟩
    · have herase := List.length_erase_add_one hcustody
      have hdelivered := h.delivered_eq
      simp only [deliver, Live.view] at hdelivered ⊢
      omega
  | @takeTx d tx htakes =>
    have htx : s.live.view.tx = d :: lib.tx.entries tx := htakes.entries_eq
    rw [h.tx_eq] at htx
    exact absurd htx.symm (List.cons_ne_nil _ _)
  | @complete address completion hcustody hputs =>
    rw [h.txCustody_eq] at hcustody
    exact absurd hcustody List.not_mem_nil

section

variable (hlib : lib.Lawful) (hpos : 0 < headroom.toNat)
  (hlt : headroom.toNat < shape.umem.frameSize.toNat)
include hlib hpos hlt

lemma Starving.iterate (h : s.Starving headroom) (sendto : LibxdpSocket lib → Option SendError) :
    (s.iterate sendto).Starving headroom := by
  obtain ⟨received, hview⟩ : ∃ received, (s.iterate sendto).live.view =
      { s.live.view with rx := s.live.view.rx.drop received } := by
    refine Live.iterate_skip hlib sendto h.completion_eq fun rx hrx j => ?_
    obtain ⟨i, hi⟩ := h.received rx hrx
    rw [hi]
    exact UmemShape.address_add_ne hpos hlt i j
  constructor
  · rw [hview]
    exact h.frames
  · rw [hview]
    exact fun rx hrx => h.received rx (List.mem_of_mem_drop hrx)
  · rw [hview]
    exact h.tx_eq
  · rw [hview]
    exact h.completion_eq
  · exact h.txCustody_eq
  · rw [hview]
    exact h.packetsSeen_eq
  · rw [hview]
    exact h.txSubmitted_eq
  · rw [hview]
    exact h.delivered_eq

end

end LiveHost

end ChronosX
