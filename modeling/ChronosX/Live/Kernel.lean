import ChronosX.Live.Reflector
import ChronosX.Runtime.Conservation

/-!
# Live mode and the kernel

The kernel side of the socket of live mode: it takes addresses out of the fill ring, delivers a
packet in each of them at most once, takes descriptors out of the TX ring and completes each of them
at most once. A packet may start some bytes into its frame: the headroom, the same for all packets.
A run opens the socket, fills the ring and then interleaves kernel steps with iterations of the
loop. The kernel is outside the program, so what it may do is stated as a relation.
-/

namespace ChronosX

open Ledger

/-- The first entry of the ring has been taken out. -/
structure XskRingProd.Takes {α : Type} (lib : XskRingProd α) (ring : lib.Ring) (x : α)
    (ring' : lib.Ring) : Prop where
  entries_eq : lib.entries ring = x :: lib.entries ring'
  size_eq : lib.size ring' = lib.size ring

/-- An entry has been put behind the others, for which there was room. -/
structure XskRingCons.Puts {α : Type} (lib : XskRingCons α) (ring : lib.Ring) (x : α)
    (ring' : lib.Ring) : Prop where
  room : (lib.entries ring).length < lib.size ring
  entries_eq : lib.entries ring' = lib.entries ring ++ [x]
  size_eq : lib.size ring' = lib.size ring

variable {lib : Libxdp} {shape : RuntimeShape}

/-- The variables of `run_live`, what the kernel holds, and the number of packets delivered. -/
structure LiveHost (lib : Libxdp) (shape : RuntimeShape) where
  live : Live lib shape
  rxCustody : List UInt64 := []
  txCustody : List UInt64 := []
  delivered : ℕ := 0

namespace LiveHost

variable (s : LiveHost lib shape)

/-- The kernel has taken an address out of the fill ring. -/
def takeFill (k : UInt64) (fill : lib.fill.Ring) : LiveHost lib shape :=
  { s with live.socket.fill := fill, rxCustody := s.rxCustody ++ [k] }

/-- The kernel has delivered a packet in the frame at `base`. -/
def deliver (base : UInt64) (rx : lib.rx.Ring) (umem : Umem) : LiveHost lib shape :=
  { s with
    live.socket.rx := rx
    live.umem := umem
    rxCustody := s.rxCustody.erase base
    delivered := s.delivered + 1 }

/-- The kernel has taken a descriptor out of the TX ring. -/
def takeTx (d : TxDescriptor) (tx : lib.tx.Ring) : LiveHost lib shape :=
  { s with live.socket.tx := tx, txCustody := s.txCustody ++ [d.address] }

/-- The kernel has completed a frame. -/
def complete (address : UInt64) (completion : lib.completion.Ring) : LiveHost lib shape :=
  { s with live.socket.completion := completion, txCustody := s.txCustody.erase address }

/-- An iteration of the loop. -/
def iterate (sendto : LibxdpSocket lib → Option SendError) : LiveHost lib shape :=
  { s with live := s.live.iterate sendto }

/-- The steps of a kernel that leaves `headroom` bytes in front of each packet. -/
inductive KernelStep (headroom : UInt64) : LiveHost lib shape → LiveHost lib shape → Prop where
  | takeFill {s : LiveHost lib shape} {k : UInt64} {fill : lib.fill.Ring}
      (takes : lib.fill.Takes s.live.socket.fill k fill) : KernelStep headroom s (s.takeFill k fill)
  | deliver {s : LiveHost lib shape} {base : UInt64} {d : RxDescriptor} {rx : lib.rx.Ring}
      {umem : Umem} (custody : base ∈ s.rxCustody) (address_eq : d.address = base + headroom)
      (fits : headroom.toNat + d.length.toNat ≤ shape.umem.frameSize.toNat)
      (puts : lib.rx.Puts s.live.socket.rx d rx)
      (others : ∀ x, ¬ InFrame base.toNat shape.umem.frameSize.toNat x →
        umem x = s.live.umem x) :
      KernelStep headroom s (s.deliver base rx umem)
  | takeTx {s : LiveHost lib shape} {d : TxDescriptor} {tx : lib.tx.Ring}
      (takes : lib.tx.Takes s.live.socket.tx d tx) : KernelStep headroom s (s.takeTx d tx)
  | complete {s : LiveHost lib shape} {address : UInt64} {completion : lib.completion.Ring}
      (custody : address ∈ s.txCustody)
      (puts : lib.completion.Puts s.live.socket.completion address completion) :
      KernelStep headroom s (s.complete address completion)

/-- The states of the runs after the socket has been opened. -/
inductive Reachable (headroom : UInt64) : LiveHost lib shape → Prop where
  | start {others : Finset XskResource} {interfaceName : String} {queueId : UInt32}
      {calls : XskCalls lib} (setUp : Live.SetUp shape queueId calls)
      (ok : (Live.opening shape others interfaceName queueId calls).1 = .ok) :
      Reachable headroom
        { live := Live.start shape (Live.opening shape others interfaceName queueId calls).2.xsk }
  | kernel {s s' : LiveHost lib shape} (reachable : Reachable headroom s)
      (step : KernelStep headroom s s') : Reachable headroom s'
  | iterate {s : LiveHost lib shape} (reachable : Reachable headroom s)
      (sendto : LibxdpSocket lib → Option SendError) : Reachable headroom (s.iterate sendto)

/-! ### Custody -/

/-- What the kernel holds, with the tags the frames carry meanwhile. -/
def custody : Multiset Entry :=
  tagged .fillRing (s.rxCustody : Multiset UInt64) + tagged .txRing (s.txCustody : Multiset UInt64)

variable {s} {s' : LiveHost lib shape}

/-- One step of a kernel that leaves no headroom moves entries between the rings and its custody. -/
lemma KernelStep.entries_eq (h : KernelStep 0 s s') :
    s'.live.view.ledger + s'.custody = s.live.view.ledger + s.custody := by
  cases h with
  | @takeFill k fill htakes =>
    simp only [LiveHost.takeFill, custody, Reflector.ledger, Live.view, htakes.entries_eq,
      ← Multiset.cons_coe, ← Multiset.coe_add, tagged_add, Multiset.coe_nil, tagged_zero,
      ← Multiset.singleton_add]
    abel
  | @deliver base d rx umem hcustody haddress hfits hputs hothers =>
    rw [UInt64.add_zero] at haddress
    simp only [LiveHost.deliver, custody, Reflector.ledger, Live.view, hputs.entries_eq,
      List.map_append, List.map_cons, List.map_nil, ← Multiset.coe_add, tagged_add, haddress]
    rw [tagged_erase FrameOwner.fillRing hcustody]
    abel
  | @takeTx d tx htakes =>
    simp only [LiveHost.takeTx, custody, Reflector.ledger, Live.view, htakes.entries_eq,
      List.map_cons, ← Multiset.cons_coe, ← Multiset.coe_add, tagged_add, Multiset.coe_nil,
      tagged_zero, ← Multiset.singleton_add]
    abel
  | @complete address completion hcustody hputs =>
    simp only [LiveHost.complete, custody, Reflector.ledger, Live.view, hputs.entries_eq,
      ← Multiset.coe_add, tagged_add]
    rw [tagged_erase FrameOwner.txRing hcustody]
    abel

/-- The kernel changes the rings and the bytes only. -/
lemma KernelStep.steady {headroom : UInt64} (h : KernelStep headroom s s')
    (names : Multiset UInt64) :
    Live.Steady names s.live s'.live ∧ s'.live.allocator = s.live.allocator := by
  cases h with
  | takeFill htakes => exact ⟨⟨.refl _, rfl, htakes.size_eq, rfl, rfl, rfl⟩, rfl⟩
  | deliver => exact ⟨⟨.refl _, rfl, rfl, rfl, rfl, rfl⟩, rfl⟩
  | takeTx htakes => exact ⟨⟨.refl _, rfl, rfl, htakes.size_eq, rfl, rfl⟩, rfl⟩
  | complete => exact ⟨⟨.refl _, rfl, rfl, rfl, rfl, rfl⟩, rfl⟩

/-- The posted frames. -/
def posted (shape : RuntimeShape) : Multiset UInt64 :=
  Live.firstAddresses shape (Live.postedCount shape)

lemma card_posted (shape : RuntimeShape) : (posted shape).card = Live.postedCount shape :=
  Live.length_firstAddresses (Live.postedCount_le shape).1

/-- The number of entries of the TX ring that `init` asks for. -/
def txCapacity (shape : RuntimeShape) : ℕ := shape.socket.txSize.size.toUInt32.toNat

/-- The posted frames are in custody, the others are as the initial fill left them, and the wheel
is empty. -/
structure Holds (s : LiveHost lib shape) : Prop where
  keeps : s.live.Keeps (posted shape) s.custody
  mapped : s.live.Mapped
  fillSize_eq : lib.fill.size s.live.socket.fill = Live.fillCapacity shape
  txSize_eq : lib.tx.size s.live.socket.tx = txCapacity shape
  timingWheel_eq : s.live.timingWheel = .fresh
  outside : (Live.allocated shape (Live.postedCount shape + Live.leakedCount shape)).SameOutside
    (posted shape) s.live.allocator

/-- The counters account for every packet that the kernel has delivered, as far as 64 bits can. -/
structure Balanced (s : LiveHost lib shape) : Prop where
  delivered_eq : UInt64.ofNat s.delivered =
    s.live.packetsSeen + UInt64.ofNat s.live.view.rx.length
  packetsSeen_eq : s.live.packetsSeen = s.live.packetsDropped + s.live.txSubmitted
  txSubmitted_eq : s.live.txSubmitted = s.live.completed + UInt64.ofNat
    (s.live.view.tx.length + s.txCustody.length + s.live.view.completion.length)

/-! ### The start -/

section

variable {others : Finset XskResource} {interfaceName : String} {queueId : UInt32}
  {calls : XskCalls lib} (hlib : lib.Lawful) (hsetup : Live.SetUp shape queueId calls)
  (hok : (Live.opening shape others interfaceName queueId calls).1 = .ok)
include hlib hsetup hok

/-- What the loop starts with: the posted frames in the fill ring, and nothing else. -/
lemma view_start :
    (Live.start shape (Live.opening shape others interfaceName queueId calls).2.xsk).view =
      { fill := Live.firstAddresses shape (Live.postedCount shape)
        completion := [], rx := [], tx := [], umem := fun _ => 0
        packetsSeen := 0, packetsDropped := 0, txSubmitted := 0, completed := 0 } := by
  have hready := Live.ready_opening hsetup hok
  obtain ⟨fill, hposted, hstart⟩ := Live.start_eq hlib hready
  rw [hstart, Live.view]
  simp only [Live.filled, Live.initial, hposted.entries_eq, hready.completion_eq, hready.rx_eq,
    hready.tx_eq]

lemma holds_start :
    ({ live := Live.start shape (Live.opening shape others interfaceName queueId calls).2.xsk } :
      LiveHost lib shape).Holds := by
  have hready := Live.ready_opening hsetup hok
  have hview := view_start hlib hsetup hok
  obtain ⟨fill, hposted, hstart⟩ := Live.start_eq hlib hready
  rw [hstart] at hview ⊢
  have hledger : ((Live.initial shape
      (Live.opening shape others interfaceName queueId calls).2.xsk).filled
        (Live.postedCount shape + Live.leakedCount shape) fill).view.ledger =
      tagged .fillRing (posted shape) := by
    rw [hview]
    simp [Reflector.ledger, posted]
  refine ⟨⟨⟨?_, ?_⟩, ?_⟩, ⟨hready.umemArea_eq, hready.umemSize_eq, ?_⟩, hposted.size_eq,
    hready.txSize_eq, rfl, .refl _⟩
  · simp only [hledger, custody, Multiset.coe_nil, tagged_zero, add_zero, map_fst_tagged]
    exact Multiset.coe_nodup.mpr (Live.nodup_firstAddresses _)
  · intro e he
    simp only [hledger, custody, Multiset.coe_nil, tagged_zero, add_zero] at he
    obtain ⟨hmem, howner⟩ := mem_tagged.mp he
    obtain ⟨i, hi, heq⟩ := Live.mem_firstAddresses.mp hmem
    refine ⟨i, heq, ?_⟩
    rw [howner]
    exact if_pos (Nat.lt_of_lt_of_le hi (Nat.le_add_right _ _))
  · simp [hledger, custody]
  · intro rx hrx
    rw [hview] at hrx
    exact absurd hrx List.not_mem_nil

lemma balanced_start :
    ({ live := Live.start shape (Live.opening shape others interfaceName queueId calls).2.xsk } :
      LiveHost lib shape).Balanced := by
  have hview := view_start hlib hsetup hok
  have hseen := congrArg Reflector.packetsSeen hview
  have hdropped := congrArg Reflector.packetsDropped hview
  have hsubmitted := congrArg Reflector.txSubmitted hview
  have hcompleted := congrArg Reflector.completed hview
  simp only [Live.view] at hseen hdropped hsubmitted hcompleted
  constructor
  · simp only [hview, hseen]
    rfl
  · simp only [hseen, hdropped, hsubmitted]
    rfl
  · simp only [hview, hsubmitted, hcompleted]
    rfl

end

/-! ### Steps -/

lemma Holds.kernel (h : s.Holds) (hstep : KernelStep 0 s s') : s'.Holds := by
  obtain ⟨hsteady, hallocator⟩ := hstep.steady (posted shape)
  have hentries := hstep.entries_eq
  refine ⟨h.keeps.of_eq (by rw [hallocator]) hentries, ⟨?_, ?_, ?_⟩, ?_, ?_, ?_,
    h.outside.trans hsteady.outside⟩
  · rw [hsteady.umemArea_eq]
    exact h.mapped.umemArea_eq
  · rw [hsteady.umemSize_eq]
    exact h.mapped.umemSize_eq
  · cases hstep with
    | @deliver base d rx umem hcustody haddress hfits hputs hothers =>
      intro rx' hrx'
      have hmem : rx' ∈ lib.rx.entries rx := hrx'
      rw [hputs.entries_eq] at hmem
      rcases List.mem_append.mp hmem with hold | hnew
      · exact h.mapped.length_le rx' hold
      · rw [List.mem_singleton.mp hnew]
        simpa using hfits
    | takeFill => exact h.mapped.length_le
    | takeTx => exact h.mapped.length_le
    | complete => exact h.mapped.length_le
  · rw [hsteady.fillSize_eq, h.fillSize_eq]
  · rw [hsteady.txSize_eq, h.txSize_eq]
  · rw [hsteady.timingWheel_eq, h.timingWheel_eq]

lemma Balanced.kernel {headroom : UInt64} (h : s.Balanced) (hstep : KernelStep headroom s s') :
    s'.Balanced := by
  obtain ⟨hdelivered, hseen, hsubmitted⟩ := h
  cases hstep with
  | takeFill => exact ⟨hdelivered, hseen, hsubmitted⟩
  | @deliver base d rx umem hcustody haddress hfits hputs hothers =>
    refine ⟨?_, hseen, hsubmitted⟩
    simp only [deliver, Live.view, hputs.entries_eq, List.length_append, List.length_singleton,
      UInt64.ofNat_add]
    rw [hdelivered, UInt64.add_assoc]
    rfl
  | @takeTx d tx htakes =>
    refine ⟨hdelivered, hseen, hsubmitted.trans ?_⟩
    refine congrArg (fun n => s.live.completed + UInt64.ofNat n) ?_
    simp only [takeTx, Live.view, htakes.entries_eq, List.length_cons, List.length_append,
      List.length_nil]
    omega
  | @complete address completion hcustody hputs =>
    refine ⟨hdelivered, hseen, hsubmitted.trans ?_⟩
    refine congrArg (fun n => s.live.completed + UInt64.ofNat n) ?_
    have herase := List.length_erase_add_one hcustody
    simp only [complete, Live.view, hputs.entries_eq, List.length_append, List.length_singleton]
    omega

/-- A turn of the reflector keeps the balance. -/
lemma Balanced.turn (h : s.Balanced) {l : Live lib shape} (hturns : s.live.view.Turns l.view) :
    ({ s with live := l } : LiveHost lib shape).Balanced := by
  obtain ⟨hdelivered, hseen, hsubmitted⟩ := h
  obtain ⟨done, received, hdone, hreceived, hview⟩ := hturns
  have hshare : UInt64.ofNat received = UInt64.ofNat (s.live.view.packets received).length +
      UInt64.ofNat (s.live.view.others received).length := by
    rw [← UInt64.ofNat_add, Reflector.length_packets_add_others _ hreceived.le_length]
  have hseen' : l.packetsSeen = s.live.packetsSeen + UInt64.ofNat received :=
    congrArg Reflector.packetsSeen hview
  have hdropped' : l.packetsDropped =
      s.live.packetsDropped + UInt64.ofNat (s.live.view.others received).length :=
    congrArg Reflector.packetsDropped hview
  have hsubmitted' : l.txSubmitted =
      s.live.txSubmitted + UInt64.ofNat (s.live.view.packets received).length :=
    congrArg Reflector.txSubmitted hview
  have hcompleted' : l.completed = s.live.completed + UInt64.ofNat done :=
    congrArg Reflector.completed hview
  constructor
  · have hrx : s.live.view.rx.length = received + l.view.rx.length := by
      rw [hview, Reflector.turn, List.length_drop]
      have hle := hreceived.le_length
      omega
    simp only [hdelivered, hseen', hrx, UInt64.ofNat_add, UInt64.add_assoc]
  · simp only [hseen', hdropped', hsubmitted', hseen, hshare]
    ac_rfl
  · have hcount : s.live.view.tx.length + s.txCustody.length + s.live.view.completion.length +
        (s.live.view.packets received).length =
        done + (l.view.tx.length + s.txCustody.length + l.view.completion.length) := by
      rw [hview, Reflector.turn, List.length_append, List.length_map, List.length_drop]
      have hle := hdone.le_length
      omega
    simp only [hsubmitted', hcompleted', hsubmitted, UInt64.add_assoc]
    rw [← UInt64.ofNat_add, ← UInt64.ofNat_add, hcount]

section

variable (hlib : lib.Lawful) (htx : Live.postedCount shape ≤ txCapacity shape)
include htx

/-- Rings that can hold all the posted frames. -/
lemma Holds.ample (h : s.Holds) : s.live.Ample (posted shape) := by
  constructor
  · rw [card_posted, h.fillSize_eq]
    exact (Live.postedCount_le shape).2
  · rw [card_posted, h.txSize_eq]
    exact htx

include hlib

lemma Holds.iterate (h : s.Holds) (sendto : LibxdpSocket lib → Option SendError) :
    (s.iterate sendto).Holds ∧ s.live.view.Turns (s.iterate sendto).live.view := by
  obtain ⟨hsteady, hturns, hkeeps⟩ :=
    Live.iterate_spec hlib sendto h.keeps (h.ample htx) h.mapped
  refine ⟨⟨hkeeps, ⟨?_, ?_, ?_⟩, ?_, ?_, ?_, h.outside.trans hsteady.outside⟩, hturns⟩
  · exact hsteady.umemArea_eq ▸ h.mapped.umemArea_eq
  · exact hsteady.umemSize_eq ▸ h.mapped.umemSize_eq
  · obtain ⟨done, received, -, -, hview⟩ := hturns
    intro rx hrx
    rw [LiveHost.iterate, hview] at hrx
    exact h.mapped.length_le rx (List.mem_of_mem_drop hrx)
  · exact hsteady.fillSize_eq.trans h.fillSize_eq
  · exact hsteady.txSize_eq.trans h.txSize_eq
  · exact hsteady.timingWheel_eq.trans h.timingWheel_eq

/-- In every run with a kernel that leaves no headroom the posted frames are in custody and the
counters balance. -/
lemma Reachable.holds (h : Reachable 0 s) : s.Holds ∧ s.Balanced := by
  induction h with
  | start hsetup hok => exact ⟨holds_start hlib hsetup hok, balanced_start hlib hsetup hok⟩
  | kernel _ hstep ih => exact ⟨ih.1.kernel hstep, ih.2.kernel hstep⟩
  | iterate _ sendto ih =>
    obtain ⟨hholds, hturns⟩ := ih.1.iterate hlib htx sendto
    exact ⟨hholds, ih.2.turn hturns⟩

end

end LiveHost

end ChronosX
