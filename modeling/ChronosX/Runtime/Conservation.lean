import ChronosX.Runtime.Kernel
import ChronosX.Chaos.Flow

/-!
# Frame conservation

With TX and fill rings that can hold all the posted frames, every frame is in exactly one place
at every moment between polls, and no poll reports a failure. With smaller rings this still holds
along the runs in which each poll finds room for whatever it may have to push; a push that is
refused leaves its frame in no place.
-/

namespace ChronosX

open Ledger Mem AfXdpRuntimeAdapter

namespace Host

variable {shape : RuntimeShape}

/-- Where a posted frame can be between polls. -/
inductive Place where
  | fillRing
  | rxCustody
  | rxRing
  | timingWheel
  | txRing
  | txCustody
  | completionRing
deriving DecidableEq

instance : Fintype Place where
  elems := {.fillRing, .rxCustody, .rxRing, .timingWheel, .txRing, .txCustody, .completionRing}
  complete := fun place => by cases place <;> decide

/-- The frame addresses found in a place. -/
def contents (s : Host shape) : Place → Multiset UInt64
  | .fillRing => s.runtime.socket.fillRing.toList
  | .rxCustody => s.rxCustody
  | .rxRing => s.runtime.socket.rxRing.toList.map (·.address)
  | .timingWheel => s.runtime.timingWheel.pending.map (·.frameAddress)
  | .txRing => s.runtime.socket.txRing.toList.map (·.address)
  | .txCustody => s.txCustody
  | .completionRing => s.runtime.socket.completionRing.toList

/-- The address is in one place, once. -/
def InOnePlace (s : Host shape) (k : UInt64) : Prop :=
  ∃ place, (s.contents place).count k = 1 ∧
    ∀ other, other ≠ place → (s.contents other).count k = 0

variable {s : Host shape} {names : Multiset UInt64} {stranded : Multiset Entry}

/-- The places together hold what is entered in the ledger and the kernel's custody. -/
lemma sum_contents (s : Host shape) :
    ∑ place, s.contents place = (s.runtime.ledger + s.custody).map Prod.fst := by
  simp only [ledger, custody, Multiset.map_add, map_fst_tagged]
  change s.contents .fillRing + (s.contents .rxCustody + (s.contents .rxRing +
    (s.contents .timingWheel + (s.contents .txRing + (s.contents .txCustody +
      (s.contents .completionRing + 0)))))) = _
  simp only [contents]
  abel

namespace Holds

lemma sum_contents_add (h : s.Holds names stranded) :
    ∑ place, s.contents place + stranded.map Prod.fst = names := by
  rw [sum_contents, ← Multiset.map_add, add_assoc]
  exact h.keeps.names_eq

lemma nodup (h : s.Holds names stranded) : names.Nodup := by
  rw [← h.keeps.names_eq]
  exact h.keeps.agrees.nodup

lemma inOnePlace (h : s.Holds names 0) {k : UInt64} (hk : k ∈ names) : s.InOnePlace k := by
  have htotal := h.sum_contents_add
  rw [Multiset.map_zero, add_zero] at htotal
  exact exists_unique_place htotal h.nodup hk

/-- A stranded frame is in no place. -/
lemma notMem_contents (h : s.Holds names stranded) {k : UInt64}
    (hk : k ∈ stranded.map Prod.fst) (place : Place) : k ∉ s.contents place := by
  have hnodup := h.nodup
  rw [← h.sum_contents_add, Multiset.nodup_add] at hnodup
  intro hmem
  have hsum : k ∈ ∑ place, s.contents place :=
    Multiset.mem_sum.mpr ⟨place, Finset.mem_univ place, hmem⟩
  exact Multiset.disjoint_left.mp hnodup.2.2 hsum hk

/-- Rings that can hold all the frames always have room. -/
lemma room (h : s.Holds names stranded) (hfill : names.card ≤ shape.socket.fillSize.toNat)
    (htx : names.card ≤ shape.socket.txSize.toNat) : s.runtime.Room := by
  have hcard := congrArg Multiset.card h.keeps.names_eq
  have hwheel := congrArg Multiset.card s.runtime.timingWheel.pending_tick
  simp only [ledger, Multiset.map_add, map_fst_tagged, Multiset.card_add, Multiset.card_map,
    Multiset.coe_card, List.length_map] at hcard hwheel
  have hreceived : s.runtime.received.length ≤ s.runtime.socket.rxRing.toList.length :=
    List.length_take_le' _ _
  have hmin := Nat.min_le_right kDataPlaneBatchSize s.runtime.socket.completionRing.toList.length
  constructor
  · omega
  · omega

end Holds

/-! ### Ample rings -/

/-- With a TX ring that can hold the posted frames nothing is ever stranded, and every poll finds
room. That the fill ring can hold them follows from the success of `init`. -/
lemma Reachable.holds_ample {allowed : AfXdpRuntimeAdapter shape → Prop} {count : ℕ}
    (htx : min count shape.umem.frameCount ≤ shape.socket.txSize.toNat)
    (h : Reachable allowed count s) :
    s.Holds (posted shape count : Multiset UInt64) 0 ∧ s.runtime.Room := by
  obtain ⟨-, -, hlength⟩ := init_posting h.init_ok
  have hcard : (posted shape count : Multiset UInt64).card = min count shape.umem.frameCount :=
    hlength
  have hfill : (posted shape count : Multiset UInt64).card ≤ shape.socket.fillSize.toNat :=
    SimulatedRing.length_toList_le _
  have hroom : ∀ s : Host shape, s.Holds (posted shape count : Multiset UInt64) 0 →
      s.runtime.Room := fun s hs => hs.room hfill (hcard.trans_le htx)
  have hholds := h.holds_zero fun s hs _ => hroom s hs
  exact ⟨hholds, hroom s hholds⟩

/-- Every posted frame is in exactly one place at every moment between polls, and no poll reports
a failure. -/
theorem frames_conserved {count : ℕ}
    (htx : min count shape.umem.frameCount ≤ shape.socket.txSize.toNat)
    (h : Reachable (fun _ => True) count s) :
    (posted shape count).length = min count shape.umem.frameCount ∧
    (posted shape count).Nodup ∧
    (∀ k ∈ posted shape count, s.InOnePlace k) ∧
    ∀ rules, (s.runtime.pollOnce rules).1 = .ok ∧
      (s.runtime.pollOnce rules).2.stats.ownerFailures = 0 ∧
      (s.runtime.pollOnce rules).2.stats.fillFailures = 0 ∧
      (s.runtime.pollOnce rules).2.stats.dataPlane.outputOverflows = 0 := by
  obtain ⟨-, -, hlength⟩ := init_posting h.init_ok
  obtain ⟨hholds, hroom⟩ := h.holds_ample htx
  refine ⟨hlength, hholds.nodup, fun k hk => hholds.inOnePlace hk, fun rules => ?_⟩
  obtain ⟨lost, hpolled, -⟩ := hholds.poll rules
  have hlost := hpolled.room hroom
  refine ⟨by rw [pollOnce_eq hholds.initialized], hpolled.ownerFailures, ?_, hpolled.overflows⟩
  rw [hpolled.fillFailures, hlost, Multiset.card_zero]

/-- Two frames, rings of two entries and a TX ring of one. -/
def oneTxSlot : RuntimeShape where
  umem := FrameAllocator.twoFrames
  socket := ⟨⟨2, by decide⟩, ⟨2, by decide⟩, ⟨2, by decide⟩, ⟨1, by decide⟩⟩
  wheel := ⟨⟨4, by decide⟩, 2, Nat.two_pos⟩

/-- A datagram at the start of each of the first frames. -/
def datagrams (frames : ℕ) : Umem :=
  fun x => if x < frames * 2048 then udpFrame 0 (x % 2048) else 0

/-- A datagram in the first frame whose MAC addresses differ. -/
def markedDatagram : Umem := fun x => if x = 6 then 1 else datagrams 1 x

/-- The datagram has been received. -/
def markedReceived : Host oneTxSlot :=
  (start oneTxSlot 1).takeFill.deliver ⟨0, 42, 0⟩ markedDatagram

lemma kernelStep_markedReceived : KernelStep (start oneTxSlot 1).takeFill markedReceived := by
  refine .deliver (by decide) (by decide) (by decide) ?_
  intro x hx
  have hfar : ¬ x < 1 * 2048 := fun hlt => hx ⟨Nat.zero_le x, hlt⟩
  have hmark : ¬ x = 6 := by omega
  rw [markedDatagram, if_neg hmark]
  exact if_neg hfar

lemma reachable_markedReceived {allowed : AfXdpRuntimeAdapter oneTxSlot → Prop} :
    Reachable allowed 1 markedReceived :=
  .kernel (.kernel (.start (by decide)) (.takeFill _)) kernelStep_markedReceived

/-- The only posted frame, in which a datagram has been received: the poll that sends the datagram
back moves it from the RX ring to the TX ring, and it is in no other place. -/
theorem frames_conserved_markedReceived :
    posted oneTxSlot 1 = [0] ∧ 0 ∈ markedReceived.contents .rxRing ∧
    0 ∈ (markedReceived.poll []).contents .txRing ∧ (markedReceived.poll []).InOnePlace 0 := by
  have hreach : Reachable (fun _ => True) 1 (markedReceived.poll []) :=
    .poll reachable_markedReceived trivial []
  have hposted : posted oneTxSlot 1 = [0] := by decide
  refine ⟨hposted, by decide +kernel, by decide +kernel,
    (frames_conserved (by decide) hreach).2.2.1 0 ?_⟩
  rw [hposted]
  exact List.mem_singleton_self 0

/-! ### Back-pressure -/

/-- A place from which a later poll or kernel step moves the frame on. -/
def Circulates (a : AfXdpRuntimeAdapter shape) (k : UInt64) : Prop :=
  k ∈ a.socket.fillRing.toList ∨ k ∈ a.socket.rxRing.toList.map (·.address) ∨
  k ∈ a.socket.txRing.toList.map (·.address) ∨ k ∈ a.socket.completionRing.toList ∨
  k ∈ a.timingWheel.pending.map (·.frameAddress) ∨
  k ∈ a.allocator.freeStack.map shape.umem.address

instance (a : AfXdpRuntimeAdapter shape) (k : UInt64) : Decidable (Circulates a k) :=
  inferInstanceAs (Decidable (_ ∨ _))

/-- In any run, the frame of a refused push is left in no place. -/
lemma refused_notMem_contents {allowed : AfXdpRuntimeAdapter shape → Prop} {count : ℕ}
    (h : Reachable allowed count s) (rules : List ChaosRule) {k : UInt64}
    (hk : k ∈ refusedAddresses (s.runtime.pollOnce rules).2.log) (place : Place) :
    k ∉ (s.poll rules).contents place := by
  obtain ⟨stranded, hholds⟩ := h.holds
  obtain ⟨lost, hpolled, hpoll⟩ := hholds.poll rules
  refine hpoll.notMem_contents ?_ place
  have hlost : k ∈ lost.map Prod.fst := by
    rw [← hpolled.refused]
    exact hk
  rw [Multiset.map_add]
  exact Multiset.mem_add.mpr (Or.inl hlost)

/-- In a run whose polls all find room, the frame of every refused push still circulates, and
every posted frame is in one place after each poll. In any other run, a push that is refused leaves
its frame in no place. -/
theorem refused_circulates {count : ℕ} (rules : List ChaosRule) :
    (∀ s : Host shape, Reachable Room count s → s.runtime.Room →
      (∀ k ∈ refusedAddresses (s.runtime.pollOnce rules).2.log,
        Circulates (s.runtime.pollOnce rules).2.adapter k) ∧
      ∀ k ∈ posted shape count, (s.poll rules).InOnePlace k) ∧
    ∀ (allowed : AfXdpRuntimeAdapter shape → Prop) (s : Host shape), Reachable allowed count s →
      ∀ k ∈ refusedAddresses (s.runtime.pollOnce rules).2.log,
        ∀ place, k ∉ (s.poll rules).contents place := by
  refine ⟨fun s h hroom => ?_, fun allowed s h k hk => refused_notMem_contents h rules hk⟩
  have hholds := h.holds_zero fun _ _ hroom => hroom
  obtain ⟨lost, hpolled, hpoll⟩ := hholds.poll rules
  rw [hpolled.room hroom, zero_add] at hpoll
  have hrefused : refusedAddresses (s.runtime.pollOnce rules).2.log = [] := by
    rw [← Multiset.coe_eq_zero, hpolled.refused, hpolled.room hroom, Multiset.map_zero]
  constructor
  · intro k hk
    rw [hrefused] at hk
    exact absurd hk List.not_mem_nil
  · intro k hk
    exact hpoll.inOnePlace hk

/-- The kernel has received a datagram in the first frame, and has taken the second. -/
def oneReceived : Host oneTxSlot :=
  (start oneTxSlot 2).takeFill.takeFill.deliver ⟨0, 42, 0⟩ (datagrams 1)

/-- The kernel has received a datagram in both frames. -/
def twoReceived : Host oneTxSlot := oneReceived.deliver ⟨2048, 42, 0⟩ (datagrams 2)

lemma reachable_oneReceived {allowed : AfXdpRuntimeAdapter oneTxSlot → Prop} :
    Reachable allowed 2 oneReceived := by
  refine .kernel (.kernel (.kernel (.start (by decide)) (.takeFill _)) (.takeFill _))
    (.deliver (by decide) (by decide) (by decide) ?_)
  intro x hx
  have hfar : ¬ x < 1 * 2048 := fun hlt => hx ⟨Nat.zero_le x, hlt⟩
  exact if_neg hfar

lemma reachable_twoReceived {allowed : AfXdpRuntimeAdapter oneTxSlot → Prop} :
    Reachable allowed 2 twoReceived := by
  refine .kernel reachable_oneReceived (.deliver (by decide) (by decide) (by decide) ?_)
  intro x hx
  change datagrams 2 x = datagrams 1 x
  by_cases hlow : x < 1 * 2048
  · have hlow' : x < 2 * 2048 := by omega
    rw [datagrams, datagrams, if_pos hlow, if_pos hlow']
  · have hhigh : ¬ x < 2 * 2048 := fun hlt => hx ⟨Nat.not_lt.mp hlow, hlt⟩
    rw [datagrams, datagrams, if_neg hlow, if_neg hhigh]

/-- The poll that transmits the first datagram finds room, and no frame is lost; the poll that has
to transmit both does not, and the second frame is then in no place. -/
theorem refused_circulates_oneReceived :
    oneReceived.runtime.Room ∧ posted oneTxSlot 2 = [0, 2048] ∧
    (oneReceived.poll []).InOnePlace 0 ∧ (oneReceived.poll []).InOnePlace 2048 ∧
    ∀ place, 2048 ∉ (twoReceived.poll []).contents place := by
  have hroom : oneReceived.runtime.Room := by
    unfold Room
    decide
  have hposted : posted oneTxSlot 2 = [0, 2048] := by decide
  have hrefused : 2048 ∈ refusedAddresses (twoReceived.runtime.pollOnce []).2.log := by
    decide +kernel
  have h := ((refused_circulates []).1 oneReceived reachable_oneReceived hroom).2
  rw [hposted] at h
  exact ⟨hroom, hposted, h 0 (by decide), h 2048 (by decide),
    (refused_circulates []).2 (fun _ => True) twoReceived reachable_twoReceived 2048 hrefused⟩

/-- The poll transmits the first of two datagrams; the second finds the TX ring full, and its
frame is afterwards neither in a ring, nor in the wheel, nor on the free stack. -/
theorem refused_not_circulates :
    Reachable (fun _ => True) 2 twoReceived ∧
    2048 ∈ refusedAddresses (twoReceived.runtime.pollOnce []).2.log ∧
    ¬ Circulates (twoReceived.runtime.pollOnce []).2.adapter 2048 :=
  ⟨reachable_twoReceived, by decide +kernel, by decide +kernel⟩

end Host

end ChronosX
