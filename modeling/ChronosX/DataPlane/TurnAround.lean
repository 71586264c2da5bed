import ChronosX.DataPlane.Accounting
import ChronosX.DataPlane.Bounds

/-!
# What a batch does to the frames

When the descriptors of a batch lie in different frames of the UMEM, each frame is rewritten by
its own descriptor alone. A frame written to the TX output is then, at the end of the batch, the
frame found at its start turned around; a frame the wheel accepted is as it was.
-/

namespace ChronosX

open Mem

/-- The two memories hold the same `length` bytes at `address`. -/
def SameBytes (address length : ℕ) (m m' : Umem) : Prop :=
  ∀ x, InFrame address length x → m' x = m x

namespace SameBytes

variable {address length : ℕ} {m m' m'' : Umem}

lemma refl (m : Umem) : SameBytes address length m m := fun _ _ => rfl

lemma symm (h : SameBytes address length m m') : SameBytes address length m' m :=
  fun x hx => (h x hx).symm

lemma trans (h : SameBytes address length m m') (h' : SameBytes address length m' m'') :
    SameBytes address length m m'' :=
  fun x hx => (h' x hx).trans (h x hx)

lemma mono {size : ℕ} (h : SameBytes address size m m') (hle : length ≤ size) :
    SameBytes address length m m' :=
  fun x hx => h x ⟨hx.1, by have := hx.2; omega⟩

/-- The same packet is parsed. -/
lemma parsePacket_eq (h : SameBytes address length m m') :
    (run (parsePacket (some address) length) m').1 =
      (run (parsePacket (some address) length) m).1 := by
  have hbytes := (parsePacket_sat address length m).accesses_ok
  exact (run_congr _ fun x hx => h x (hbytes x hx)).2.1

lemma flipBit (h : SameBytes address length m m') (x : ℕ) :
    SameBytes address length (flipBit x m) (flipBit x m') := by
  intro y hy
  by_cases hyx : y = x
  · subst hyx
    rw [ChronosX.flipBit, ChronosX.flipBit, Function.update_self, Function.update_self, h y hy]
  · rw [ChronosX.flipBit, ChronosX.flipBit, Function.update_of_ne hyx, Function.update_of_ne hyx,
      h y hy]

lemma swapMacs (h : SameBytes address length m m') (hlength : kEthernetHeaderBytes ≤ length) :
    SameBytes address length (swapMacs address m) (swapMacs address m') := by
  intro x hx
  simp only [kEthernetHeaderBytes] at hlength
  simp only [ChronosX.swapMacs]
  split_ifs with hlow hhigh
  · exact h _ ⟨by omega, by omega⟩
  · exact h _ ⟨by omega, by omega⟩
  · exact h x hx

end SameBytes

/-- On its `length` bytes, the frame in `m'` is the frame in `m` turned around. -/
def TurnedFrom (address length : ℕ) (m m' : Umem) : Prop :=
  ∃ turned, TurnedAround address (run (parsePacket (some address) length) m).1 m turned ∧
    SameBytes address length turned m'

/-- Only the bytes of the frame matter. -/
lemma TurnedFrom.congr {address length : ℕ} {m m₁ m' m₁' : Umem}
    (h : TurnedFrom address length m m') (hlength : kEthernetHeaderBytes ≤ length)
    (hm : SameBytes address length m m₁) (hm' : SameBytes address length m' m₁') :
    TurnedFrom address length m₁ m₁' := by
  obtain ⟨turned, hturned, hsame⟩ := h
  rw [← hm.parsePacket_eq] at hturned
  cases hturned with
  | swapped =>
    refine ⟨_, .swapped, ?_⟩
    exact (hm.swapMacs hlength).symm.trans (hsame.trans hm')
  | corrupted x hx =>
    refine ⟨_, .corrupted x hx, ?_⟩
    exact ((hm.flipBit x).swapMacs hlength).symm.trans (hsame.trans hm')

/-- A turned frame starts with the source address of the original: the payload comes later. -/
lemma TurnedFrom.destination_eq {address length : ℕ} {m m' : Umem}
    (h : TurnedFrom address length m m')
    (hpayload : 12 ≤ (run (parsePacket (some address) length) m).1.payloadOffset) {i : ℕ}
    (hi : i < 6) (hlength : i < length) : m' (address + i) = m (address + i + 6) := by
  obtain ⟨turned, hturned, hsame⟩ := h
  rw [hsame (address + i) ⟨by omega, by omega⟩]
  cases hturned with
  | swapped => exact if_pos ⟨by omega, by omega⟩
  | corrupted x hx =>
    have hne : address + i + 6 ≠ x := by
      have := hx.1
      omega
    rw [swapMacs, if_pos ⟨by omega, by omega⟩, flipBit, Function.update_of_ne hne]

/-- The descriptors lie in frames of the given size that have no byte in common. -/
def PacketDescriptor.Apart (size : ℕ) (d d' : PacketDescriptor) : Prop :=
  ∀ x, InFrame d.frameAddress.toNat size x → ¬ InFrame d'.frameAddress.toNat size x

/-- The frame of a descriptor is turned around from `m` to `m'`. -/
def PacketDescriptor.Turned (d : PacketDescriptor) (m m' : Umem) : Prop :=
  kEthernetHeaderBytes ≤ d.frameLength.toNat ∧
    TurnedFrom d.frameAddress.toNat d.frameLength.toNat m m'

def PacketDescriptor.key (d : PacketDescriptor) : UInt64 × UInt32 := (d.frameAddress, d.frameLength)

section

variable {shape : WheelShape} {size : ℕ} (umemSizeBytes : UInt64) (rules : List ChaosRule)
  (tickNs : UInt64)

/-! ### One descriptor -/

lemma OwnByte.inFrame {d : PacketDescriptor} {x : ℕ} (h : OwnByte (some 0) umemSizeBytes d x) :
    InFrame d.frameAddress.toNat d.frameLength.toNat x := by
  obtain ⟨base, hbase, -, hx⟩ := h
  cases hbase
  rwa [Nat.zero_add] at hx

/-- A transmitted frame has been turned around. -/
lemma judge_turned (d : PacketDescriptor) (m : Umem) {corrupted : Bool}
    (h : (run (judge (some 0) umemSizeBytes rules tickNs d) m).1.2 = .transmit corrupted) :
    d.Turned m (run (judge (some 0) umemSizeBytes rules tickNs d) m).2 := by
  have heffect := (judge_sat (some 0) umemSizeBytes rules tickNs d m).post.effect
  rw [h] at heffect
  obtain ⟨base, hbase, hok, hturned⟩ := heffect
  cases hbase
  rw [Nat.zero_add] at hok hturned
  have hparsed := (parsePacket_sat d.frameAddress.toNat d.frameLength.toNat m).post.2
  exact ⟨hparsed.ethernet_le hok, _, hturned, SameBytes.refl _⟩

/-- A delayed frame is left alone. -/
lemma judge_kept (d : PacketDescriptor) (m : Umem) {delayed : DelayedFrame} {delayTicks : UInt64}
    (h : (run (judge (some 0) umemSizeBytes rules tickNs d) m).1.2 = .delay delayed delayTicks) :
    (run (judge (some 0) umemSizeBytes rules tickNs d) m).2 = m := by
  have heffect := (judge_sat (some 0) umemSizeBytes rules tickNs d m).post.effect
  rw [h] at heffect
  exact heffect.1

/-- Judging a descriptor leaves the other frames alone. -/
lemma judge_others {d d' : PacketDescriptor} (hlength : d.frameLength.toNat ≤ size)
    (hapart : d.Apart size d') (m : Umem) :
    SameBytes d'.frameAddress.toNat size m
      (run (judge (some 0) umemSizeBytes rules tickNs d) m).2 := by
  intro x hx
  apply run_of_notMem_accesses
  intro hmem
  obtain ⟨hle, hlt⟩ :=
    ((judge_sat (some 0) umemSizeBytes rules tickNs d m).accesses_ok x hmem).inFrame
  exact hapart x ⟨hle, by omega⟩ hx

lemma Batch.recycleRoute_dropped (b : Batch shape) (cause : DropCause) :
    (b.recycleRoute cause).isTx = false ∧ (b.recycleRoute cause).isWheel = false := by
  rw [Batch.recycleRoute]
  split_ifs <;> exact ⟨rfl, rfl⟩

/-- Only a verdict to transmit leads to the TX output. -/
lemma Batch.routeOf_isTx {b : Batch shape} {v : Verdict} (h : (b.routeOf v).isTx = true) :
    ∃ corrupted, v = .transmit corrupted := by
  cases v with
  | malformed descriptorValid => simp [routeOf, recycleRoute_dropped] at h
  | drop => simp [routeOf, recycleRoute_dropped] at h
  | delay delayed delayTicks =>
    rw [routeOf] at h
    split_ifs at h
    · simp [Route.isTx] at h
    · simp [recycleRoute_dropped] at h
  | transmit corrupted => exact ⟨corrupted, rfl⟩

/-- Only a verdict to delay leads to the wheel. -/
lemma Batch.routeOf_isWheel {b : Batch shape} {v : Verdict} (h : (b.routeOf v).isWheel = true) :
    ∃ delayed delayTicks, v = .delay delayed delayTicks := by
  cases v with
  | malformed descriptorValid => simp [routeOf, recycleRoute_dropped] at h
  | drop => simp [routeOf, recycleRoute_dropped] at h
  | delay delayed delayTicks => exact ⟨delayed, delayTicks, rfl⟩
  | transmit corrupted =>
    rw [routeOf] at h
    split_ifs at h
    · simp [Route.isWheel] at h
    · simp [recycleRoute_dropped] at h

/-- From `b` and `m` to `b'` and `m'`, the descriptors `ds` added turned frames to the TX output
and untouched ones to the wheel. -/
structure Turning (size : ℕ) (b : Batch shape) (m : Umem) (ds : List PacketDescriptor) (b' : Batch shape)
    (m' : Umem) : Prop where
  tx : ∀ key ∈ b'.tx.map (·.key), key ∈ b.tx.map (·.key) ∨ ∃ d ∈ ds, d.key = key ∧ d.Turned m m'
  wheel : ∀ frame ∈ b'.timingWheel.pending, frame ∈ b.timingWheel.pending ∨
    ∃ d ∈ ds, d.key = frame.key ∧ SameBytes d.frameAddress.toNat size m m'

/-- The loop body on one descriptor. -/
lemma processDescriptor_turning (size : ℕ) (b : Batch shape) (d : PacketDescriptor) (m : Umem) :
    Turning size b m [d] (run (processDescriptor (some 0) umemSizeBytes rules tickNs b d) m).1
      (run (processDescriptor (some 0) umemSizeBytes rules tickNs b d) m).2 := by
  rw [(run_processDescriptor (some 0) umemSizeBytes rules tickNs b d m).1]
  have hrouted := Batch.routed_route b d (faithful_judge (some 0) umemSizeBytes rules tickNs d m)
  constructor
  · intro key hkey
    rw [hrouted.tx_eq, sentTo_singleton, List.mem_append] at hkey
    refine hkey.imp id fun hsent => ?_
    split_ifs at hsent with hroute
    · obtain ⟨corrupted, hverdict⟩ := Batch.routeOf_isTx hroute
      exact ⟨d, List.mem_singleton_self d, (List.mem_singleton.mp hsent).symm,
        judge_turned umemSizeBytes rules tickNs d m hverdict⟩
    · exact absurd hsent List.not_mem_nil
  · intro frame hframe
    obtain ⟨frames, hframes, hwheel⟩ := hrouted.scheduled
    rw [hwheel.pending, Multiset.mem_add] at hframe
    refine hframe.imp id fun hnew => ?_
    have hkey := List.mem_map_of_mem (f := DelayedFrame.key) (Multiset.mem_coe.mp hnew)
    rw [hframes, sentTo_singleton] at hkey
    split_ifs at hkey with hroute
    · obtain ⟨delayed, delayTicks, hverdict⟩ := Batch.routeOf_isWheel hroute
      refine ⟨d, List.mem_singleton_self d, (List.mem_singleton.mp hkey).symm, ?_⟩
      rw [judge_kept umemSizeBytes rules tickNs d m hverdict]
      exact SameBytes.refl m
    · exact absurd hkey List.not_mem_nil

/-! ### A whole batch -/

/-- A batch leaves alone the frames that none of its descriptors lies in. -/
lemma processDescriptors_others (b : Batch shape) (ds : List PacketDescriptor) (m : Umem)
    (hlength : ∀ d ∈ ds, d.frameLength.toNat ≤ size) {address : ℕ}
    (hapart : ∀ d ∈ ds, ∀ x, InFrame d.frameAddress.toNat size x → ¬ InFrame address size x) :
    SameBytes address size m
      (run (processDescriptors (some 0) umemSizeBytes rules tickNs b ds) m).2 := by
  intro x hx
  apply run_of_notMem_accesses
  intro hmem
  obtain ⟨d, hd, hown⟩ :=
    processDescriptors_accesses (some 0) umemSizeBytes rules tickNs b ds m x hmem
  obtain ⟨hle, hlt⟩ := hown.inFrame
  have := hlength d hd
  exact hapart d hd x ⟨hle, by omega⟩ hx

/-- The loop over descriptors in different frames. -/
lemma processDescriptors_turning (b : Batch shape) (ds : List PacketDescriptor)
    (hlength : ∀ d ∈ ds, d.frameLength.toNat ≤ size)
    (hapart : ds.Pairwise (PacketDescriptor.Apart size)) (m : Umem) :
    Turning size b m ds (run (processDescriptors (some 0) umemSizeBytes rules tickNs b ds) m).1
      (run (processDescriptors (some 0) umemSizeBytes rules tickNs b ds) m).2 := by
  induction ds generalizing b m with
  | nil => exact ⟨fun _ h => Or.inl h, fun _ h => Or.inl h⟩
  | cons d ds ih =>
    obtain ⟨hfirst, hrest⟩ := List.pairwise_cons.mp hapart
    rw [List.forall_mem_cons] at hlength
    have hstep := processDescriptor_turning umemSizeBytes rules tickNs size b d m
    have hrun := run_processDescriptor (some 0) umemSizeBytes rules tickNs b d m
    rw [processDescriptors, run_bind]
    generalize hout : run (processDescriptor (some 0) umemSizeBytes rules tickNs b d) m = out
    rw [hout] at hstep hrun
    have hloop := ih out.1 hlength.2 hrest out.2
    -- the first frame is not touched again, and the others have not been touched yet
    have hlater : SameBytes d.frameAddress.toNat size out.2
        (run (processDescriptors (some 0) umemSizeBytes rules tickNs out.1 ds) out.2).2 :=
      processDescriptors_others umemSizeBytes rules tickNs out.1 ds out.2 hlength.2
        fun d' hd' x hx' hx => hfirst d' hd' x hx hx'
    have hearlier : ∀ d' ∈ ds, SameBytes d'.frameAddress.toNat size m out.2 := by
      intro d' hd'
      rw [hrun.1]
      exact judge_others umemSizeBytes rules tickNs hlength.1 (hfirst d' hd') m
    constructor
    · intro key hkey
      rcases hloop.tx key hkey with hold | ⟨d', hd', hkey', hheader, hturned⟩
      · refine (hstep.tx key hold).imp id ?_
        rintro ⟨d', hd', hkey', hheader, hturned⟩
        rw [List.mem_singleton] at hd'
        subst hd'
        exact ⟨d', List.mem_cons_self, hkey', hheader,
          hturned.congr hheader (SameBytes.refl m) (hlater.mono hlength.1)⟩
      · exact Or.inr ⟨d', List.mem_cons_of_mem d hd', hkey', hheader,
          hturned.congr hheader ((hearlier d' hd').mono (hlength.2 d' hd')).symm
            (SameBytes.refl _)⟩
    · intro frame hframe
      rcases hloop.wheel frame hframe with hold | ⟨d', hd', hkey', hkept⟩
      · refine (hstep.wheel frame hold).imp id ?_
        rintro ⟨d', hd', hkey', hkept⟩
        rw [List.mem_singleton] at hd'
        subst hd'
        exact ⟨d', List.mem_cons_self, hkey', hkept.trans hlater⟩
      · exact Or.inr ⟨d', List.mem_cons_of_mem d hd', hkey', (hearlier d' hd').trans hkept⟩

end

end ChronosX
