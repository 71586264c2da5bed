import ChronosX.Runtime.Refinement

/-!
# Delayed frames

A run that goes on from a state, with a count of its polls. A packet that a poll decides to delay is
held and submitted by the poll that its delay names, whatever rules, packets and kernel steps come
in between; or it is refused at once.
-/

namespace ChronosX

open Ledger Mem AfXdpRuntimeAdapter TimingWheel

/-! ### Turns of the relay -/

namespace Relay

variable {shape : WheelShape} {r r' r'' : Relay}

/-- From `r` to `r'` frames were sent and none was received, at the same time. -/
structure Extends (r r' : Relay) : Prop where
  fill : r.fill <+: r'.fill
  accepted : r.delayed.accepted <+: r'.delayed.accepted
  now_eq : r'.delayed.now = r.delayed.now
  rx_eq : r'.rx = r.rx

namespace Extends

lemma refl (r : Relay) : Extends r r := ⟨List.prefix_rfl, List.prefix_rfl, rfl, rfl⟩

lemma trans (h : Extends r r') (h' : Extends r' r'') : Extends r r'' :=
  ⟨h.fill.trans h'.fill, h.accepted.trans h'.accepted, h'.now_eq.trans h.now_eq,
    h'.rx_eq.trans h.rx_eq⟩

/-- What cannot be held now cannot be held later in the turn. -/
lemma length_dueAt_le (h : Extends r r') (t : ℕ) :
    (r.delayed.dueAt t).length ≤ (r'.delayed.dueAt t).length := by
  rw [DelayQueue.dueAt, DelayQueue.dueAt, List.length_map, List.length_map]
  exact (h.accepted.sublist.filter _).length_le

end Extends

lemma extends_recycle (r : Relay) (address : UInt64) : Extends r (r.recycle address) :=
  ⟨List.prefix_append _ _, List.prefix_rfl, rfl, rfl⟩

variable (shape) in
lemma extends_send (r : Relay) (d : PacketDescriptor) (verdict : Verdict) :
    Extends r (r.send shape d verdict) := by
  cases verdict with
  | malformed _ => exact r.extends_recycle _
  | drop => exact r.extends_recycle _
  | delay frame delayTicks =>
    rw [send]
    split_ifs
    · exact ⟨List.prefix_rfl, List.prefix_append _ _, rfl, rfl⟩
    · exact r.extends_recycle _
  | transmit _ => exact ⟨List.prefix_rfl, List.prefix_rfl, rfl, rfl⟩

variable (shape) in
lemma extends_foldl_send (verdict : PacketDescriptor → Verdict) (ds : List PacketDescriptor)
    (r : Relay) : Extends r (ds.foldl (fun r d => r.send shape d (verdict d)) r) := by
  induction ds generalizing r with
  | nil => exact .refl r
  | cons d ds ih => exact (r.extends_send shape d (verdict d)).trans (ih _)

variable (shape) in
/-- A packet that is to be delayed is held, or it is recycled because it cannot be held. -/
lemma held_or_recycled (verdict : PacketDescriptor → Verdict) {ds : List PacketDescriptor}
    {d : PacketDescriptor} (hd : d ∈ ds) {frame : DelayedFrame} {k : UInt64}
    (hverdict : verdict d = .delay frame k) (r : Relay) :
    let r' := ds.foldl (fun r d => r.send shape d (verdict d)) r
    (frame, r.delayed.now + max 1 k.toNat) ∈ r'.delayed.accepted ∨
      (d.frameAddress ∈ r'.fill ∧ ¬ r'.CanHold shape k.toNat) := by
  induction ds generalizing r with
  | nil => exact absurd hd List.not_mem_nil
  | cons e ds ih =>
    rcases List.mem_cons.mp hd with rfl | hd
    · -- this packet: what is decided now stands until the end of the turn
      rw [List.foldl_cons, hverdict]
      have hextends := extends_foldl_send shape verdict ds (r.send shape d (.delay frame k))
      by_cases hhold : r.CanHold shape k.toNat
      · left
        rw [send, if_pos hhold] at hextends ⊢
        exact hextends.accepted.subset (List.mem_append_right _ (List.mem_singleton_self _))
      · right
        rw [send, if_neg hhold] at hextends ⊢
        refine ⟨hextends.fill.subset (List.mem_append_right _ (List.mem_singleton_self _)), ?_⟩
        rintro ⟨hle, hlt⟩
        rw [hextends.now_eq] at hlt
        exact hhold ⟨hle, (hextends.length_dueAt_le _).trans_lt hlt⟩
    · rw [List.foldl_cons]
      have hnow := (r.extends_send shape e (verdict e)).now_eq
      rw [← hnow]
      exact ih hd _

variable (shape) in
/-- The time and the accepted frames after a turn. -/
lemma turn_accepted (r : Relay) (rules : List ChaosRule) :
    (r.turn shape rules).delayed.now = r.delayed.now + 1 ∧
      r.delayed.accepted <+: (r.turn shape rules).delayed.accepted := by
  have hextends := extends_foldl_send shape (r.verdict rules) r.batch r.beginTurn
  exact ⟨hextends.now_eq, hextends.accepted⟩

end Relay

/-! ### The frames in the wheel -/

/-- The wheel holds the pending items, stamped with their due ticks. -/
lemma TimingWheel.Tracks.pending_eq {shape : WheelShape} {w : TimingWheel shape}
    {q : DelayQueue DelayedFrame} (h : Tracks w q) :
    w.pending = ((q.pending.map fun e => stamp e.1 e.2 : List DelayedFrame) : Multiset _) := by
  let residue : DelayedFrame × ℕ → Fin shape.slotCount.toNat := fun e =>
    ⟨e.2 % shape.slotCount.toNat, Nat.mod_lt _ shape.slotCount.toNat_pos⟩
  have hslot : ∀ j, ((w.slots j).frames : Multiset DelayedFrame) =
      Multiset.map (fun e : DelayedFrame × ℕ => stamp e.1 e.2)
        (q.pending.filter (residue · = j) : List (DelayedFrame × ℕ)) := by
    intro j
    rw [h.slots_eq j, Multiset.map_coe]
    simp only [residue, Fin.ext_iff]
  rw [TimingWheel.pending, Finset.sum_congr rfl fun j _ => hslot j, ← Multiset.map_coe,
    ← sum_filter_eq residue q.pending]
  rw [← Multiset.coe_mapAddMonoidHom, map_sum]

/-- An item that is not due yet is in the wheel. -/
lemma TimingWheel.Tracks.mem_pending {shape : WheelShape} {w : TimingWheel shape}
    {q : DelayQueue DelayedFrame} (h : Tracks w q) {frame : DelayedFrame} {t : ℕ}
    (hmem : (frame, t) ∈ q.accepted) (ht : q.now < t) : stamp frame t ∈ w.pending := by
  rw [h.pending_eq, Multiset.mem_coe]
  refine List.mem_map.mpr ⟨(frame, t), List.mem_filter.mpr ⟨hmem, ?_⟩, rfl⟩
  simpa using ht

/-- An item that is due at the next tick is returned by it. -/
lemma TimingWheel.Tracks.mem_tick {shape : WheelShape} {w : TimingWheel shape}
    {q : DelayQueue DelayedFrame} (h : Tracks w q) {frame : DelayedFrame}
    (hmem : (frame, q.now + 1) ∈ q.accepted) : stamp frame (q.now + 1) ∈ w.tick.1 := by
  rw [h.tick_returned]
  refine List.mem_map_of_mem (List.mem_map.mpr ⟨(frame, q.now + 1), ?_, rfl⟩)
  exact List.mem_filter.mpr ⟨hmem, by simp⟩

/-! ### Runs with a count of the polls -/

namespace Host

variable {shape : RuntimeShape} {s s' : Host shape} {r : Relay} {count n : ℕ}

/-- A run of `n` polls, with any rules, and any steps of the kernel. -/
inductive Run : ℕ → Host shape → Host shape → Prop where
  | refl (s : Host shape) : Run 0 s s
  | kernel {n : ℕ} {s s' s'' : Host shape} (run : Run n s s') (step : KernelStep s' s'') :
      Run n s s''
  | poll {n : ℕ} {s s' : Host shape} (run : Run n s s') (rules : List ChaosRule) :
      Run (n + 1) s (s'.poll rules)

lemma Run.reachable (hrun : Run n s s') (h : Reachable (fun _ => True) count s) :
    Reachable (fun _ => True) count s' := by
  induction hrun with
  | refl => exact h
  | kernel _ hstep ih => exact .kernel (ih h) hstep
  | poll _ rules ih => exact .poll (ih h) trivial rules

/-- The relay follows a run, one tick for each poll. -/
lemma Run.refines (htx : min count shape.umem.frameCount ≤ shape.socket.txSize.toNat)
    (hrun : Run n s s') (h : Reachable (fun _ => True) count s) (hrefines : s.Refines r) :
    ∃ r', s'.Refines r' ∧ r'.delayed.now = r.delayed.now + n ∧
      r.delayed.accepted <+: r'.delayed.accepted := by
  induction hrun with
  | refl => exact ⟨r, hrefines, rfl, List.prefix_rfl⟩
  | kernel _ hstep ih =>
    obtain ⟨r', hrefines', hnow, haccepted⟩ := ih h hrefines
    obtain ⟨r'', hkernel, hrefines''⟩ := hrefines'.kernel hstep
    have hdelayed : r''.delayed = r'.delayed := by cases hkernel <;> rfl
    exact ⟨r'', hrefines'', by rw [hdelayed, hnow], by rwa [hdelayed]⟩
  | @poll n s s' hrun rules ih =>
    obtain ⟨r', hrefines', hnow, haccepted⟩ := ih h hrefines
    have hreachable := hrun.reachable h
    obtain ⟨hholds, hroom⟩ := hreachable.holds_ample htx
    obtain ⟨hturn, hprefix⟩ := r'.turn_accepted shape.wheel rules
    exact ⟨_, hrefines'.poll hholds hroom hreachable.intact rules, by rw [hturn, hnow, Nat.add_assoc],
      haccepted.trans hprefix⟩

/-! ### Places -/

lemma InOnePlace.unique {k : UInt64} (h : s.InOnePlace k) (place place' : Place)
    (hk : k ∈ s.contents place) (hk' : k ∈ s.contents place') : place = place' := by
  obtain ⟨only, -, hothers⟩ := h
  have honly : ∀ place, k ∈ s.contents place → place = only := by
    intro place hmem
    by_contra hne
    exact Multiset.count_ne_zero.mpr hmem (hothers place hne)
  rw [honly place hk, honly place' hk']

/-- No address is in a place twice. -/
lemma Holds.contents_nodup {names : Multiset UInt64} {stranded : Multiset Entry}
    (h : s.Holds names stranded) (place : Place) : (s.contents place).Nodup := by
  have hle : s.contents place ≤ ∑ place, s.contents place :=
    Finset.single_le_sum (fun _ _ => Multiset.zero_le _) (Finset.mem_univ place)
  refine Multiset.nodup_of_le (hle.trans ?_) h.nodup
  rw [← h.sum_contents_add]
  exact Multiset.le_add_right _ _

/-- While a frame is in the wheel, nothing is delivered in it. -/
lemma KernelStep.received_eq {names : Multiset UInt64} (h : s.Holds names 0) (hstep : KernelStep s s')
    {k : UInt64} (hk : k ∈ s.contents .timingWheel) : s'.received k = s.received k := by
  cases hstep with
  | @deliver rx umem hcustody hlength hroom hothers =>
    rw [deliver_received, Function.update_of_ne]
    rintro rfl
    have hmem : rx.address ∈ names := by
      rw [← h.sum_contents_add]
      exact Multiset.mem_add.mpr (Or.inl (Multiset.mem_sum.mpr ⟨_, Finset.mem_univ _, hk⟩))
    exact nomatch (h.inOnePlace hmem).unique .timingWheel .rxCustody hk hcustody
  | _ => rfl

/-! ### Held and released -/

section

variable {frame : DelayedFrame} {m : ℕ}

/-- A frame that is due after `m` polls stays in the wheel for fewer polls than that. -/
lemma Run.held (htx : min count shape.umem.frameCount ≤ shape.socket.txSize.toNat)
    (hrun : Run n s s') (h : Reachable (fun _ => True) count s) (hrefines : s.Refines r)
    (hentry : (frame, r.delayed.now + m) ∈ r.delayed.accepted) (hn : n < m) :
    frame.frameAddress ∈ s'.contents .timingWheel := by
  obtain ⟨r', hrefines', hnow, haccepted⟩ := hrun.refines htx h hrefines
  have hpending := hrefines'.tracks.mem_pending (haccepted.subset hentry)
    (by rw [hnow]; exact Nat.add_lt_add_left hn _)
  exact Multiset.mem_map.mpr ⟨_, hpending, rfl⟩

/-- Meanwhile nothing is delivered in the frame. -/
lemma Run.received_eq (htx : min count shape.umem.frameCount ≤ shape.socket.txSize.toNat)
    (hrun : Run n s s') (h : Reachable (fun _ => True) count s) (hrefines : s.Refines r)
    (hentry : (frame, r.delayed.now + m) ∈ r.delayed.accepted) (hn : n < m) :
    s'.received frame.frameAddress = s.received frame.frameAddress := by
  induction hrun with
  | refl => rfl
  | kernel hrun hstep ih =>
    have hheld := hrun.held htx h hrefines hentry hn
    obtain ⟨hholds, -⟩ := (hrun.reachable h).holds_ample htx
    exact (hstep.received_eq hholds hheld).trans (ih h hrefines hn)
  | poll hrun rules ih => exact ih h hrefines (Nat.lt_of_succ_lt hn)

/-- The poll at which the frame is due returns it from the wheel. -/
lemma Run.released (htx : min count shape.umem.frameCount ≤ shape.socket.txSize.toNat)
    (hrun : Run n s s') (h : Reachable (fun _ => True) count s) (hrefines : s.Refines r)
    (hentry : (frame, r.delayed.now + m) ∈ r.delayed.accepted) (hn : n + 1 = m) :
    ∃ released ∈ s'.runtime.timingWheel.tick.1, released.key = frame.key := by
  obtain ⟨r', hrefines', hnow, haccepted⟩ := hrun.refines htx h hrefines
  have hdue : (frame, r'.delayed.now + 1) ∈ r'.delayed.accepted := by
    rw [hnow, Nat.add_assoc, hn]
    exact haccepted.subset hentry
  exact ⟨_, hrefines'.tracks.mem_tick hdue, rfl⟩

end

/-- A frame in the wheel holds what was received in it. -/
lemma Intact.wheel (h : s.Intact) {k : UInt64} (hk : k ∈ s.contents .timingWheel) :
    SameBytes k.toNat shape.umem.frameSize.toNat (s.received k) s.runtime.umem := by
  obtain ⟨frame, hframe, rfl⟩ := Multiset.mem_map.mp hk
  exact (h frame.key (Multiset.mem_add.mpr (Or.inr (Multiset.mem_map_of_mem _ hframe)))).2

lemma filter_eq_singleton {α β : Type} [DecidableEq β] {f : α → β} {l : List α}
    (h : (l.map f).Nodup) {x : α} (hx : x ∈ l) : l.filter (f · = f x) = [x] := by
  induction l with
  | nil => exact absurd hx List.not_mem_nil
  | cons y l ih =>
    rw [List.map_cons, List.nodup_cons] at h
    rcases List.mem_cons.mp hx with rfl | hx
    · rw [List.filter_cons, if_pos (by simp)]
      congr 1
      refine List.filter_eq_nil_iff.mpr fun z hz hzx => h.1 ?_
      rw [← of_decide_eq_true hzx]
      exact List.mem_map_of_mem hz
    · have hne : ¬ f y = f x := fun heq => h.1 (heq ▸ List.mem_map_of_mem hx)
      rw [List.filter_cons, if_neg (by simpa using hne)]
      exact ih h.2 hx

/-- A poll submits a frame that its tick returns, once, with the bytes it has before the poll. -/
lemma submissions_released (htx : min count shape.umem.frameCount ≤ shape.socket.txSize.toNat)
    (h : Reachable (fun _ => True) count s) (rules : List ChaosRule) {frame : DelayedFrame}
    (hframe : frame ∈ s.runtime.timingWheel.tick.1) :
    (submissions (s.runtime.pollOnce rules).2.log).filter (·.1.address = frame.frameAddress) =
      [(txDescriptor frame.frameAddress frame.frameLength, s.runtime.umem)] := by
  obtain ⟨hholds, hroom⟩ := h.holds_ample htx
  have hmoves := moves hholds.initialized hholds.keeps hroom rules
  have hmem : (txDescriptor frame.frameAddress frame.frameLength, s.runtime.umem) ∈
      submissions (s.runtime.pollOnce rules).2.log := by
    rw [hmoves.submissions_eq]
    exact List.mem_append_left _ (List.mem_map.mpr ⟨frame, hframe, rfl⟩)
  refine filter_eq_singleton (f := fun e : TxDescriptor × Umem => e.1.address) ?_ hmem
  -- the submitted descriptors are the last ones on the TX ring
  obtain ⟨hholds', -⟩ := (h.poll trivial rules).holds_ample htx
  have hnodup := hholds'.contents_nodup .txRing
  have hring : (s.poll rules).contents .txRing = (((s.runtime.socket.txRing.toList.map (·.address)) ++
      (submissions (s.runtime.pollOnce rules).2.log).map (fun e => e.1.address) : List UInt64) :
        Multiset UInt64) := by
    change (((s.runtime.pollOnce rules).2.adapter.socket.txRing.toList.map (·.address) :
      List UInt64) : Multiset UInt64) = _
    rw [hmoves.tx_eq, hmoves.submissions_eq]
    simp only [List.map_append, List.map_map, List.append_assoc]
    rfl
  rw [hring, Multiset.coe_nodup] at hnodup
  exact hnodup.of_append_right

/-- The frame that a delay decision schedules. -/
lemma verdictOf_delay {rules : List ChaosRule} {packet : PacketView} {tickNs : UInt64}
    {d : PacketDescriptor} {frame : DelayedFrame} {k : UInt64}
    (h : verdictOf rules packet tickNs d = .delay frame k) :
    frame.key = (d.frameAddress, d.frameLength) := by
  rw [verdictOf] at h
  split_ifs at h
  obtain ⟨rfl, -⟩ := Verdict.delay.inj h
  rfl

/-- A packet that cannot be held meets a full slot, or is to be delayed for more than a rotation. -/
lemma Refines.not_canHold (h : s.Refines r) {k : UInt64} (hk : ¬ r.CanHold shape.wheel k.toNat) :
    shape.wheel.slotCount.toNat < k.toNat ∨
      (s.runtime.timingWheel.slots (shape.wheel.slotCount.slot
        (s.runtime.timingWheel.releaseTick k))).count = shape.wheel.maxFramesPerSlot := by
  rcases Nat.lt_or_ge shape.wheel.slotCount.toNat k.toNat with hlong | hle
  · exact Or.inl hlong
  · right
    have hcount := h.tracks.count_slot (UInt64.le_iff_toNat_le.mpr hle)
    refine Nat.le_antisymm (Slot.bounded _) ?_
    rw [hcount]
    exact Nat.not_lt.mp fun hlt => hk ⟨hle, hlt⟩

/-- With a TX ring that has a slot for every posted frame, every packet that a poll decides to delay
by `k` ticks is recycled at once, because the delay exceeds a rotation or its slot is full; or, in
every run that follows, it waits in the wheel with the bytes in which it was received until the
`max 1 k`-th next poll, which submits it, once and as it is. -/
theorem delayed_on_time (htx : min count shape.umem.frameCount ≤ shape.socket.txSize.toNat)
    (h : Reachable (fun _ => True) count s) (rules : List ChaosRule) {d : PacketDescriptor}
    (hd : d ∈ s.runtime.packets) {frame : DelayedFrame} {k : UInt64}
    (hverdict : verdictOf rules (packetOf 0 d s.runtime.umem) kDefaultTimingWheelTickNs d =
      .delay frame k) :
    let polled := s.poll rules
    let wheel := polled.runtime.timingWheel
    (d.frameAddress ∈ polled.runtime.socket.fillRing.toList ∧
      (shape.wheel.slotCount.toNat < k.toNat ∨
        (wheel.slots (shape.wheel.slotCount.slot (wheel.releaseTick k))).count =
          shape.wheel.maxFramesPerSlot)) ∨
    ∀ n s', Run n polled s' → n < max 1 k.toNat →
      (s'.contents .timingWheel).count d.frameAddress = 1 ∧
      SameBytes d.frameAddress.toNat shape.umem.frameSize.toNat s.runtime.umem s'.runtime.umem ∧
      (n + 1 = max 1 k.toNat → ∀ rules',
        (submissions (s'.runtime.pollOnce rules').2.log).filter (·.1.address = d.frameAddress) =
          [(txDescriptor d.frameAddress d.frameLength, s'.runtime.umem)]) := by
  intro polled wheel
  obtain ⟨hholds, hroom⟩ := h.holds_ample htx
  have hpolled : Reachable (fun _ => True) count polled := h.poll trivial rules
  obtain ⟨r, -, hrefines⟩ := exists_refines htx h
  have hturn : polled.Refines (r.turn shape.wheel rules) :=
    hrefines.poll hholds hroom h.intact rules
  obtain ⟨haddress, hlength⟩ := Prod.mk.inj (verdictOf_delay hverdict)
  have hbatch : d ∈ r.batch := by
    rw [Relay.batch, ← hrefines.rx_eq]
    exact hd
  rw [hrefines.umem_eq] at hverdict
  rcases Relay.held_or_recycled shape.wheel (r.verdict rules) hbatch hverdict r.beginTurn with
    hentry | ⟨hfill, hhold⟩
  · right
    intro n s' hrun hn
    have hdue : (frame, (r.turn shape.wheel rules).delayed.now + max 1 k.toNat) ∈
        (r.turn shape.wheel rules).delayed.accepted := by
      rw [(r.turn_accepted shape.wheel rules).1]
      exact hentry
    have hreachable := hrun.reachable hpolled
    obtain ⟨hholds', -⟩ := hreachable.holds_ample htx
    have hheld := hrun.held htx hpolled hturn hdue hn
    rw [haddress] at hheld
    refine ⟨Multiset.count_eq_one_of_mem (hholds'.contents_nodup _) hheld, ?_, ?_⟩
    · -- the bytes received in the frame are there at both ends
      have hreceived := hrun.received_eq htx hpolled hturn hdue hn
      rw [haddress] at hreceived
      obtain ⟨rx, hrx, rfl⟩ := List.mem_map.mp hd
      have hbefore := (h.intact.received rx hrx).2
      have hafter := hreachable.intact.wheel hheld
      rw [hreceived] at hafter
      exact hbefore.symm.trans hafter
    · intro hlast rules'
      obtain ⟨released, hmem, hkey⟩ := hrun.released htx hpolled hturn hdue hlast
      obtain ⟨haddress', hlength'⟩ := Prod.mk.inj hkey
      rw [← haddress, ← hlength, ← haddress', ← hlength']
      exact submissions_released htx hreachable rules' hmem
  · left
    refine ⟨?_, hturn.not_canHold hhold⟩
    rw [hturn.fill_eq]
    exact hfill

/-- A datagram delayed by one tick is submitted by the next poll. -/
theorem delayed_on_time_marked :
    let polled := markedReceived.poll [delayRule 1]
    (submissions (polled.runtime.pollOnce []).2.log).filter (·.1.address = 0) =
      [(⟨0, 42, 0⟩, polled.runtime.umem)] := by
  intro polled
  have hd : (⟨0, 42, 0⟩ : PacketDescriptor) ∈ markedReceived.runtime.packets := by decide
  have hverdict : verdictOf [delayRule 1] (packetOf 0 ⟨0, 42, 0⟩ markedReceived.runtime.umem)
      kDefaultTimingWheelTickNs ⟨0, 42, 0⟩ = .delay { frameAddress := 0, frameLength := 42 } 1 := by
    decide +kernel
  rcases delayed_on_time (by decide) reachable_markedReceived [delayRule 1] hd hverdict with
    ⟨hfill, -⟩ | hheld
  · exact absurd hfill (by decide +kernel)
  · exact (hheld 0 polled (.refl _) (by decide)).2.2 rfl []

end Host

end ChronosX
