import ChronosX.Runtime.Moves
import ChronosX.Runtime.Relay

/-!
# The runtime refines the relay

With a TX ring that can hold the posted frames, the adapter and its kernel go through the states of
the relay: the rings hold the relay's queues, the wheel tracks its delay queue, and every poll is a
turn. The owner tags, the bounds of the rings, the output spans of the data plane and the order in
which the frames of a batch are rewritten cannot be noticed.
-/

namespace ChronosX

open Ledger Mem AfXdpRuntimeAdapter Host TimingWheel

/-! ### Routing and sending -/

namespace Batch

section

variable {shape : WheelShape} {b b' : Batch shape} {r₀ r r' : Relay}

/-- The output spans have room for so many frames. -/
def HasRoom (b : Batch shape) (n : ℕ) : Prop :=
  b.result.txCount + n ≤ b.txOutput.length ∧ b.result.recycleCount + n ≤ b.recycleOutput.length

/-- The batch has put in its outputs and in the wheel what the relay has sent since `r₀`. -/
structure Matches (b : Batch shape) (r₀ r : Relay) : Prop where
  fill_eq : r.fill = r₀.fill ++ b.recycle.map (·.frameAddress)
  tx_eq : r.tx = r₀.tx ++ b.tx.map fun frame => txDescriptor frame.frameAddress frame.frameLength
  tracks : Tracks b.timingWheel r.delayed
  same : r = { r₀ with fill := r.fill, tx := r.tx, delayed := r.delayed }

/-- Frames are emitted, and the relay follows. -/
lemma Matches.emits {sent recycled : List ProcessedFrame} {delayed : List DelayedFrame} {n : ℕ}
    (h : b.Matches r₀ r) (hroom : b.HasRoom (n + 1)) (hemits : Emits b sent recycled delayed b')
    (hsent : sent.length ≤ 1) (hrecycled : recycled.length ≤ 1)
    (hfill : r'.fill = r.fill ++ recycled.map (·.frameAddress))
    (htx : r'.tx = r.tx ++ sent.map fun frame => txDescriptor frame.frameAddress frame.frameLength)
    (htracks : Tracks b'.timingWheel r'.delayed)
    (hsame : r' = { r with fill := r'.fill, tx := r'.tx, delayed := r'.delayed }) :
    b'.Matches r₀ r' ∧ b'.HasRoom n := by
  obtain ⟨hroomTx, hroomRecycle⟩ := hroom
  refine ⟨⟨?_, ?_, htracks, ?_⟩, ?_, ?_⟩
  · rw [hfill, h.fill_eq, hemits.recycle_eq, List.map_append, List.append_assoc]
  · rw [htx, h.tx_eq, hemits.tx_eq, List.map_append, List.append_assoc]
  · rw [hsame, h.same]
  · rw [hemits.txCount_eq, hemits.txOutput_length]
    omega
  · rw [hemits.recycleCount_eq, hemits.recycleOutput_length]
    omega

/-- A frame is recycled. -/
lemma Matches.recycled {n : ℕ} (h : b.Matches r₀ r) (hroom : b.HasRoom (n + 1)) (b₀ : Batch shape)
    (same : b.SameOutputs b₀) (htracks : Tracks b₀.timingWheel r.delayed)
    (processed : ProcessedFrame) :
    (b₀.appendRecycle processed).Matches r₀ (r.recycle processed.frameAddress) ∧
      (b₀.appendRecycle processed).HasRoom n := by
  have hspace : b.result.recycleCount < b.recycleOutput.length :=
    Nat.lt_of_lt_of_le (Nat.lt_add_of_pos_right (Nat.succ_pos n)) hroom.2
  refine h.emits hroom (same.emits_recycled hspace processed) (Nat.zero_le 1) (Nat.le_refl 1) rfl
    (List.append_nil _).symm ?_ rfl
  rw [timingWheel_appendRecycle]
  exact htracks

/-- A frame is transmitted. -/
lemma Matches.transmitted {n : ℕ} (h : b.Matches r₀ r) (hroom : b.HasRoom (n + 1))
    (b₀ : Batch shape) (same : b.SameOutputs b₀)
    (hwheel : b₀.timingWheel = b.timingWheel) (processed : ProcessedFrame) :
    (b₀.transmit processed).Matches r₀
        (r.transmit processed.frameAddress processed.frameLength) ∧
      (b₀.transmit processed).HasRoom n := by
  have hspace : b.result.txCount < b.txOutput.length :=
    Nat.lt_of_lt_of_le (Nat.lt_add_of_pos_right (Nat.succ_pos n)) hroom.1
  refine h.emits hroom (same.emits_transmitted hspace processed) (Nat.le_refl 1) (Nat.zero_le 1)
    (List.append_nil _).symm rfl ?_ rfl
  rw [timingWheel_transmit, hwheel]
  exact h.tracks

/-- The failure counter of the wheel does not matter. -/
lemma tracks_refused {w : TimingWheel shape} {q : DelayQueue DelayedFrame} (h : Tracks w q)
    {frame : DelayedFrame} {k : UInt64} (hs : (w.schedule frame k).1 ≠ .scheduled) :
    Tracks (w.schedule frame k).2 q := by
  rw [schedule_refused hs]
  exact ⟨h.tick_eq, h.within, h.slots_eq, h.count_eq⟩

/-- A verdict is routed as the relay sends it. -/
lemma Matches.route {n : ℕ} (h : b.Matches r₀ r) (hroom : b.HasRoom (n + 1)) (d : PacketDescriptor)
    {processed : ProcessedFrame} (haddress : processed.frameAddress = d.frameAddress)
    (hlength : processed.frameLength = d.frameLength) (verdict : Verdict) :
    ((b.see d).route processed verdict).Matches r₀ (r.send shape d verdict) ∧
      ((b.see d).route processed verdict).HasRoom n := by
  cases verdict with
  | malformed descriptorValid =>
    rw [Relay.send, ← haddress]
    cases descriptorValid with
    | true =>
      exact h.recycled hroom (b.see d).countMalformed.countDropped
        ⟨rfl, rfl, rfl, rfl, fun _ => rfl⟩ h.tracks processed
    | false =>
      exact h.recycled hroom (b.see d).countMalformed.countInvalid.countDropped
        ⟨rfl, rfl, rfl, rfl, fun _ => rfl⟩ h.tracks processed
  | drop =>
    rw [Relay.send, ← haddress]
    exact h.recycled hroom (b.see d).countDropped ⟨rfl, rfl, rfl, rfl, fun _ => rfl⟩ h.tracks
      processed
  | delay frame delayTicks =>
    have hsee : (b.see d).timingWheel = b.timingWheel := rfl
    have hiff := h.tracks.schedule_iff frame delayTicks
    by_cases hs : (b.timingWheel.schedule frame delayTicks).1 = .scheduled
    · have hhold : r.CanHold shape delayTicks.toNat := hiff.mp hs
      simp only [Batch.route, Relay.send, hsee, if_pos hs, if_pos hhold]
      exact h.emits hroom (b.emits_delayed d (Prod.ext hs rfl)) (Nat.zero_le 1) (Nat.zero_le 1)
        (List.append_nil _).symm (List.append_nil _).symm (h.tracks.schedule frame delayTicks hs) rfl
    · have hhold : ¬ r.CanHold shape delayTicks.toNat := fun hhold => hs (hiff.mpr hhold)
      simp only [Batch.route, Relay.send, hsee, if_neg hs, if_neg hhold]
      rw [← haddress]
      refine h.recycled hroom (countScheduleFailure { b.see d with
        timingWheel := (b.timingWheel.schedule frame delayTicks).2 }).countDropped
        ⟨rfl, rfl, rfl, rfl, fun j => ?_⟩ (tracks_refused h.tracks hs) processed
      change ((b.timingWheel.schedule frame delayTicks).2.slots j).frames = _
      rw [schedule_refused hs]
  | transmit corrupted =>
    rw [Relay.send, ← haddress, ← hlength]
    cases corrupted with
    | true =>
      exact h.transmitted hroom (b.see d).countCorrupted ⟨rfl, rfl, rfl, rfl, fun _ => rfl⟩ rfl
        processed
    | false =>
      exact h.transmitted hroom (b.see d) ⟨rfl, rfl, rfl, rfl, fun _ => rfl⟩ rfl processed

/-- The verdicts of a batch are routed as the relay sends them. -/
lemma Matches.routeAll {ds : List PacketDescriptor} {out : PacketDescriptor → ProcessedFrame × Verdict}
    (hout : ∀ d ∈ ds, (out d).1.frameAddress = d.frameAddress ∧
      (out d).1.frameLength = d.frameLength)
    (h : b.Matches r₀ r) (hroom : b.HasRoom ds.length) :
    (b.routeAll (ds.map fun d => (d, out d))).Matches r₀
      (ds.foldl (fun r d => r.send shape d (out d).2) r) := by
  induction ds generalizing b r with
  | nil => exact h
  | cons d ds ih =>
    rw [List.forall_mem_cons] at hout
    obtain ⟨hmatches, hrest⟩ := h.route hroom d hout.1.1 hout.1.2 (out d).2
    exact ih hout.2 hmatches hrest

end

end Batch

/-! ### The data plane -/

section

variable {shape : RuntimeShape} {names : Multiset UInt64} {rest : Multiset Entry}
  {a : AfXdpRuntimeAdapter shape}

/-- The packets that the data plane is given. -/
def AfXdpRuntimeAdapter.packets (a : AfXdpRuntimeAdapter shape) : List PacketDescriptor :=
  a.received.map Poll.packetDescriptor

lemma AfXdpRuntimeAdapter.length_packets_le (a : AfXdpRuntimeAdapter shape) :
    a.packets.length ≤ kDataPlaneBatchSize := by
  rw [packets, List.length_map]
  exact List.length_take_le _ _

/-- The received packets lie in the UMEM, apart from each other. -/
lemma AfXdpRuntimeAdapter.Keeps.packets_apart (h : a.Keeps names rest)
    (hlength : ∀ rx ∈ a.received, rx.length.toNat ≤ shape.umem.frameSize.toNat) :
    (∀ d ∈ a.packets, d.Valid (some 0) shape.umem.umemSizeBytes) ∧
      a.packets.Pairwise PacketDescriptor.Disjoint := by
  have hfits : ∀ d ∈ a.packets, d.frameLength.toNat ≤ shape.umem.frameSize.toNat := by
    intro d hd
    obtain ⟨rx, hrx, rfl⟩ := List.mem_map.mp hd
    exact hlength rx hrx
  constructor
  · intro d hd
    refine (d.valid_iff _ _).mpr ⟨0, rfl, ?_⟩
    obtain ⟨rx, hrx, rfl⟩ := List.mem_map.mp hd
    obtain ⟨i, hi⟩ := h.exists_address (h.received_mem hrx)
    rw [Poll.packetDescriptor, hi]
    exact shape.umem.address_add_le i (hlength rx hrx)
  · refine h.received_apart.imp_of_mem ?_
    intro d d' hd hd' hapart x hx hx'
    exact hapart x ⟨hx.1, hx.2.trans_le (Nat.add_le_add_left (hfits d hd) _)⟩
      ⟨hx'.1, hx'.2.trans_le (Nat.add_le_add_left (hfits d' hd') _)⟩

/-- The data plane does to the batch what the relay does. -/
lemma plane_matches {r : Relay} (h : a.Keeps names rest)
    (hlength : ∀ rx ∈ a.received, rx.length.toNat ≤ shape.umem.frameSize.toNat)
    (hrx : a.socket.rxRing.toList = r.rx) (humem : a.umem = r.umem)
    (htracks : Tracks a.timingWheel r.delayed) (rules : List ChaosRule) :
    (a.plane rules).1.Matches r.beginTurn (r.batch.foldl (fun r' d =>
      r'.send shape.wheel d (r.verdict rules d)) r.beginTurn) ∧
    (a.plane rules).2 = forwardAll rules r.umem r.batch r.umem := by
  obtain ⟨hvalid, hdisjoint⟩ := h.packets_apart hlength
  have hbatch : r.batch = a.packets := by rw [Relay.batch, ← hrx]; rfl
  rw [hbatch, ← humem]
  have hjudged : a.packets.map (judged (some 0) shape.umem.umemSizeBytes rules
      kDefaultTimingWheelTickNs a.umem) =
      a.packets.map fun d => (d, processedFrame rules (packetOf 0 d a.umem) d, r.verdict rules d) := by
    refine List.map_congr_left fun d hd => ?_
    rw [judged, run_judge shape.umem.umemSizeBytes rules _ 0 a.umem (hvalid d hd), Relay.verdict,
      humem]
  have hplane : (a.plane rules).1 = Batch.routeAll
      { timingWheel := a.timingWheel.tick.2, txOutput := List.replicate kDataPlaneBatchSize {}
        recycleOutput := List.replicate kDataPlaneBatchSize {} }
      (a.packets.map fun d => (d, processedFrame rules (packetOf 0 d a.umem) d, r.verdict rules d)) := by
    rw [← hjudged, ← zip_judgeAll (some 0) _ rules _ hdisjoint, plane, processPacketBatch,
      run_processDescriptors]
    rfl
  have humem' : (a.plane rules).2 = forwardAll rules a.umem a.packets a.umem := by
    rw [plane, processPacketBatch, run_processDescriptors]
    exact judgeAll_snd _ rules _ hvalid hdisjoint fun d _ => SameBytes.refl _
  refine ⟨?_, humem'⟩
  rw [hplane]
  refine Batch.Matches.routeAll (fun d _ => ⟨rfl, rfl⟩) ⟨?_, ?_, htracks.tick, rfl⟩ ?_
  · exact (List.append_nil _).symm
  · exact (List.append_nil _).symm
  · have hroom := a.length_packets_le
    constructor
    · simpa using hroom
    · simpa using hroom

end

/-! ### The host -/

namespace Host

variable {shape : RuntimeShape} {s s' : Host shape} {r : Relay} {names : Multiset UInt64}
  {stranded : Multiset Entry}

/-- The host is in the state of the relay. -/
structure Refines (s : Host shape) (r : Relay) : Prop where
  fill_eq : s.runtime.socket.fillRing.toList = r.fill
  rxCustody_eq : s.rxCustody = r.rxCustody
  rx_eq : s.runtime.socket.rxRing.toList = r.rx
  tracks : Tracks s.runtime.timingWheel r.delayed
  tx_eq : s.runtime.socket.txRing.toList = r.tx
  txCustody_eq : s.txCustody = r.txCustody
  completion_eq : s.runtime.socket.completionRing.toList = r.completion
  umem_eq : s.runtime.umem = r.umem

/-- `init` does not write to the UMEM. -/
lemma umem_postFrames (a : AfXdpRuntimeAdapter shape) (count : ℕ) :
    (a.postFrames count).2.umem = a.umem := by
  induction count generalizing a with
  | zero => rfl
  | succ count ih =>
    simp only [postFrames]
    split_ifs
    · rfl
    · rfl
    · rw [ih]

lemma refines_start {count : ℕ} (hok : ((fresh : AfXdpRuntimeAdapter shape).init count).1 = .ok) :
    (start shape count).Refines { fill := posted shape count } := by
  obtain ⟨hposting, -, -⟩ := init_posting hok
  refine ⟨rfl, rfl, hposting.rxRing_eq, ?_, hposting.txRing_eq, rfl, hposting.completionRing_eq, ?_⟩
  · rw [hposting.wheel_eq]
    exact tracks_fresh
  · rw [start, init_eq rfl, umem_postFrames]
    rfl

/-- The kernel's steps are those of the relay's kernel. -/
lemma Refines.kernel (h : s.Refines r) (hstep : KernelStep s s') :
    ∃ r', Relay.KernelStep shape.umem.frameSize.toNat r r' ∧ s'.Refines r' := by
  cases hstep with
  | takeFill =>
    obtain ⟨htake, hdrop⟩ := s.runtime.socket.fillRing.consume_spec 1
    refine ⟨_, .takeFill r, ?_, ?_, h.rx_eq, h.tracks, h.tx_eq, h.txCustody_eq, h.completion_eq,
      h.umem_eq⟩
    · rw [Relay.takeFill, ← h.fill_eq]
      exact hdrop
    · rw [Relay.takeFill, ← h.fill_eq, ← h.rxCustody_eq, ← htake]
      rfl
  | @deliver rx umem hcustody hlength hroom hothers =>
    rcases s.runtime.socket.rxRing.produce_singleton rx with ⟨-, -, hlist⟩ | ⟨hfull, -⟩
    · refine ⟨_, .deliver (h.rxCustody_eq ▸ hcustody) hlength (h.umem_eq ▸ hothers), h.fill_eq, ?_,
        ?_, h.tracks, h.tx_eq, h.txCustody_eq, h.completion_eq, rfl⟩
      · rw [Relay.deliver, ← h.rxCustody_eq]
        rfl
      · rw [Relay.deliver, ← h.rx_eq]
        exact hlist
    · exact absurd hfull (Nat.ne_of_lt hroom)
  | takeTx =>
    obtain ⟨htake, hdrop⟩ := s.runtime.socket.txRing.consume_spec 1
    refine ⟨_, .takeTx r, h.fill_eq, h.rxCustody_eq, h.rx_eq, h.tracks, ?_, ?_, h.completion_eq,
      h.umem_eq⟩
    · rw [Relay.takeTx, ← h.tx_eq]
      exact hdrop
    · rw [Relay.takeTx, ← h.tx_eq, ← h.txCustody_eq, ← htake]
      rfl
  | @complete address hcustody hroom =>
    rcases s.runtime.socket.completionRing.produce_singleton address with
      ⟨-, -, hlist⟩ | ⟨hfull, -⟩
    · refine ⟨_, .complete (h.txCustody_eq ▸ hcustody), h.fill_eq, h.rxCustody_eq, h.rx_eq,
        h.tracks, h.tx_eq, ?_, ?_, h.umem_eq⟩
      · rw [Relay.complete, ← h.txCustody_eq]
        rfl
      · rw [Relay.complete, ← h.completion_eq]
        exact hlist
    · exact absurd hfull (Nat.ne_of_lt hroom)

/-- A poll is a turn. -/
lemma Refines.poll (h : s.Refines r) (hholds : s.Holds names stranded) (hroom : s.runtime.Room)
    (hintact : s.Intact) (rules : List ChaosRule) :
    (s.poll rules).Refines (r.turn shape.wheel rules) := by
  obtain ⟨lost, hpolled, -⟩ := hholds.poll rules
  have hmoves := moves hholds.initialized hholds.keeps hroom rules
  obtain ⟨hmatches, humem⟩ := plane_matches hholds.keeps (fun rx hrx => (hintact.received rx hrx).1)
    h.rx_eq h.umem_eq h.tracks rules
  have hsame := hmatches.same
  have hdue : s.runtime.timingWheel.tick.1.map (fun frame =>
      txDescriptor frame.frameAddress frame.frameLength) =
      r.due.map fun frame => txDescriptor frame.frameAddress frame.frameLength := by
    rw [h.tracks.tick_returned, List.map_map]
    rfl
  constructor
  · rw [Relay.turn, hmatches.fill_eq]
    refine hmoves.fill_eq.trans ?_
    rw [completed, h.fill_eq, h.completion_eq]
    rfl
  · rw [Relay.turn, hsame]
    exact h.rxCustody_eq
  · rw [Relay.turn, hsame]
    refine hpolled.rx_eq.trans ?_
    rw [h.rx_eq]
    rfl
  · rw [Relay.turn]
    have htracks := hmatches.tracks
    rw [← hpolled.wheel_eq] at htracks
    exact htracks
  · rw [Relay.turn, hmatches.tx_eq]
    refine hmoves.tx_eq.trans ?_
    rw [hdue, h.tx_eq]
    rfl
  · rw [Relay.turn, hsame]
    exact h.txCustody_eq
  · rw [Relay.turn, hsame]
    refine hmoves.completion_eq.trans ?_
    rw [h.completion_eq]
    rfl
  · rw [Relay.turn, ← humem]
    exact hpolled.umem_eq

/-- The host is always in a state that the relay reaches. -/
lemma exists_refines {count : ℕ}
    (htx : min count shape.umem.frameCount ≤ shape.socket.txSize.toNat)
    (h : Reachable (fun _ => True) count s) :
    ∃ r, Relay.Reachable shape.wheel shape.umem.frameSize.toNat (posted shape count) r ∧
      s.Refines r := by
  induction h with
  | start hok => exact ⟨_, .start, refines_start hok⟩
  | kernel _ hstep ih =>
    obtain ⟨r, hr, hrefines⟩ := ih
    obtain ⟨r', hrstep, hrefines'⟩ := hrefines.kernel hstep
    exact ⟨r', .kernel hr hrstep, hrefines'⟩
  | poll hreachable _ rules ih =>
    obtain ⟨r, hr, hrefines⟩ := ih
    obtain ⟨hholds, hroom⟩ := hreachable.holds_ample htx
    exact ⟨_, .turn hr rules, hrefines.poll hholds hroom hreachable.intact rules⟩

/-- The runtime refines the relay: in every run with a TX ring that can hold the posted frames, with
any rules and any steps of the kernel, the host is in a state that the relay reaches, and each
`poll_once` is a turn of the relay. -/
theorem runtime_refines_relay {count : ℕ}
    (htx : min count shape.umem.frameCount ≤ shape.socket.txSize.toNat)
    (h : Reachable (fun _ => True) count s) :
    ∃ r, Relay.Reachable shape.wheel shape.umem.frameSize.toNat (posted shape count) r ∧
      s.Refines r ∧ ∀ rules, (s.poll rules).Refines (r.turn shape.wheel rules) := by
  obtain ⟨r, hr, hrefines⟩ := exists_refines htx h
  obtain ⟨hholds, hroom⟩ := h.holds_ample htx
  exact ⟨r, hr, hrefines, fun rules => hrefines.poll hholds hroom h.intact rules⟩

/-- The poll that delays a datagram. -/
theorem runtime_refines_relay_marked :
    ∃ r, Relay.Reachable oneTxSlot.wheel 2048 (posted oneTxSlot 1) r ∧ markedReceived.Refines r ∧
      (markedReceived.poll [delayRule 1]).Refines (r.turn oneTxSlot.wheel [delayRule 1]) := by
  obtain ⟨r, hr, hrefines, hpoll⟩ := runtime_refines_relay (by decide) reachable_markedReceived
  exact ⟨r, hr, hrefines, hpoll [delayRule 1]⟩

end Host

end ChronosX
