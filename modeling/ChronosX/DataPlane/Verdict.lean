import ChronosX.DataPlane.Basic
import ChronosX.Parser.Properties

/-!
# Judging and routing

The loop body of `process_packet_batch` does two things that do not interfere. It reads the
frame, decides, and rewrites the frame: this depends on the UMEM and the rules alone and is
`judge`. Then it counts and sends the descriptor on: this depends on the verdict and the batch
state alone and is `Batch.route`.
-/

namespace ChronosX

open Mem

/-- What the loop body decides about a frame. -/
inductive Verdict where
  | malformed (descriptorValid : Bool)
  | drop
  | delay (delayed : DelayedFrame) (delayTicks : UInt64)
  | transmit (corrupted : Bool)
deriving DecidableEq, Repr

namespace Batch

variable {shape : WheelShape} (b : Batch shape)

/-- Where the loop body sends a frame and what it counts. -/
def route (processed : ProcessedFrame) : Verdict → Batch shape
  | .malformed descriptorValid =>
    let b := b.countMalformed
    let b := if !descriptorValid then b.countInvalid else b
    b.countDropped.appendRecycle processed
  | .drop => b.countDropped.appendRecycle processed
  | .delay delayed delayTicks =>
    let scheduled := b.timingWheel.schedule delayed delayTicks
    let b := { b with timingWheel := scheduled.2 }
    if scheduled.1 = .scheduled then b.countDelayed
    else b.countScheduleFailure.countDropped.appendRecycle processed
  | .transmit corrupted =>
    let b := if corrupted then b.countCorrupted else b
    b.transmit processed

/-- Route the verdicts of a batch in order. -/
def routeAll (b : Batch shape) (l : List (PacketDescriptor × ProcessedFrame × Verdict)) :
    Batch shape :=
  l.foldl (fun b entry => (b.see entry.1).route entry.2.1 entry.2.2) b

end Batch

section

variable {shape : WheelShape} (umemBase : Option ℕ) (umemSizeBytes : UInt64)
  (rules : List ChaosRule) (tickNs : UInt64)

/-- The part of the loop body that touches the UMEM. -/
def judge (descriptor : PacketDescriptor) : UmemProg (ProcessedFrame × Verdict) := do
  let descriptorValid := umemBase.isSome && descriptorWithinUmem descriptor umemSizeBytes
  let frame := if descriptorValid then umemBase.map (· + descriptor.frameAddress.toNat) else none
  let packet ← parsePacket frame descriptor.frameLength.toNat
  let decision := if packet.ok then decidePacketFast packet rules else passDecision
  let processed : ProcessedFrame :=
    { frameAddress := descriptor.frameAddress, frameLength := descriptor.frameLength
      ruleId := decision.ruleId, action := decision.action }
  if !descriptorValid || !packet.ok then
    return (processed, .malformed descriptorValid)
  if decision.shouldDrop then
    return (processed, .drop)
  if decision.shouldDelay then
    let delayed : DelayedFrame :=
      { frameAddress := descriptor.frameAddress, frameLength := descriptor.frameLength
        ruleId := decision.ruleId, releaseTick := 0 }
    return (processed, .delay delayed (delayNsToTicks decision.delayNs tickNs))
  let corrupted ← applyCorruption decision frame packet
  match frame with
  | none => return (processed, .transmit corrupted)
  | some frame =>
    let _ ← swapEthernetMacs frame descriptor.frameLength.toNat
    return (processed, .transmit corrupted)

/-- Judge the descriptors of a batch one after another. -/
def judgeAll : List PacketDescriptor → UmemProg (List (ProcessedFrame × Verdict))
  | [] => return []
  | descriptor :: descriptors => do
    let judged ← judge umemBase umemSizeBytes rules tickNs descriptor
    let rest ← judgeAll descriptors
    return judged :: rest

/-- The loop body judges, then routes. -/
lemma run_processDescriptor (b : Batch shape) (d : PacketDescriptor) (m : Umem) :
    run (processDescriptor umemBase umemSizeBytes rules tickNs b d) m =
      ((b.see d).route (run (judge umemBase umemSizeBytes rules tickNs d) m).1.1
          (run (judge umemBase umemSizeBytes rules tickNs d) m).1.2,
        (run (judge umemBase umemSizeBytes rules tickNs d) m).2) ∧
    accesses (processDescriptor umemBase umemSizeBytes rules tickNs b d) m =
      accesses (judge umemBase umemSizeBytes rules tickNs d) m := by
  unfold processDescriptor judge
  simp only [run_bind, accesses_bind]
  generalize run (parsePacket _ _) m = parsed
  obtain ⟨packet, m'⟩ := parsed
  generalize (umemBase.isSome && descriptorWithinUmem d umemSizeBytes) = valid
  generalize (if packet.ok then decidePacketFast packet rules else passDecision) = decision
  simp only [List.append_cancel_left_eq]
  by_cases hbad : (!valid || !packet.ok) = true
  · rw [if_pos hbad, if_pos hbad]
    exact ⟨rfl, rfl⟩
  rw [if_neg hbad, if_neg hbad]
  by_cases hdrop : decision.shouldDrop = true
  · rw [if_pos hdrop, if_pos hdrop]
    exact ⟨rfl, rfl⟩
  rw [if_neg hdrop, if_neg hdrop]
  by_cases hdelay : decision.shouldDelay = true
  · rw [if_pos hdelay, if_pos hdelay]
    simp only [run_pure, accesses_pure, Batch.route]
    split_ifs
    · exact ⟨rfl, rfl⟩
    · exact ⟨rfl, rfl⟩
  rw [if_neg hdelay, if_neg hdelay, run_bind, run_bind, accesses_bind, accesses_bind]
  cases (if valid = true then umemBase.map (· + d.frameAddress.toNat) else none) with
  | none => exact ⟨rfl, rfl⟩
  | some frame => simp only [run_bind, run_pure, accesses_bind, accesses_pure, Batch.route, and_self]

/-- A batch is judged descriptor by descriptor, and the verdicts are routed in order. -/
lemma run_processDescriptors (b : Batch shape) (ds : List PacketDescriptor) (m : Umem) :
    run (processDescriptors umemBase umemSizeBytes rules tickNs b ds) m =
      (b.routeAll (ds.zip (run (judgeAll umemBase umemSizeBytes rules tickNs ds) m).1),
        (run (judgeAll umemBase umemSizeBytes rules tickNs ds) m).2) := by
  induction ds generalizing b m with
  | nil => rfl
  | cons d ds ih =>
    simp only [processDescriptors, judgeAll, run_bind, run_pure, ih,
      (run_processDescriptor umemBase umemSizeBytes rules tickNs b d m).1]
    rfl

end

/-! ### What judging does to the UMEM -/

/-- The memory with the first two 6-byte fields of the frame exchanged. -/
def swapMacs (frame : ℕ) (m : Umem) : Umem := fun x =>
  if frame ≤ x ∧ x < frame + 6 then m (x + 6)
  else if frame + 6 ≤ x ∧ x < frame + 12 then m (x - 6)
  else m x

/-- The memory with the lowest bit of one byte flipped. -/
def flipBit (x : ℕ) (m : Umem) : Umem := Function.update m x (m x ^^^ 0x01)

/-- The loop of `swap_ethernet_macs` exchanges the byte pairs it still has to visit. -/
lemma run_swapMacBytes (frame : ℕ) (m : Umem) {count index : ℕ} (h : index + count ≤ 6)
    (x : ℕ) : (run (swapMacBytes frame count index) m).2 x =
      if frame + index ≤ x ∧ x < frame + index + count then m (x + 6)
      else if frame + index + 6 ≤ x ∧ x < frame + index + 6 + count then m (x - 6)
      else m x := by
  induction count generalizing index m with
  | zero =>
    rw [if_neg (by omega), if_neg (by omega)]
    rfl
  | succ count ih =>
    simp only [swapMacBytes, readByte, run_bind, run_read, run_write]
    rw [ih _ (by omega)]
    -- the pair visited now lies outside the pairs still to visit
    by_cases hlow : x = frame + index
    · subst hlow
      rw [if_neg (by omega), if_neg (by omega), if_pos (by omega),
        Function.update_of_ne (by omega), Function.update_self]
      rfl
    by_cases hhigh : x = frame + (index + 6)
    · subst hhigh
      rw [if_neg (by omega), if_neg (by omega), if_neg (by omega), if_pos (by omega),
        Function.update_self]
      congr 1
    have hold : ∀ y, y ≠ frame + index → y ≠ frame + (index + 6) →
        Function.update (Function.update m (frame + index) (m (frame + (index + 6))))
          (frame + (index + 6)) (m (frame + index)) y = m y := by
      intro y hy hy'
      rw [Function.update_of_ne hy', Function.update_of_ne hy]
    split_ifs <;> first | omega | exact hold _ (by omega) (by omega)

lemma swapMacBytes_accesses (frame : ℕ) (m : Umem) {count index : ℕ} (h : index + count ≤ 6) :
    ∀ x ∈ accesses (swapMacBytes frame count index) m, frame ≤ x ∧ x < frame + 12 := by
  induction count generalizing index m with
  | zero =>
    intro x hx
    simp [swapMacBytes] at hx
  | succ count ih =>
    intro x hx
    simp only [swapMacBytes, readByte, accesses_bind, accesses_read, accesses_write, run_read,
      run_write, List.mem_append, List.mem_singleton] at hx
    rcases hx with rfl | rfl | rfl | rfl | hx
    · omega
    · omega
    · omega
    · omega
    · exact ih _ (by omega) x hx

lemma swapEthernetMacs_sat (frame size : ℕ) (m : Umem) (h : kEthernetHeaderBytes ≤ size) :
    Sat (InFrame frame size) (swapEthernetMacs frame size) m fun _ m' =>
      m' = swapMacs frame m := by
  unfold swapEthernetMacs
  rw [if_neg (Nat.not_lt.mpr h)]
  constructor
  · intro x hx
    simp only [accesses_bind, accesses_pure, List.append_nil] at hx
    obtain ⟨hle, hlt⟩ := swapMacBytes_accesses frame m (by omega) x hx
    simp only [kEthernetHeaderBytes] at h
    exact ⟨hle, by omega⟩
  · funext x
    simp only [run_bind, run_pure, run_swapMacBytes frame m (show 0 + 6 ≤ 6 by omega)]
    rfl

/-- An accepted packet's payload lies inside its frame, so the second bounds check of
`corrupt_packet_payload` never fails. -/
lemma PacketView.Nested.payload_lt {view : PacketView} (h : view.Nested) (selector : UInt64)
    (hpayload : view.payloadLength ≠ 0) :
    view.payloadOffset + selector.toNat % view.payloadLength < view.frameLength := by
  have hmod := Nat.mod_lt selector.toNat (Nat.pos_of_ne_zero hpayload)
  have := h.payload_le
  have := h.total_le
  omega

/-- The byte lies in the payload of the packet in the frame. -/
def InPayload (frame : ℕ) (view : PacketView) (x : ℕ) : Prop :=
  InFrame (frame + view.payloadOffset) view.payloadLength x

lemma corruptPacketPayload_sat {frame length : ℕ} {view : PacketView} (m : Umem)
    (selector : UInt64) (hview : Parsed frame length view) (hok : view.ok = true) :
    Sat (InFrame frame length) (corruptPacketPayload (some frame) view selector) m
      fun corrupted m' => (corrupted = false ∧ m' = m) ∨
        (corrupted = true ∧ ∃ x, InPayload frame view x ∧ m' = flipBit x m) := by
  unfold corruptPacketPayload
  refine Sat.ite (fun _ => ?_) (fun hguard => ?_)
  · exact Sat.pure (Or.inl ⟨rfl, rfl⟩)
  simp only [hok, not_or] at hguard
  have hlt := (hview.nested hok).payload_lt selector hguard.2.1
  refine Sat.ite (fun hlate => ?_) (fun _ => ?_)
  · exact absurd hlt (Nat.not_lt.mpr hlate)
  rw [hview.frameLength_eq] at hlt
  refine Sat.bind (readByte_sat m hlt) ?_
  rintro value m ⟨rfl, rfl⟩
  refine Sat.bind (Sat.write (Q := fun _ m' => m' = flipBit _ m) ⟨by omega, by omega⟩ rfl) ?_
  rintro _ _ rfl
  refine Sat.pure (Or.inr ⟨rfl, _, ?_, rfl⟩)
  have hmod := Nat.mod_lt selector.toNat (Nat.pos_of_ne_zero hguard.2.1)
  exact ⟨by omega, by omega⟩

/-- The frame has its MAC addresses exchanged and at most one payload bit flipped. -/
inductive TurnedAround (frame : ℕ) (view : PacketView) (m : Umem) : Umem → Prop
  | swapped : TurnedAround frame view m (swapMacs frame m)
  | corrupted (x : ℕ) (hx : InPayload frame view x) :
      TurnedAround frame view m (swapMacs frame (flipBit x m))

section

variable (umemBase : Option ℕ) (umemSizeBytes : UInt64) (rules : List ChaosRule)
  (tickNs : UInt64)

/-- The byte belongs to the descriptor: a UMEM is there, the descriptor's range ends inside it,
and the byte lies in that range. -/
def OwnByte (d : PacketDescriptor) (x : ℕ) : Prop :=
  ∃ base, umemBase = some base ∧
    d.frameAddress.toNat + d.frameLength.toNat ≤ umemSizeBytes.toNat ∧
    InFrame (base + d.frameAddress.toNat) d.frameLength.toNat x

/-- The memory a verdict leaves: only a transmitted frame is rewritten. -/
def Verdict.Effect (d : PacketDescriptor) (m m' : Umem) : Verdict → Prop
  | .malformed _ => m' = m
  | .drop => m' = m
  | .delay delayed _ => m' = m ∧ delayed.frameAddress = d.frameAddress ∧
      delayed.frameLength = d.frameLength
  | .transmit _ => ∃ base, umemBase = some base ∧
      let view := (run (parsePacket (some (base + d.frameAddress.toNat)) d.frameLength.toNat) m).1
      view.ok = true ∧ TurnedAround (base + d.frameAddress.toNat) view m m'

/-- What judging a descriptor promises. -/
structure Judgement (d : PacketDescriptor) (m : Umem) (out : ProcessedFrame × Verdict)
    (m' : Umem) : Prop where
  address_eq : out.1.frameAddress = d.frameAddress
  length_eq : out.1.frameLength = d.frameLength
  effect : out.2.Effect umemBase d m m'

lemma descriptorWithinUmem_iff (d : PacketDescriptor) :
    descriptorWithinUmem d umemSizeBytes = true ↔
      d.frameAddress.toNat + d.frameLength.toNat ≤ umemSizeBytes.toNat := by
  have hlt := d.frameAddress.toNat_lt
  unfold descriptorWithinUmem
  rw [if_neg (by omega)]
  split_ifs with hbig
  · rw [gt_iff_lt, UInt64.lt_iff_toNat_lt] at hbig
    constructor
    · intro hfalse
      cases hfalse
    · omega
  · have hle : d.frameAddress ≤ umemSizeBytes := UInt64.not_lt.mp hbig
    rw [decide_eq_true_iff, UInt64.le_iff_toNat_le, UInt64.toNat_sub_of_le _ _ hle,
      UInt32.toNat_toUInt64]
    have := UInt64.le_iff_toNat_le.mp hle
    omega

/-- A frame with an accepted packet holds an Ethernet header. -/
lemma Parsed.ethernet_le {frame length : ℕ} {view : PacketView} (hview : Parsed frame length view)
    (hok : view.ok = true) : kEthernetHeaderBytes ≤ length := by
  have hnested := hview.nested hok
  have hheader := hnested.header_le
  have hl4 := hnested.l4Offset_le
  have hpayload := hnested.payload_le
  have htotal := hnested.total_le
  rw [hview.frameLength_eq] at htotal
  simp only [kEthernetHeaderBytes]
  omega

/-- The program that corrupts as decided and swaps the MAC addresses turns the frame around. -/
lemma turnAround_sat {frame length : ℕ} {view : PacketView} (m : Umem) (decision : ChaosDecision)
    (hview : Parsed frame length view) (hok : view.ok = true) {α : Type} (f : Bool → α) :
    Sat (InFrame frame length)
      (do
        let corrupted ← applyCorruption decision (some frame) view
        let _ ← swapEthernetMacs frame length
        return f corrupted) m
      fun out m' => (∃ corrupted, out = f corrupted) ∧ TurnedAround frame view m m' := by
  have hcorrupt : Sat (InFrame frame length) (applyCorruption decision (some frame) view) m
      fun _ m' => m' = m ∨ ∃ x, InPayload frame view x ∧ m' = flipBit x m := by
    refine Sat.ite (fun _ => ?_) (fun _ => Sat.pure (Or.inl rfl))
    refine (corruptPacketPayload_sat m _ hview hok).mono (fun _ h => h) ?_
    rintro _ m' (⟨-, rfl⟩ | ⟨-, hflip⟩)
    · exact Or.inl rfl
    · exact Or.inr hflip
  refine Sat.bind hcorrupt ?_
  intro corrupted m₁ hm₁
  refine Sat.bind (swapEthernetMacs_sat frame length m₁ (hview.ethernet_le hok)) ?_
  rintro _ _ rfl
  refine Sat.pure ⟨⟨corrupted, rfl⟩, ?_⟩
  rcases hm₁ with rfl | ⟨x, hx, rfl⟩
  · exact .swapped
  · exact .corrupted x hx

/-- Judging touches the descriptor's own bytes only, and rewrites only what is transmitted. -/
lemma judge_sat (d : PacketDescriptor) (m : Umem) :
    Sat (OwnByte umemBase umemSizeBytes d) (judge umemBase umemSizeBytes rules tickNs d) m
      (Judgement umemBase d m) := by
  unfold judge
  cases hvalid : (umemBase.isSome && descriptorWithinUmem d umemSizeBytes) with
  | false =>
    obtain ⟨hmem, htrace, hok⟩ := parsePacket_none d.frameLength.toNat m
    constructor
    · intro x hx
      simp [accesses_bind, htrace] at hx
    · simp only [run_bind, Bool.false_eq_true, if_false, Bool.not_false, Bool.true_or, if_true,
        run_pure, hmem]
      exact ⟨rfl, rfl, rfl⟩
  | true =>
    obtain ⟨hsome, hwithin⟩ := Bool.and_eq_true_iff.mp hvalid
    obtain ⟨base, rfl⟩ := Option.isSome_iff_exists.mp hsome
    rw [descriptorWithinUmem_iff] at hwithin
    simp only [if_true, Option.map_some, Bool.not_true, Bool.false_or]
    have hown : ∀ x, InFrame (base + d.frameAddress.toNat) d.frameLength.toNat x →
        OwnByte (some base) umemSizeBytes d x := fun x hx => ⟨base, rfl, hwithin, hx⟩
    have hparse := parsePacket_sat (base + d.frameAddress.toNat) d.frameLength.toNat m
    refine Sat.mono ?_ hown (fun _ _ h => h)
    refine Sat.bind (Q := fun view m' => m' = m ∧
      Parsed (base + d.frameAddress.toNat) d.frameLength.toNat view ∧
      view = (run (parsePacket (some (base + d.frameAddress.toNat)) d.frameLength.toNat) m).1)
      ⟨hparse.accesses_ok, hparse.post.1, hparse.post.2, rfl⟩ ?_
    rintro view _ ⟨rfl, hview, hrun⟩
    refine Sat.ite (fun _ => ?_) (fun hok => ?_)
    · exact Sat.pure ⟨rfl, rfl, rfl⟩
    refine Sat.ite (fun _ => ?_) (fun _ => ?_)
    · exact Sat.pure ⟨rfl, rfl, rfl⟩
    refine Sat.ite (fun _ => ?_) (fun _ => ?_)
    · exact Sat.pure ⟨rfl, rfl, rfl, rfl, rfl⟩
    have hok' : view.ok = true := by simpa using hok
    refine (turnAround_sat _ _ hview hok' _).mono (fun _ h => h) ?_
    rintro _ m' ⟨⟨corrupted, rfl⟩, hturned⟩
    refine ⟨rfl, rfl, base, rfl, ?_⟩
    rw [← hrun]
    exact ⟨hok', hturned⟩

end

end ChronosX
