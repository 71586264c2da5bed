import ChronosX.Runtime.OnTime

/-!
# Frames come back

When the kernel delivers nothing more and completes what it is given, the adapter works off what it
holds: first the RX ring, a batch with each poll, then the wheel, in one rotation, and then the
completion ring, again in batches. Nothing stays behind, whatever the rules are.
-/

namespace ChronosX

open Ledger Mem AfXdpRuntimeAdapter TimingWheel

/-- The number of batches that so many frames make. -/
def batches (n : ℕ) : ℕ := (n + kDataPlaneBatchSize - 1) / kDataPlaneBatchSize

lemma le_batches (n : ℕ) : n ≤ kDataPlaneBatchSize * batches n := by
  rw [batches, kDataPlaneBatchSize]
  omega

/-! ### The relay -/

namespace Relay

variable {shape : WheelShape} {frameSize n rotation now k : ℕ} {r r' : Relay}

/-- The relay `k` turns after time `now`, with `n` frames: what has been received is worked off by
`batches n` turns, what is held by one rotation more, and from then on what has been sent. -/
structure Settling (n rotation now k : ℕ) (r : Relay) : Prop where
  now_eq : r.delayed.now = now + k
  rx_le : r.rx.length ≤ n - kDataPlaneBatchSize * k
  due_le : ∀ e ∈ r.delayed.accepted, e.2 ≤ now + batches n + rotation
  sent : batches n + rotation < k → r.tx = [] ∧ r.txCustody = [] ∧
    r.completion.length ≤ n - kDataPlaneBatchSize * (k - (batches n + rotation))

/-- At the beginning there are at most `n` frames to be decided on. -/
lemma settling_zero (hrx : r.rx.length ≤ n) (hwithin : r.delayed.Within rotation) :
    r.Settling n rotation r.delayed.now 0 where
  now_eq := rfl
  rx_le := hrx
  due_le e he := (hwithin e he).trans (Nat.add_le_add_right (Nat.le_add_right _ _) _)
  sent hlt := absurd hlt (Nat.not_lt_zero _)

/-- A kernel that delivers nothing does not disturb. -/
lemma Settling.kernel (h : r.Settling n rotation now k) (hstep : KernelStep frameSize r r')
    (hquiet : r'.rx = r.rx) : r'.Settling n rotation now k := by
  obtain ⟨hnow, hrx, hdue, hsent⟩ := h
  cases hstep with
  | takeFill => exact ⟨hnow, hrx, hdue, hsent⟩
  | deliver =>
    have hlength := congrArg List.length hquiet
    simp [deliver] at hlength
  | takeTx =>
    refine ⟨hnow, hrx, hdue, fun hlt => ?_⟩
    obtain ⟨htx, hcustody, hcompletion⟩ := hsent hlt
    simp only [takeTx, htx, hcustody]
    exact ⟨rfl, rfl, hcompletion⟩
  | complete hcustody =>
    refine ⟨hnow, hrx, hdue, fun hlt => ?_⟩
    rw [(hsent hlt).2.1] at hcustody
    exact absurd hcustody List.not_mem_nil

/-- Nothing is held once everything that was accepted is due. -/
lemma Settling.pending_eq (h : r.Settling n rotation now k) (hk : batches n + rotation ≤ k) :
    r.delayed.pending = [] := by
  refine List.filter_eq_nil_iff.mpr fun e he => ?_
  have hdue := h.due_le e he
  rw [h.now_eq, decide_eq_true_eq]
  omega

lemma Settling.rx_eq (h : r.Settling n rotation now k) (hk : batches n ≤ k) : r.rx = [] := by
  have hle := le_batches n
  have hmul := Nat.mul_le_mul_left kDataPlaneBatchSize hk
  have hrx := h.rx_le
  exact List.eq_nil_of_length_eq_zero (by omega)

/-- A turn without a batch. -/
lemma turn_of_rx_eq_nil (hrx : r.rx = []) (rules : List ChaosRule) :
    r.turn shape rules = r.beginTurn := by
  have hbatch : r.batch = [] := by rw [batch, hrx]; rfl
  rw [turn, hbatch]
  rfl

lemma rx_turn (r : Relay) (rules : List ChaosRule) :
    (r.turn shape rules).rx = r.rx.drop kDataPlaneBatchSize :=
  (extends_foldl_send shape (r.verdict rules) r.batch r.beginTurn).rx_eq

/-- A turn that begins with all transmissions completed. -/
lemma Settling.turn (h : r.Settling n rotation now k) (htx : r.tx = [])
    (hcustody : r.txCustody = []) (hcompletion : r.completion.length ≤ n) {rules : List ChaosRule}
    (hwithin : (r.turn shape rules).delayed.Within rotation) :
    (r.turn shape rules).Settling n rotation now (k + 1) where
  now_eq := by rw [(r.turn_accepted shape rules).1, h.now_eq, Nat.add_assoc]
  rx_le := by
    have hrx := h.rx_le
    rw [rx_turn, List.length_drop, Nat.mul_succ]
    omega
  due_le e he := by
    by_cases hk : batches n ≤ k
    · rw [turn_of_rx_eq_nil (h.rx_eq hk)] at he
      exact h.due_le e he
    · have hle := hwithin e he
      rw [(r.turn_accepted shape rules).1, h.now_eq] at hle
      omega
  sent hlt := by
    have hk : batches n + rotation ≤ k := Nat.le_of_lt_succ hlt
    have hdue : r.due = [] := by
      refine List.eq_nil_of_length_eq_zero ?_
      rw [due, DelayQueue.length_dueAt (Nat.lt_succ_self _), h.pending_eq hk]
      rfl
    rw [turn_of_rx_eq_nil (h.rx_eq (Nat.le_of_add_right_le hk))]
    simp only [beginTurn, htx, hdue, hcustody, List.length_drop]
    refine ⟨rfl, trivial, ?_⟩
    by_cases hfirst : k = batches n + rotation
    · rw [hfirst, Nat.add_sub_cancel_left, Nat.mul_one]
      exact Nat.sub_le_sub_right hcompletion _
    · have hle := (h.sent (Nat.lt_of_le_of_ne hk (Ne.symm hfirst))).2.2
      rw [Nat.succ_sub hk, Nat.mul_succ]
      omega

end Relay

/-! ### The host -/

namespace Host

variable {shape : RuntimeShape} {s s' : Host shape} {r : Relay} {names : Multiset UInt64}
  {count n k : ℕ}

/-- A run of `k` polls, with any rules, in which the kernel delivers nothing and has completed every
transmission when a poll begins. -/
inductive Settles : ℕ → Host shape → Host shape → Prop where
  | refl (s : Host shape) : Settles 0 s s
  | kernel {k : ℕ} {s s' s'' : Host shape} (run : Settles k s s') (step : KernelStep s' s'')
      (quiet : s''.runtime.socket.rxRing.toList = s'.runtime.socket.rxRing.toList) :
      Settles k s s''
  | poll {k : ℕ} {s s' : Host shape} (run : Settles k s s')
      (tx : s'.runtime.socket.txRing.toList = []) (custody : s'.txCustody = [])
      (rules : List ChaosRule) : Settles (k + 1) s (s'.poll rules)

lemma Settles.run (h : Settles k s s') : Run k s s' := by
  induction h with
  | refl => exact .refl _
  | kernel _ hstep _ ih => exact .kernel ih hstep
  | poll _ _ _ rules ih => exact .poll ih rules

/-- The frames, place by place. -/
lemma Holds.card_eq (h : s.Holds names 0) :
    s.runtime.socket.fillRing.toList.length + s.rxCustody.length +
      s.runtime.socket.rxRing.toList.length + s.runtime.timingWheel.pending.card +
      s.runtime.socket.txRing.toList.length + s.txCustody.length +
      s.runtime.socket.completionRing.toList.length = names.card := by
  have hcard := congrArg Multiset.card h.sum_contents_add
  rw [sum_contents] at hcard
  simp only [ledger, custody, Multiset.map_add, map_fst_tagged, Multiset.card_add,
    Multiset.card_map, Multiset.coe_card, List.length_map, Multiset.map_zero,
    Multiset.card_zero] at hcard
  omega

/-- The relay follows. -/
lemma Settles.settling (htx : min count shape.umem.frameCount ≤ shape.socket.txSize.toNat)
    (hrun : Settles k s s') (h : Reachable (fun _ => True) count s) (hrefines : s.Refines r) :
    ∃ r', s'.Refines r' ∧ r'.Settling (posted shape count).length shape.wheel.slotCount.toNat
      r.delayed.now k := by
  induction hrun with
  | refl s =>
    have hcard := (h.holds_ample htx).1.card_eq
    rw [Multiset.coe_card] at hcard
    refine ⟨r, hrefines, Relay.settling_zero ?_ hrefines.tracks.within⟩
    rw [← hrefines.rx_eq]
    omega
  | kernel _ hstep hquiet ih =>
    obtain ⟨r', hrefines', hsettling⟩ := ih h hrefines
    obtain ⟨r'', hkernel, hrefines''⟩ := hrefines'.kernel hstep
    rw [hrefines'.rx_eq, hrefines''.rx_eq] at hquiet
    exact ⟨r'', hrefines'', hsettling.kernel hkernel hquiet⟩
  | @poll k s s' hrun hring hcustody rules ih =>
    obtain ⟨r', hrefines', hsettling⟩ := ih h hrefines
    have hreachable := hrun.run.reachable h
    obtain ⟨hholds, hroom⟩ := hreachable.holds_ample htx
    have hpolled := hrefines'.poll hholds hroom hreachable.intact rules
    have hcard := hholds.card_eq
    rw [Multiset.coe_card] at hcard
    refine ⟨_, hpolled, hsettling.turn ?_ ?_ ?_ hpolled.tracks.within⟩
    · rw [← hrefines'.tx_eq, hring]
    · rw [← hrefines'.txCustody_eq, hcustody]
    · rw [← hrefines'.completion_eq]
      omega

/-- Once the run is long enough, nothing is on its way. -/
lemma Settles.nothing_left (htx : min count shape.umem.frameCount ≤ shape.socket.txSize.toNat)
    (hrun : Settles k s s') (h : Reachable (fun _ => True) count s)
    (hk : 2 * batches (posted shape count).length + shape.wheel.slotCount.toNat ≤ k) :
    s'.runtime.socket.rxRing.toList = [] ∧ s'.runtime.timingWheel.pending = 0 ∧
      s'.runtime.socket.txRing.toList = [] ∧ s'.txCustody = [] ∧
      s'.runtime.socket.completionRing.toList = [] := by
  obtain ⟨r, -, hrefines⟩ := exists_refines htx h
  obtain ⟨r', hrefines', hsettling⟩ := hrun.settling htx h hrefines
  obtain ⟨hholds, -⟩ := (hrun.run.reachable h).holds_ample htx
  have hle := le_batches (posted shape count).length
  by_cases hzero : batches (posted shape count).length = 0
  · -- there are no frames at all
    have hcard := hholds.card_eq
    rw [hzero, Nat.mul_zero] at hle
    rw [Multiset.coe_card, Nat.le_zero.mp hle] at hcard
    simp only [← List.length_eq_zero_iff, ← Multiset.card_eq_zero]
    omega
  · obtain ⟨hsent, hcustody, hcompletion⟩ := hsettling.sent (by omega)
    have hmul := Nat.mul_le_mul_left kDataPlaneBatchSize
      (by omega : batches (posted shape count).length ≤
        k - (batches (posted shape count).length + shape.wheel.slotCount.toNat))
    rw [hrefines'.rx_eq, hrefines'.tracks.pending_eq, hrefines'.tx_eq, hrefines'.txCustody_eq,
      hrefines'.completion_eq, hsettling.rx_eq (by omega), hsettling.pending_eq (by omega)]
    exact ⟨rfl, rfl, hsent, hcustody, List.eq_nil_of_length_eq_zero (by omega)⟩

/-! ### Such runs exist -/

/-- Transmissions that the kernel has not completed. -/
def unsent (s : Host shape) : ℕ := 2 * s.runtime.socket.txRing.toList.length + s.txCustody.length

/-- The kernel takes or completes one transmission. -/
lemma exists_send (h : s.Holds names 0) (hcomp : names.card ≤ shape.socket.compSize.toNat)
    (hunsent : s.unsent ≠ 0) :
    ∃ s', KernelStep s s' ∧
      s'.runtime.socket.rxRing.toList = s.runtime.socket.rxRing.toList ∧
      s'.unsent < s.unsent := by
  by_cases htx : s.runtime.socket.txRing.toList = []
  · have hcustody : s.txCustody ≠ [] := by
      intro hnil
      simp [unsent, htx, hnil] at hunsent
    obtain ⟨address, hmem⟩ := List.exists_mem_of_ne_nil _ hcustody
    have hpos := List.length_pos_of_mem hmem
    have hcard := h.card_eq
    refine ⟨s.complete address, .complete hmem (by omega), rfl, ?_⟩
    have hlength := List.length_erase_of_mem hmem
    change 2 * s.runtime.socket.txRing.toList.length + (s.txCustody.erase address).length < s.unsent
    rw [hlength, unsent]
    omega
  · obtain ⟨htake, hdrop⟩ := s.runtime.socket.txRing.consume_spec 1
    have hpos := List.length_pos_of_ne_nil htx
    refine ⟨s.takeTx, .takeTx s, rfl, ?_⟩
    simp only [unsent, takeTx, htake, hdrop, List.length_append, List.length_map, List.length_take,
      List.length_drop]
    omega

/-- The kernel completes everything it has been given. -/
lemma exists_flush (hcomp : (posted shape count).length ≤ shape.socket.compSize.toNat)
    (htx : min count shape.umem.frameCount ≤ shape.socket.txSize.toNat)
    (hrun : Settles k s s') (h : Reachable (fun _ => True) count s) :
    ∃ s'', Settles k s s'' ∧ s''.unsent = 0 := by
  induction hm : s'.unsent using Nat.strong_induction_on generalizing s' with
  | _ m ih =>
    by_cases hzero : s'.unsent = 0
    · exact ⟨s', hrun, hzero⟩
    · obtain ⟨hholds, -⟩ := (hrun.run.reachable h).holds_ample htx
      obtain ⟨s'', hstep, hquiet, hless⟩ := exists_send hholds hcomp hzero
      exact ih _ (hm ▸ hless) (.kernel hrun hstep hquiet) rfl

/-- With a completion ring that can hold the frames, there is a run of any length, whatever the
rules of its polls are. -/
lemma exists_settles (hcomp : (posted shape count).length ≤ shape.socket.compSize.toNat)
    (htx : min count shape.umem.frameCount ≤ shape.socket.txSize.toNat)
    (h : Reachable (fun _ => True) count s) (k : ℕ) : ∃ s', Settles k s s' := by
  induction k with
  | zero => exact ⟨s, .refl s⟩
  | succ k ih =>
    obtain ⟨s', hrun⟩ := ih
    obtain ⟨s'', hrun', hunsent⟩ := exists_flush hcomp htx hrun h
    have hempty : s''.runtime.socket.txRing.toList = [] ∧ s''.txCustody = [] := by
      rw [← List.length_eq_zero_iff, ← List.length_eq_zero_iff]
      rw [unsent] at hunsent
      omega
    exact ⟨_, .poll hrun' hempty.1 hempty.2 []⟩

/-- Every frame comes back. From every reachable state, when the kernel delivers nothing more and
completes every transmission before the next poll, all posted frames are in the fill ring or in the
kernel's RX custody after at most two polls for each batch of frames and one for each slot of the
wheel, whatever the rules are. A completion ring that can hold the frames lets the kernel do so. -/
theorem frames_come_back (htx : min count shape.umem.frameCount ≤ shape.socket.txSize.toNat)
    (h : Reachable (fun _ => True) count s) :
    (∀ k s', 2 * batches (posted shape count).length + shape.wheel.slotCount.toNat ≤ k →
      Settles k s s' →
      s'.contents .fillRing + s'.contents .rxCustody = (posted shape count : Multiset UInt64)) ∧
    ((posted shape count).length ≤ shape.socket.compSize.toNat → ∀ k, ∃ s', Settles k s s') := by
  refine ⟨?_, fun hcomp => exists_settles hcomp htx h⟩
  intro k s' hk hrun
  obtain ⟨hrx, hwheel, hring, hcustody, hcompletion⟩ := hrun.nothing_left htx h hk
  obtain ⟨hholds, -⟩ := (hrun.run.reachable h).holds_ample htx
  have htotal := hholds.sum_contents_add
  rw [Multiset.map_zero, add_zero] at htotal
  have hothers : ∀ place ∉ ({.fillRing, .rxCustody} : Finset Place), s'.contents place = 0 := by
    intro place hplace
    cases place with
    | fillRing => simp at hplace
    | rxCustody => simp at hplace
    | rxRing => simp [contents, hrx]
    | timingWheel => simp [contents, hwheel]
    | txRing => simp [contents, hring]
    | txCustody => simp [contents, hcustody]
    | completionRing => simp [contents, hcompletion]
  rw [← Finset.sum_pair (f := s'.contents) (by decide : Place.fillRing ≠ .rxCustody), ← htotal]
  exact Finset.sum_subset (Finset.subset_univ _) fun place _ hplace => hothers place hplace

/-- The datagram that a poll has delayed is sent and its frame is back after six more polls. -/
theorem frames_come_back_marked :
    ∃ s', Settles 6 (markedReceived.poll [delayRule 1]) s' ∧
      s'.contents .fillRing + s'.contents .rxCustody = {0} := by
  have hreachable : Reachable (fun _ => True) 1 (markedReceived.poll [delayRule 1]) :=
    .poll reachable_markedReceived trivial [delayRule 1]
  obtain ⟨hback, hexists⟩ := frames_come_back (by decide) hreachable
  obtain ⟨s', hrun⟩ := hexists (by decide) 6
  exact ⟨s', hrun, hback 6 s' (by decide) hrun⟩

end Host

end ChronosX
