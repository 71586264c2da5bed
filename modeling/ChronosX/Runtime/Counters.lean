import ChronosX.Runtime.Settling

/-!
# The counters of the polls

Each call of `poll_once` reports what it did. Over a whole run the reports add up: a packet that the
kernel has delivered waits in the RX ring, or was dropped, or is in the wheel, or was submitted, and
a submitted one was completed or is on its way.
-/

namespace ChronosX

open Ledger Mem AfXdpRuntimeAdapter TimingWheel

/-! ### One poll -/

/-- The counters of a batch with room for all its frames. -/
lemma Routed.counters_eq {shape : WheelShape} {b b' : Batch shape} {ds : List PacketDescriptor}
    {routes : List Route} (h : Routed b ds routes b') (hstart : b.result = {})
    (hrecycle : ds.length ≤ b.recycleOutput.length) :
    b'.result.stats.packetsSeen = ds.length ∧
    b'.result.stats.packetsSeen = b'.result.stats.txFrames + b'.result.stats.packetsDelayed +
      b'.result.stats.packetsDropped ∧
    b'.result.stats.txFrames = b'.tx.length ∧
    b'.result.stats.packetsDropped = b'.recycle.length := by
  have hrefused : routes.countP Route.isRefused = 0 := by
    refine List.countP_eq_zero.mpr fun r hr => ?_
    rw [h.not_refused (by rw [hstart]) hrecycle r hr]
    exact Bool.false_ne_true
  have hcounter : ∀ counter, b'.result.stats.get counter = totalWeight routes counter := by
    intro counter
    have hroutes := h.counters counter
    rw [hstart] at hroutes
    cases counter <;> exact hroutes.trans (Nat.zero_add _)
  have htxCount := h.txCount_eq
  have hrecycleCount := h.recycleCount_eq
  have htxLe := h.txCount_le (by rw [hstart]; exact Nat.zero_le _)
  have hrecycleLe := h.recycleCount_le (by rw [hstart]; exact Nat.zero_le _)
  obtain ⟨hseen, hsplit, hdropped, -⟩ := totalWeight_balance routes
  rw [hstart, ← hcounter, Nat.zero_add] at htxCount hrecycleCount
  rw [hrefused, Nat.add_zero] at hdropped
  simp only [← hcounter] at hseen hsplit hdropped
  refine ⟨hseen.trans h.length_eq, hsplit, ?_, ?_⟩
  · rw [Batch.tx, List.length_take, h.txOutput_length, htxCount]
    exact (Nat.min_eq_left (htxCount.symm.trans_le htxLe)).symm
  · rw [Batch.recycle, List.length_take, h.recycleOutput_length, hrecycleCount]
    exact hdropped.trans (Nat.min_eq_left (hrecycleCount.symm.trans_le hrecycleLe)).symm

/-- The counters of the data plane in a poll. -/
lemma plane_counters {shape : RuntimeShape} (a : AfXdpRuntimeAdapter shape)
    (rules : List ChaosRule) :
    (a.plane rules).1.result.stats.packetsSeen = a.received.length ∧
    (a.plane rules).1.result.stats.packetsSeen = (a.plane rules).1.result.stats.txFrames +
      (a.plane rules).1.result.stats.packetsDelayed +
      (a.plane rules).1.result.stats.packetsDropped ∧
    (a.plane rules).1.result.stats.txFrames = (a.plane rules).1.tx.length ∧
    (a.plane rules).1.result.stats.packetsDropped = (a.plane rules).1.recycle.length := by
  have hroom : a.packets.length ≤
      (List.replicate kDataPlaneBatchSize ({} : ProcessedFrame)).length := by
    rw [List.length_replicate]
    exact a.length_packets_le
  have h := (routed_processPacketBatch (some 0) shape.umem.umemSizeBytes rules
    kDefaultTimingWheelTickNs a.packets a.timingWheel.tick.2
    (List.replicate kDataPlaneBatchSize {}) (List.replicate kDataPlaneBatchSize {})
    a.umem).counters_eq rfl hroom
  rw [packets, List.length_map] at h
  exact h

namespace Host

variable {shape : RuntimeShape} {s s' : Host shape} {count delivered : ℕ}
  {reports : List RuntimePollStats}

/-- A run from the start: how many packets the kernel has delivered, and the reports of the polls. -/
inductive Reported (count : ℕ) : ℕ → List RuntimePollStats → Host shape → Prop where
  | start (ok : ((fresh : AfXdpRuntimeAdapter shape).init count).1 = .ok) :
      Reported count 0 [] (start shape count)
  | kernel {delivered : ℕ} {reports : List RuntimePollStats} {s s' : Host shape}
      (run : Reported count delivered reports s) (step : KernelStep s s') :
      Reported count (delivered + (s'.runtime.socket.rxRing.toList.length -
        s.runtime.socket.rxRing.toList.length)) reports s'
  | poll {delivered : ℕ} {reports : List RuntimePollStats} {s : Host shape}
      (run : Reported count delivered reports s) (rules : List ChaosRule) :
      Reported count delivered (reports ++ [(s.runtime.pollOnce rules).2.stats]) (s.poll rules)

lemma Reported.reachable (h : Reported count delivered reports s) :
    Reachable (fun _ => True) count s := by
  induction h with
  | start ok => exact .start ok
  | kernel _ step ih => exact .kernel ih step
  | poll _ rules ih => exact .poll ih trivial rules

/-- A counter summed up over the reports. -/
def total (reports : List RuntimePollStats) (counter : RuntimePollStats → ℕ) : ℕ :=
  (reports.map counter).sum

lemma total_append (reports : List RuntimePollStats) (report : RuntimePollStats)
    (counter : RuntimePollStats → ℕ) :
    total (reports ++ [report]) counter = total reports counter + counter report := by
  rw [total, List.map_append, List.sum_append]
  rfl

/-- What one poll adds. -/
structure Balances (s : Host shape) (rules : List ChaosRule) (report : RuntimePollStats) : Prop where
  received : s.runtime.socket.rxRing.toList.length =
    (s.poll rules).runtime.socket.rxRing.toList.length + report.rxFrames
  seen : report.dataPlane.packetsSeen = report.rxFrames
  split : report.dataPlane.packetsSeen = report.dataPlane.txFrames +
    report.dataPlane.packetsDelayed + report.dataPlane.packetsDropped
  refilled : report.fillRefilled = report.txCompleted + report.dataPlane.packetsDropped
  held : (s.poll rules).runtime.timingWheel.pending.card + report.txSubmitted =
    s.runtime.timingWheel.pending.card + report.dataPlane.txFrames +
      report.dataPlane.packetsDelayed
  sent : (s.poll rules).runtime.socket.txRing.toList.length =
    s.runtime.socket.txRing.toList.length + report.txSubmitted
  completed : s.runtime.socket.completionRing.toList.length =
    (s.poll rules).runtime.socket.completionRing.toList.length + report.txCompleted
  failures : report.fillFailures = 0 ∧ report.ownerFailures = 0 ∧
    report.dataPlane.outputOverflows = 0

lemma balances (htx : min count shape.umem.frameCount ≤ shape.socket.txSize.toNat)
    (h : Reachable (fun _ => True) count s) (rules : List ChaosRule) :
    s.Balances rules (s.runtime.pollOnce rules).2.stats := by
  obtain ⟨hholds, hroom⟩ := h.holds_ample htx
  obtain ⟨lost, hpolled, -⟩ := hholds.poll rules
  have hmoves := moves hholds.initialized hholds.keeps hroom rules
  obtain ⟨hseen, hsplit, htxFrames, hdropped⟩ := plane_counters s.runtime rules
  have hreceived : s.runtime.received.length =
      min kDataPlaneBatchSize s.runtime.socket.rxRing.toList.length := List.length_take
  have hcompleted : s.runtime.completed.length =
      min kDataPlaneBatchSize s.runtime.socket.completionRing.toList.length := List.length_take
  have hrx := congrArg List.length hpolled.rx_eq
  have hfill := congrArg List.length hmoves.fill_eq
  have hsent := congrArg List.length hmoves.tx_eq
  have hcompletion := congrArg List.length hmoves.completion_eq
  rw [List.length_drop] at hrx hcompletion
  rw [List.length_append, List.length_append, List.length_map] at hfill hsent
  rw [List.length_map] at hsent
  -- the frames before and after the poll, place by place
  have hbefore := hholds.card_eq
  have hafter := ((Reachable.poll h trivial rules).holds_ample htx).1.card_eq
  have hkept : (s.poll rules).rxCustody = s.rxCustody ∧ (s.poll rules).txCustody = s.txCustody :=
    ⟨rfl, rfl⟩
  rw [hkept.1, hkept.2] at hafter
  simp only [Host.poll] at hafter
  constructor
  · simp only [Host.poll, hmoves.stats_eq]
    omega
  · simp only [hmoves.stats_eq]
    exact hseen
  · simp only [hmoves.stats_eq]
    exact hsplit
  · simp only [hmoves.stats_eq]
    rw [hdropped]
  · simp only [Host.poll, hmoves.stats_eq]
    omega
  · simp only [Host.poll, hmoves.stats_eq]
    omega
  · simp only [Host.poll, hmoves.stats_eq]
    omega
  · refine ⟨?_, hpolled.ownerFailures, hpolled.overflows⟩
    rw [hpolled.fillFailures, hpolled.room hroom, Multiset.card_zero]

/-- A step of the kernel delivers or not, and a transmission stays one. -/
lemma KernelStep.lengths (h : KernelStep s s') :
    s'.runtime.timingWheel = s.runtime.timingWheel ∧
    s.runtime.socket.rxRing.toList.length ≤ s'.runtime.socket.rxRing.toList.length ∧
    s'.runtime.socket.txRing.toList.length + s'.txCustody.length +
        s'.runtime.socket.completionRing.toList.length =
      s.runtime.socket.txRing.toList.length + s.txCustody.length +
        s.runtime.socket.completionRing.toList.length := by
  cases h with
  | takeFill => exact ⟨rfl, Nat.le_refl _, rfl⟩
  | @deliver rx _ _ _ hroom _ =>
    rcases s.runtime.socket.rxRing.produce_singleton rx with ⟨-, -, hlist⟩ | ⟨hfull, -⟩
    · refine ⟨rfl, ?_, rfl⟩
      change _ ≤ (s.runtime.socket.rxRing.produce [rx]).2.toList.length
      rw [hlist, List.length_append]
      exact Nat.le_add_right _ _
    · exact absurd hfull (Nat.ne_of_lt hroom)
  | takeTx =>
    obtain ⟨htake, hdrop⟩ := s.runtime.socket.txRing.consume_spec 1
    refine ⟨rfl, Nat.le_refl _, ?_⟩
    simp only [Host.takeTx, htake, hdrop, List.length_append, List.length_map, List.length_take,
      List.length_drop]
    omega
  | @complete address hcustody hroom =>
    have hpos := List.length_pos_of_mem hcustody
    rcases s.runtime.socket.completionRing.produce_singleton address with
      ⟨-, -, hlist⟩ | ⟨hfull, -⟩
    · refine ⟨rfl, Nat.le_refl _, ?_⟩
      change s.runtime.socket.txRing.toList.length + (s.txCustody.erase address).length +
        (s.runtime.socket.completionRing.produce [address]).2.toList.length = _
      rw [hlist, List.length_append, List.length_erase_of_mem hcustody, List.length_singleton]
      omega
    · exact absurd hfull (Nat.ne_of_lt hroom)

/-- The reports of a run add up, with any rules and any steps of the kernel. Every packet that the
kernel has delivered was received or waits in the RX ring; every packet that was received was seen
by the data plane and dropped, or it is in the wheel, or it was submitted; every packet that was
submitted was completed or is on its way; the frames of the dropped and the completed packets were
given back; and no poll has reported a failure. -/
theorem counters_balance (htx : min count shape.umem.frameCount ≤ shape.socket.txSize.toNat)
    (h : Reported count delivered reports s) :
    delivered = total reports (·.rxFrames) + s.runtime.socket.rxRing.toList.length ∧
    total reports (·.dataPlane.packetsSeen) = total reports (·.rxFrames) ∧
    total reports (·.rxFrames) = total reports (·.dataPlane.packetsDropped) +
      s.runtime.timingWheel.pending.card + total reports (·.txSubmitted) ∧
    total reports (·.txSubmitted) = total reports (·.txCompleted) +
      (s.runtime.socket.txRing.toList.length + s.txCustody.length +
        s.runtime.socket.completionRing.toList.length) ∧
    total reports (·.fillRefilled) =
      total reports (·.txCompleted) + total reports (·.dataPlane.packetsDropped) ∧
    ∀ report ∈ reports, report.fillFailures = 0 ∧ report.ownerFailures = 0 ∧
      report.dataPlane.outputOverflows = 0 := by
  induction h with
  | start ok =>
    obtain ⟨hposting, -, -⟩ := init_posting ok
    have hwheel : (start shape count).runtime.timingWheel.pending = 0 := by
      rw [hposting.wheel_eq]
      exact pending_fresh
    have hrx : (start shape count).runtime.socket.rxRing.toList = [] := hposting.rxRing_eq
    have hring : (start shape count).runtime.socket.txRing.toList = [] := hposting.txRing_eq
    have hcompletion : (start shape count).runtime.socket.completionRing.toList = [] :=
      hposting.completionRing_eq
    rw [hwheel, hrx, hring, hcompletion]
    exact ⟨rfl, rfl, rfl, rfl, rfl, by simp⟩
  | kernel _ step ih =>
    obtain ⟨hdelivered, hseen, hreceived, hsubmitted, hrefilled, hfailures⟩ := ih
    obtain ⟨hwheel, hrx, hway⟩ := step.lengths
    refine ⟨by omega, hseen, by rwa [hwheel], by rwa [hway], hrefilled, hfailures⟩
  | @poll delivered reports s run rules ih =>
    obtain ⟨hdelivered, hseen, hreceived, hsubmitted, hrefilled, hfailures⟩ := ih
    obtain ⟨hrx, hseen', hsplit, hrefilled', hheld, hsent, hcompleted, hfailures'⟩ :=
      balances htx run.reachable rules
    have hcustody : (s.poll rules).txCustody = s.txCustody := rfl
    simp only [total_append, hcustody]
    refine ⟨by omega, by omega, by omega, by omega, by omega, ?_⟩
    intro report hreport
    obtain hreport | hreport := List.mem_append.mp hreport
    · exact hfailures report hreport
    · rw [List.mem_singleton.mp hreport]
      exact hfailures'

/-- One datagram is delivered, and a poll drops it or holds it. -/
theorem counters_balance_marked :
    let report := (markedReceived.runtime.pollOnce [delayRule 1]).2.stats
    1 = total [report] (·.dataPlane.packetsDropped) +
      (markedReceived.poll [delayRule 1]).runtime.timingWheel.pending.card +
      total [report] (·.txSubmitted) := by
  have hreported : Reported 1 1 [] markedReceived :=
    .kernel (.kernel (.start (by decide)) (.takeFill _)) kernelStep_markedReceived
  obtain ⟨hdelivered, -, hreceived, -⟩ := counters_balance (by decide) (.poll hreported [delayRule 1])
  have hring : (markedReceived.poll [delayRule 1]).runtime.socket.rxRing.toList.length = 0 := by
    decide +kernel
  rw [hring, Nat.add_zero] at hdelivered
  exact hdelivered.trans hreceived

end Host

end ChronosX
