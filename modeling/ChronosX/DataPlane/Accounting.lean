import ChronosX.DataPlane.Verdict
import ChronosX.Wheel.Pending
import Mathlib.Data.List.Basic

/-!
# Batch accounting

Every descriptor of a batch takes one `Route`: to the TX output, into the wheel, to the recycle
output, or nowhere when the recycle output is full. `Routed` says what a list of routes does to
the batch state: each counter grows by the weights of the routes, and each destination receives
the descriptors sent to it, in order. It holds of one step and composes.
-/

namespace ChronosX

open Mem

inductive DropCause where
  | invalidDescriptor
  | malformed
  | rule
  | unscheduled
  | txFull
deriving DecidableEq, Repr

/-- Where a descriptor goes. A dropped frame is appended to the recycle output, or refused. -/
inductive Route where
  | tx
  | wheel
  | recycle (cause : DropCause)
  | refused (cause : DropCause)
deriving DecidableEq, Repr

namespace Route

def isTx : Route → Bool
  | tx => true
  | _  => false

def isWheel : Route → Bool
  | wheel => true
  | _     => false

def isRecycle : Route → Bool
  | recycle _ => true
  | _         => false

def isRefused : Route → Bool
  | refused _ => true
  | _         => false

/-- The TX output was full when the frame was to be sent. -/
def isTxFull : Route → Bool
  | recycle .txFull | refused .txFull => true
  | _                                 => false

end Route

/-- The counters of `DataPlaneBatchStats` that depend on the route alone. -/
inductive Counter where
  | packetsSeen
  | packetsDropped
  | packetsDelayed
  | packetsMalformed
  | txFrames
  | recycleFrames
  | scheduleFailures
  | outputOverflows
  | invalidDescriptors

def DataPlaneBatchStats.get (stats : DataPlaneBatchStats) : Counter → ℕ
  | .packetsSeen        => stats.packetsSeen
  | .packetsDropped     => stats.packetsDropped
  | .packetsDelayed     => stats.packetsDelayed
  | .packetsMalformed   => stats.packetsMalformed
  | .txFrames           => stats.txFrames
  | .recycleFrames      => stats.recycleFrames
  | .scheduleFailures   => stats.scheduleFailures
  | .outputOverflows    => stats.outputOverflows
  | .invalidDescriptors => stats.invalidDescriptors

/-- What a dropped frame adds to a counter before it is appended to the recycle output. -/
def DropCause.weight : DropCause → Counter → ℕ
  | _, .packetsSeen                         => 1
  | _, .packetsDropped                      => 1
  | .invalidDescriptor, .packetsMalformed   => 1
  | .invalidDescriptor, .invalidDescriptors => 1
  | .malformed, .packetsMalformed           => 1
  | .unscheduled, .scheduleFailures         => 1
  | .txFull, .outputOverflows               => 1
  | _, _                                    => 0

/-- What a descriptor adds to a counter. -/
def Route.weight : Route → Counter → ℕ
  | .tx, .packetsSeen                => 1
  | .tx, .txFrames                   => 1
  | .wheel, .packetsSeen             => 1
  | .wheel, .packetsDelayed          => 1
  | .recycle _, .recycleFrames       => 1
  | .recycle cause, counter          => cause.weight counter
  | .refused cause, .outputOverflows => cause.weight .outputOverflows + 1
  | .refused cause, counter          => cause.weight counter
  | _, _                             => 0

/-- What a list of routes adds to a counter. -/
def totalWeight (routes : List Route) (counter : Counter) : ℕ :=
  (routes.map (·.weight counter)).sum

@[simp] lemma totalWeight_nil (counter : Counter) : totalWeight [] counter = 0 := rfl

@[simp] lemma totalWeight_cons (r : Route) (routes : List Route) (counter : Counter) :
    totalWeight (r :: routes) counter = r.weight counter + totalWeight routes counter := rfl

lemma totalWeight_singleton (r : Route) (counter : Counter) :
    totalWeight [r] counter = r.weight counter := rfl

/-- What a refused append adds to a counter. -/
def Counter.overflowed : Counter → ℕ
  | .outputOverflows => 1
  | _                => 0

/-- What an append to the recycle output adds to a counter. -/
def Counter.recycled : Counter → ℕ
  | .recycleFrames => 1
  | _              => 0

lemma Route.weight_refused (cause : DropCause) (counter : Counter) :
    (Route.refused cause).weight counter = cause.weight counter + counter.overflowed := by
  cases counter <;> rfl

lemma Route.weight_recycle (cause : DropCause) (counter : Counter) :
    (Route.recycle cause).weight counter = cause.weight counter + counter.recycled := by
  cases counter <;> cases cause <;> rfl

/-- A dropped frame found the TX output full only if that is why it was dropped. -/
lemma Route.eq_txFull {cause : DropCause} {r : Route}
    (hr : r = .recycle cause ∨ r = .refused cause) (h : r.isTxFull = true) : cause = .txFull := by
  rcases hr with rfl | rfl
  · cases cause with
    | txFull => rfl
    | _ => cases h
  · cases cause with
    | txFull => rfl
    | _ => cases h

/-! ### The route of a descriptor -/

namespace Batch

variable {shape : WheelShape} (b : Batch shape)

def recycleRoute (cause : DropCause) : Route :=
  if b.result.recycleCount ≥ b.recycleOutput.length then .refused cause else .recycle cause

/-- The route of a frame with the given verdict. -/
def routeOf : Verdict → Route
  | .malformed descriptorValid =>
    b.recycleRoute (if descriptorValid then .malformed else .invalidDescriptor)
  | .drop => b.recycleRoute .rule
  | .delay delayed delayTicks =>
    if (b.timingWheel.schedule delayed delayTicks).1 = .scheduled then .wheel
    else b.recycleRoute .unscheduled
  | .transmit _ =>
    if b.result.txCount < b.txOutput.length then .tx else b.recycleRoute .txFull

/-- The routes of the descriptors of a batch. -/
def routesOf (b : Batch shape) : List (PacketDescriptor × ProcessedFrame × Verdict) → List Route
  | [] => []
  | entry :: entries =>
    b.routeOf entry.2.2 :: ((b.see entry.1).route entry.2.1 entry.2.2).routesOf entries

end Batch

/-- The route of each descriptor in a call of `process_packet_batch`. -/
def batchRoutes {shape : WheelShape} (umemBase : Option ℕ) (umemSizeBytes : UInt64)
    (rules : List ChaosRule) (tickNs : UInt64) (ds : List PacketDescriptor)
    (timingWheel : TimingWheel shape) (txOutput recycleOutput : List ProcessedFrame) (m : Umem) :
    List Route :=
  Batch.routesOf { timingWheel, txOutput, recycleOutput }
    (ds.zip (run (judgeAll umemBase umemSizeBytes rules tickNs ds) m).1)

/-- The address and length of the descriptors sent to the destination `p`, in order. -/
def sentTo (p : Route → Bool) (ds : List PacketDescriptor) (routes : List Route) :
    List (UInt64 × UInt32) :=
  ((ds.zip routes).filter fun e => p e.2).map fun e => (e.1.frameAddress, e.1.frameLength)

@[simp] lemma sentTo_nil (p : Route → Bool) : sentTo p [] [] = [] := rfl

lemma sentTo_append (p : Route → Bool) {ds ds' : List PacketDescriptor}
    {routes routes' : List Route} (h : routes.length = ds.length) :
    sentTo p (ds ++ ds') (routes ++ routes') = sentTo p ds routes ++ sentTo p ds' routes' := by
  simp only [sentTo, List.zip_append h.symm, List.filter_append, List.map_append]

lemma sentTo_singleton (p : Route → Bool) (d : PacketDescriptor) (r : Route) :
    sentTo p [d] [r] = if p r then [(d.frameAddress, d.frameLength)] else [] := by
  cases h : p r <;> simp [sentTo, h]

def ProcessedFrame.key (frame : ProcessedFrame) : UInt64 × UInt32 :=
  (frame.frameAddress, frame.frameLength)

def DelayedFrame.key (frame : DelayedFrame) : UInt64 × UInt32 :=
  (frame.frameAddress, frame.frameLength)

/-- How many frames one descriptor sends along a route. -/
lemma length_eq_of_sentTo_singleton {frames : List ProcessedFrame} {p : Route → Bool}
    {d : PacketDescriptor} {r : Route} (h : frames.map (·.key) = sentTo p [d] [r]) :
    frames.length = if p r then 1 else 0 := by
  have hlength := congrArg List.length h
  rw [List.length_map, sentTo_singleton] at hlength
  rw [hlength]
  split <;> rfl

/-- The descriptors `ds` have taken the routes `routes` from `b` to `b'`. -/
structure Routed {shape : WheelShape} (b : Batch shape) (ds : List PacketDescriptor)
    (routes : List Route) (b' : Batch shape) : Prop where
  length_eq : routes.length = ds.length
  counters : ∀ counter, b'.result.stats.get counter =
    b.result.stats.get counter + totalWeight routes counter
  txCount_eq : b'.result.txCount = b.result.txCount + totalWeight routes .txFrames
  recycleCount_eq : b'.result.recycleCount =
    b.result.recycleCount + totalWeight routes .recycleFrames
  txOutput_length : b'.txOutput.length = b.txOutput.length
  recycleOutput_length : b'.recycleOutput.length = b.recycleOutput.length
  txCount_le : b.result.txCount ≤ b.txOutput.length → b'.result.txCount ≤ b.txOutput.length
  recycleCount_le : b.result.recycleCount ≤ b.recycleOutput.length →
    b'.result.recycleCount ≤ b.recycleOutput.length
  full_of_refused : (∃ r ∈ routes, r.isRefused) →
    b.recycleOutput.length ≤ b'.result.recycleCount
  full_of_txFull : (∃ r ∈ routes, r.isTxFull) → b.txOutput.length ≤ b'.result.txCount
  tx_eq : b'.tx.map (·.key) = b.tx.map (·.key) ++ sentTo Route.isTx ds routes
  recycle_eq : b'.recycle.map (·.key) = b.recycle.map (·.key) ++ sentTo Route.isRecycle ds routes
  scheduled : ∃ frames : List DelayedFrame,
    frames.map (·.key) = sentTo Route.isWheel ds routes ∧
    b.timingWheel.Accepted b'.timingWheel frames

namespace Routed

variable {shape : WheelShape} {b b' b'' : Batch shape} {ds ds' : List PacketDescriptor}
  {routes routes' : List Route}

lemma refl (b : Batch shape) : Routed b [] [] b where
  length_eq := rfl
  counters _ := rfl
  txCount_eq := rfl
  recycleCount_eq := rfl
  txOutput_length := rfl
  recycleOutput_length := rfl
  txCount_le h := h
  recycleCount_le h := h
  full_of_refused := by simp
  full_of_txFull := by simp
  tx_eq := by simp
  recycle_eq := by simp
  scheduled := ⟨[], rfl, by simp [TimingWheel.Accepted]⟩

lemma totalWeight_append (routes routes' : List Route) (counter : Counter) :
    totalWeight (routes ++ routes') counter =
      totalWeight routes counter + totalWeight routes' counter := by
  simp [totalWeight]

/-- Routes compose. -/
lemma trans (h : Routed b ds routes b') (h' : Routed b' ds' routes' b'') :
    Routed b (ds ++ ds') (routes ++ routes') b'' where
  length_eq := by rw [List.length_append, List.length_append, h.length_eq, h'.length_eq]
  counters counter := by
    rw [h'.counters, h.counters, totalWeight_append, Nat.add_assoc]
  txCount_eq := by rw [h'.txCount_eq, h.txCount_eq, totalWeight_append, Nat.add_assoc]
  recycleCount_eq := by
    rw [h'.recycleCount_eq, h.recycleCount_eq, totalWeight_append, Nat.add_assoc]
  txOutput_length := h'.txOutput_length.trans h.txOutput_length
  recycleOutput_length := h'.recycleOutput_length.trans h.recycleOutput_length
  txCount_le hle := by
    have := h'.txCount_le
    rw [h.txOutput_length] at this
    exact this (h.txCount_le hle)
  recycleCount_le hle := by
    have := h'.recycleCount_le
    rw [h.recycleOutput_length] at this
    exact this (h.recycleCount_le hle)
  full_of_refused := by
    rintro ⟨r, hr, hrefused⟩
    rcases List.mem_append.mp hr with hr | hr
    · -- the count never goes down
      have hfull := h.full_of_refused ⟨r, hr, hrefused⟩
      rw [h'.recycleCount_eq]
      exact Nat.le_add_right_of_le hfull
    · rw [← h.recycleOutput_length]
      exact h'.full_of_refused ⟨r, hr, hrefused⟩
  full_of_txFull := by
    rintro ⟨r, hr, htxFull⟩
    rcases List.mem_append.mp hr with hr | hr
    · have hfull := h.full_of_txFull ⟨r, hr, htxFull⟩
      rw [h'.txCount_eq]
      exact Nat.le_add_right_of_le hfull
    · rw [← h.txOutput_length]
      exact h'.full_of_txFull ⟨r, hr, htxFull⟩
  tx_eq := by rw [h'.tx_eq, h.tx_eq, sentTo_append _ h.length_eq, List.append_assoc]
  recycle_eq := by
    rw [h'.recycle_eq, h.recycle_eq, sentTo_append _ h.length_eq, List.append_assoc]
  scheduled := by
    obtain ⟨frames, hkeys, hwheel⟩ := h.scheduled
    obtain ⟨frames', hkeys', hwheel'⟩ := h'.scheduled
    refine ⟨frames ++ frames', ?_, fun j => ?_⟩
    · rw [List.map_append, hkeys, hkeys', sentTo_append _ h.length_eq]
    · rw [hwheel' j, hwheel j, List.filter_append, List.append_assoc]

end Routed

/-! ### One step -/

lemma Route.weight_txFrames (r : Route) : r.weight .txFrames = if r.isTx then 1 else 0 := by
  cases r with
  | recycle cause | refused cause => cases cause <;> rfl
  | _ => rfl

lemma Route.weight_recycleFrames (r : Route) :
    r.weight .recycleFrames = if r.isRecycle then 1 else 0 := by
  cases r with
  | refused cause => cases cause <;> rfl
  | _ => rfl

lemma take_succ_set {α : Type} (l : List α) {n : ℕ} (x : α) (h : n < l.length) :
    (l.set n x).take (n + 1) = l.take n ++ [x] := by
  rw [List.take_add_one, List.getElem?_set_self h, List.take_set_of_le (Nat.le_refl n)]
  rfl

namespace Batch

variable {shape : WheelShape} {b b' b₀ : Batch shape}

/-- From `b` to `b'` the outputs have received the frames, and the wheel has accepted `delayed`. -/
structure Emits (b : Batch shape) (sent recycled : List ProcessedFrame)
    (delayed : List DelayedFrame) (b' : Batch shape) : Prop where
  txCount_eq : b'.result.txCount = b.result.txCount + sent.length
  recycleCount_eq : b'.result.recycleCount = b.result.recycleCount + recycled.length
  txOutput_length : b'.txOutput.length = b.txOutput.length
  recycleOutput_length : b'.recycleOutput.length = b.recycleOutput.length
  tx_eq : b'.tx = b.tx ++ sent
  recycle_eq : b'.recycle = b.recycle ++ recycled
  accepted : b.timingWheel.Accepted b'.timingWheel delayed

/-- The outputs are such that a frame takes the route. -/
def Takes (b : Batch shape) : Route → Prop
  | .tx => b.result.txCount < b.txOutput.length
  | .wheel => True
  | .recycle cause =>
    (cause = .txFull → b.txOutput.length ≤ b.result.txCount) ∧
      b.result.recycleCount < b.recycleOutput.length
  | .refused cause =>
    (cause = .txFull → b.txOutput.length ≤ b.result.txCount) ∧
      b.recycleOutput.length ≤ b.result.recycleCount

/-- A descriptor is routed when its frame is emitted along a route that it takes. -/
lemma Emits.routed {sent recycled : List ProcessedFrame} {delayed : List DelayedFrame}
    (h : Emits b sent recycled delayed b') (d : PacketDescriptor) {r : Route} (htakes : b.Takes r)
    (hcounters : ∀ counter, b'.result.stats.get counter =
      b.result.stats.get counter + r.weight counter)
    (hsent : sent.map (·.key) = sentTo Route.isTx [d] [r])
    (hrecycled : recycled.map (·.key) = sentTo Route.isRecycle [d] [r])
    (hdelayed : delayed.map (·.key) = sentTo Route.isWheel [d] [r]) : Routed b [d] [r] b' := by
  have htx : b'.result.txCount = b.result.txCount + if r.isTx then 1 else 0 := by
    rw [h.txCount_eq, length_eq_of_sentTo_singleton hsent]
  have hrecycle : b'.result.recycleCount =
      b.result.recycleCount + if r.isRecycle then 1 else 0 := by
    rw [h.recycleCount_eq, length_eq_of_sentTo_singleton hrecycled]
  constructor
  case length_eq => rfl
  case counters => exact hcounters
  case txCount_eq => rw [htx, totalWeight_singleton, Route.weight_txFrames]
  case recycleCount_eq => rw [hrecycle, totalWeight_singleton, Route.weight_recycleFrames]
  case txOutput_length => exact h.txOutput_length
  case recycleOutput_length => exact h.recycleOutput_length
  case txCount_le =>
    intro hle
    rw [htx]
    cases r with
    | tx => exact htakes
    | _ => exact hle
  case recycleCount_le =>
    intro hle
    rw [hrecycle]
    cases r with
    | recycle cause => exact htakes.2
    | _ => exact hle
  case full_of_refused =>
    rintro ⟨r', hmem, hrefused⟩
    rw [List.mem_singleton.mp hmem] at hrefused
    rw [hrecycle]
    cases r with
    | refused cause => exact htakes.2
    | _ => cases hrefused
  case full_of_txFull =>
    rintro ⟨r', hmem, htxFull⟩
    rw [List.mem_singleton.mp hmem] at htxFull
    rw [htx]
    cases r with
    | recycle cause => exact htakes.1 (Route.eq_txFull (Or.inl rfl) htxFull)
    | refused cause => exact htakes.1 (Route.eq_txFull (Or.inr rfl) htxFull)
    | _ => cases htxFull
  case tx_eq => rw [h.tx_eq, List.map_append, hsent]
  case recycle_eq => rw [h.recycle_eq, List.map_append, hrecycled]
  case scheduled => exact ⟨delayed, hdelayed, h.accepted⟩

/-- The batch states differ in counters of `stats` only, up to the failure counter of the
wheel. -/
structure SameOutputs (b b₀ : Batch shape) : Prop where
  txCount_eq : b₀.result.txCount = b.result.txCount
  recycleCount_eq : b₀.result.recycleCount = b.result.recycleCount
  txOutput_eq : b₀.txOutput = b.txOutput
  recycleOutput_eq : b₀.recycleOutput = b.recycleOutput
  frames_eq : ∀ j, (b₀.timingWheel.slots j).frames = (b.timingWheel.slots j).frames

namespace SameOutputs

lemma countOverflow (same : b.SameOutputs b₀) : b.SameOutputs b₀.countOverflow :=
  ⟨same.txCount_eq, same.recycleCount_eq, same.txOutput_eq, same.recycleOutput_eq, same.frames_eq⟩

lemma emits (same : b.SameOutputs b₀) : Emits b [] [] [] b₀ where
  txCount_eq := same.txCount_eq
  recycleCount_eq := same.recycleCount_eq
  txOutput_length := congrArg List.length same.txOutput_eq
  recycleOutput_length := congrArg List.length same.recycleOutput_eq
  tx_eq := by rw [tx, tx, same.txCount_eq, same.txOutput_eq, List.append_nil]
  recycle_eq := by
    rw [recycle, recycle, same.recycleCount_eq, same.recycleOutput_eq, List.append_nil]
  accepted := by
    intro j
    simp [same.frames_eq j]

/-- A frame is appended to a recycle output with room. -/
lemma emits_recycled (same : b.SameOutputs b₀)
    (hroom : b.result.recycleCount < b.recycleOutput.length) (processed : ProcessedFrame) :
    Emits b [] [processed] [] (b₀.appendRecycle processed) := by
  rw [appendRecycle, same.recycleCount_eq, same.recycleOutput_eq, if_neg (Nat.not_le.mpr hroom)]
  exact {
    same.emits with
    recycleCount_eq := rfl
    recycleOutput_length := List.length_set
    recycle_eq := take_succ_set _ _ hroom }

/-- A frame is written to a TX output with room. -/
lemma emits_transmitted (same : b.SameOutputs b₀)
    (hroom : b.result.txCount < b.txOutput.length) (processed : ProcessedFrame) :
    Emits b [processed] [] [] (b₀.transmit processed) := by
  rw [transmit, same.txCount_eq, same.txOutput_eq, if_pos hroom]
  exact {
    same.emits with
    txCount_eq := rfl
    txOutput_length := List.length_set
    tx_eq := take_succ_set _ _ hroom }

end SameOutputs

/-- A frame is accepted by the wheel. -/
lemma emits_delayed (b : Batch shape) (d : PacketDescriptor) {delayed : DelayedFrame}
    {w : TimingWheel shape} {delayTicks : UInt64}
    (hw : b.timingWheel.schedule delayed delayTicks = (.scheduled, w)) :
    Emits b [] [] [{ delayed with releaseTick := b.timingWheel.releaseTick delayTicks }]
      (countDelayed { b.see d with timingWheel := w }) where
  txCount_eq := rfl
  recycleCount_eq := rfl
  txOutput_length := rfl
  recycleOutput_length := rfl
  tx_eq := (List.append_nil _).symm
  recycle_eq := (List.append_nil _).symm
  accepted := by
    rcases b.timingWheel.schedule_cases delayed delayTicks with ⟨hroom, _, heq⟩ | ⟨_, hne, _⟩
    · rw [hw, Prod.mk.injEq] at heq
      change b.timingWheel.Accepted w _
      rw [heq.2]
      exact b.timingWheel.accepted_store
        { delayed with releaseTick := b.timingWheel.releaseTick delayTicks } hroom
    · rw [hw] at hne
      exact absurd rfl hne

lemma get_countOverflow (b : Batch shape) (counter : Counter) :
    b.countOverflow.result.stats.get counter =
      b.result.stats.get counter + counter.overflowed := by
  cases counter <;> rfl

lemma get_appendRecycle (hroom : b.result.recycleCount < b.recycleOutput.length)
    (processed : ProcessedFrame) (counter : Counter) :
    (b.appendRecycle processed).result.stats.get counter =
      b.result.stats.get counter + counter.recycled := by
  rw [appendRecycle, if_neg (Nat.not_le.mpr hroom)]
  cases counter <;> rfl

/-- A dropped frame is appended to the recycle output, or refused. -/
lemma routed_appendRecycle (b b₀ : Batch shape) (same : b.SameOutputs b₀) (d : PacketDescriptor)
    {processed : ProcessedFrame} (hkey : processed.key = (d.frameAddress, d.frameLength))
    {cause : DropCause} (hcause : cause = .txFull → b.txOutput.length ≤ b.result.txCount)
    (hstats : ∀ counter, b₀.result.stats.get counter =
      b.result.stats.get counter + cause.weight counter) :
    Routed b [d] [b.recycleRoute cause] (b₀.appendRecycle processed) := by
  by_cases hfull : b.result.recycleCount ≥ b.recycleOutput.length
  · have hroute : b.recycleRoute cause = .refused cause := if_pos hfull
    have hnext : b₀.appendRecycle processed = b₀.countOverflow := by
      rw [appendRecycle, if_pos]
      rwa [same.recycleCount_eq, same.recycleOutput_eq]
    rw [hroute, hnext]
    refine same.countOverflow.emits.routed d ⟨hcause, hfull⟩ ?_ rfl rfl rfl
    intro counter
    rw [get_countOverflow, hstats, Route.weight_refused, Nat.add_assoc]
  · have hroute : b.recycleRoute cause = .recycle cause := if_neg hfull
    have hroom := Nat.not_le.mp hfull
    rw [hroute]
    refine (same.emits_recycled hroom processed).routed d ⟨hcause, hroom⟩ ?_ rfl ?_ rfl
    · intro counter
      rw [← same.recycleCount_eq, ← same.recycleOutput_eq] at hroom
      rw [get_appendRecycle hroom, hstats, Route.weight_recycle, Nat.add_assoc]
    · exact congrArg (fun key => [key]) hkey

/-- A frame written to the TX output. -/
lemma routed_tx (same : b.SameOutputs b₀) (d : PacketDescriptor) {processed : ProcessedFrame}
    (hkey : processed.key = (d.frameAddress, d.frameLength))
    (hroom : b.result.txCount < b.txOutput.length)
    (hstats : ∀ counter, b₀.result.stats.get counter = b.result.stats.get counter +
      match counter with
      | .packetsSeen => 1
      | _ => 0) :
    Routed b [d] [.tx] (b₀.transmit processed) := by
  refine (same.emits_transmitted hroom processed).routed d hroom ?_ ?_ rfl rfl
  · intro counter
    have hcounter := hstats counter
    rw [← same.txCount_eq, ← same.txOutput_eq] at hroom
    rw [transmit, if_pos hroom]
    cases counter with
    | txFrames => exact congrArg (· + 1) hcounter
    | _ => exact hcounter
  · exact congrArg (fun key => [key]) hkey

/-- A frame accepted by the wheel. -/
lemma routed_wheel (b : Batch shape) (d : PacketDescriptor) {delayed : DelayedFrame}
    (hkey : delayed.key = (d.frameAddress, d.frameLength)) {w : TimingWheel shape}
    {delayTicks : UInt64}
    (hw : b.timingWheel.schedule delayed delayTicks = (.scheduled, w)) :
    Routed b [d] [.wheel] (countDelayed { b.see d with timingWheel := w }) := by
  refine (b.emits_delayed d hw).routed d trivial ?_ rfl rfl ?_
  · intro counter
    cases counter <;> rfl
  · exact congrArg (fun key => [key]) hkey

/-- The outputs of judging carry the descriptor's address and length. -/
def Faithful (d : PacketDescriptor) (out : ProcessedFrame × Verdict) : Prop :=
  out.1.key = (d.frameAddress, d.frameLength) ∧
    ∀ delayed delayTicks, out.2 = .delay delayed delayTicks →
      delayed.key = (d.frameAddress, d.frameLength)

/-- One verdict takes its route. -/
lemma routed_route (b : Batch shape) (d : PacketDescriptor) {out : ProcessedFrame × Verdict}
    (h : Faithful d out) :
    Routed b [d] [b.routeOf out.2] ((b.see d).route out.1 out.2) := by
  obtain ⟨processed, verdict⟩ := out
  obtain ⟨hkey, hdelay⟩ := h
  cases verdict with
  | malformed descriptorValid =>
    cases descriptorValid with
    | true =>
      refine routed_appendRecycle b (b.see d).countMalformed.countDropped
        ⟨rfl, rfl, rfl, rfl, fun _ => rfl⟩ d hkey (by simp) fun counter => ?_
      cases counter <;> rfl
    | false =>
      refine routed_appendRecycle b (b.see d).countMalformed.countInvalid.countDropped
        ⟨rfl, rfl, rfl, rfl, fun _ => rfl⟩ d hkey (by simp) fun counter => ?_
      cases counter <;> rfl
  | drop =>
    refine routed_appendRecycle b (b.see d).countDropped
      ⟨rfl, rfl, rfl, rfl, fun _ => rfl⟩ d hkey (by simp) fun counter => ?_
    cases counter <;> rfl
  | delay delayed delayTicks =>
    have hsee : (b.see d).timingWheel = b.timingWheel := rfl
    by_cases hs : (b.timingWheel.schedule delayed delayTicks).1 = .scheduled
    · simp only [route, routeOf, hsee, if_pos hs]
      exact routed_wheel b d (hdelay delayed delayTicks rfl) (Prod.ext hs rfl)
    · simp only [route, routeOf, hsee, if_neg hs]
      refine routed_appendRecycle b _ ?_ d hkey (by simp) ?_
      · refine ⟨rfl, rfl, rfl, rfl, fun j => ?_⟩
        change ((b.timingWheel.schedule delayed delayTicks).2.slots j).frames = _
        rw [TimingWheel.schedule_refused hs]
      · intro counter
        cases counter <;> rfl
  | transmit corrupted =>
    -- counting a corruption changes no output and none of the counters considered
    have same : b.SameOutputs (if corrupted then (b.see d).countCorrupted else b.see d) := by
      cases corrupted <;> exact ⟨rfl, rfl, rfl, rfl, fun _ => rfl⟩
    by_cases hroom : b.result.txCount < b.txOutput.length
    · simp only [route, routeOf, if_pos hroom]
      refine routed_tx same d hkey hroom fun counter => ?_
      cases corrupted <;> cases counter <;> rfl
    · have hfull : ¬ (if corrupted then (b.see d).countCorrupted else b.see d).result.txCount <
          (if corrupted then (b.see d).countCorrupted else b.see d).txOutput.length := by
        rwa [same.txCount_eq, same.txOutput_eq]
      simp only [route, routeOf, if_neg hroom, transmit, if_neg hfull]
      refine routed_appendRecycle b _ ?_ d hkey (fun _ => Nat.not_lt.mp hroom) ?_
      · exact ⟨same.txCount_eq, same.recycleCount_eq, same.txOutput_eq, same.recycleOutput_eq,
          same.frames_eq⟩
      · intro counter
        cases corrupted <;> cases counter <;> rfl

/-- A whole batch takes its routes. -/
lemma routed_routeAll (b : Batch shape) {ds : List PacketDescriptor}
    {outs : List (ProcessedFrame × Verdict)} (h : List.Forall₂ Faithful ds outs) :
    Routed b ds (b.routesOf (ds.zip outs)) (b.routeAll (ds.zip outs)) := by
  induction h generalizing b with
  | nil => exact Routed.refl b
  | cons hhead _ ih =>
    rename_i d out ds outs _
    exact (routed_route b d hhead).trans (ih _)

end Batch

section

variable {shape : WheelShape} (umemBase : Option ℕ) (umemSizeBytes : UInt64)
  (rules : List ChaosRule) (tickNs : UInt64)

lemma faithful_judge (d : PacketDescriptor) (m : Umem) :
    Batch.Faithful d (run (judge umemBase umemSizeBytes rules tickNs d) m).1 := by
  have hjudged := (judge_sat umemBase umemSizeBytes rules tickNs d m).post
  refine ⟨Prod.ext hjudged.address_eq hjudged.length_eq, ?_⟩
  intro delayed delayTicks hverdict
  have heffect := hjudged.effect
  rw [hverdict] at heffect
  exact Prod.ext heffect.2.1 heffect.2.2

lemma faithful_judgeAll (ds : List PacketDescriptor) (m : Umem) :
    List.Forall₂ Batch.Faithful ds (run (judgeAll umemBase umemSizeBytes rules tickNs ds) m).1 := by
  induction ds generalizing m with
  | nil => exact .nil
  | cons d ds ih =>
    simp only [judgeAll, run_bind, run_pure]
    exact .cons (faithful_judge umemBase umemSizeBytes rules tickNs d m) (ih _)

/-- A call of `process_packet_batch` sends each descriptor along its route. -/
lemma routed_processPacketBatch (ds : List PacketDescriptor) (timingWheel : TimingWheel shape)
    (txOutput recycleOutput : List ProcessedFrame) (m : Umem) :
    Routed { timingWheel, txOutput, recycleOutput } ds
      (batchRoutes umemBase umemSizeBytes rules tickNs ds timingWheel txOutput recycleOutput m)
      (run (processPacketBatch umemBase umemSizeBytes rules tickNs ds timingWheel txOutput
        recycleOutput) m).1 := by
  rw [processPacketBatch, run_processDescriptors]
  exact Batch.routed_routeAll _ (faithful_judgeAll umemBase umemSizeBytes rules tickNs ds m)

end

/-! ### The balance of the counters -/

/-- The weights of one route balance. -/
lemma Route.weight_balance (r : Route) :
    r.weight .packetsSeen = 1 ∧
    r.weight .packetsSeen =
      r.weight .txFrames + r.weight .packetsDelayed + r.weight .packetsDropped ∧
    r.weight .packetsDropped = r.weight .recycleFrames + (if r.isRefused then 1 else 0) ∧
    r.weight .outputOverflows = (if r.isTxFull then 1 else 0) + (if r.isRefused then 1 else 0) ∧
    r.weight .invalidDescriptors ≤ r.weight .packetsMalformed ∧
    r.weight .packetsMalformed ≤ r.weight .packetsDropped := by
  cases r with
  | recycle cause | refused cause => cases cause <;> decide
  | _ => decide

/-- The counters of any list of routes balance. -/
lemma totalWeight_balance (routes : List Route) :
    totalWeight routes .packetsSeen = routes.length ∧
    totalWeight routes .packetsSeen = totalWeight routes .txFrames +
      totalWeight routes .packetsDelayed + totalWeight routes .packetsDropped ∧
    totalWeight routes .packetsDropped = totalWeight routes .recycleFrames +
      routes.countP Route.isRefused ∧
    totalWeight routes .outputOverflows = routes.countP Route.isTxFull +
      routes.countP Route.isRefused ∧
    totalWeight routes .invalidDescriptors ≤ totalWeight routes .packetsMalformed ∧
    totalWeight routes .packetsMalformed ≤ totalWeight routes .packetsDropped := by
  induction routes with
  | nil => simp
  | cons r routes ih =>
    obtain ⟨hseen, hsplit, hdropped, hoverflows, hinvalid, hmalformed⟩ := ih
    obtain ⟨hseen', hsplit', hdropped', hoverflows', hinvalid', hmalformed'⟩ := r.weight_balance
    simp only [totalWeight_cons, List.countP_cons, List.length_cons]
    refine ⟨?_, ?_, ?_, ?_, ?_, ?_⟩
    · rw [hseen', hseen, Nat.add_comm]
    · rw [hsplit', hsplit]
      ac_rfl
    · rw [hdropped', hdropped]
      ac_rfl
    · rw [hoverflows', hoverflows]
      ac_rfl
    · exact Nat.add_le_add hinvalid' hinvalid
    · exact Nat.add_le_add hmalformed' hmalformed

lemma countP_isTxFull_le (routes : List Route) :
    routes.countP Route.isTxFull ≤ totalWeight routes .packetsDropped := by
  have hroute : ∀ r : Route, (if r.isTxFull then 1 else 0) ≤ r.weight .packetsDropped := by
    intro r
    cases r with
    | recycle cause | refused cause => cases cause <;> decide
    | _ => decide
  induction routes with
  | nil => simp
  | cons r routes ih =>
    rw [List.countP_cons, totalWeight_cons, Nat.add_comm]
    exact Nat.add_le_add (hroute r) ih

/-- The three destinations share out the descriptors when none is refused. -/
lemma sentTo_partition {ds : List PacketDescriptor} {routes : List Route}
    (hlength : routes.length = ds.length) (hrefused : ∀ r ∈ routes, r.isRefused = false) :
    (sentTo Route.isTx ds routes ++ (sentTo Route.isRecycle ds routes ++
      sentTo Route.isWheel ds routes)).Perm (ds.map fun d => (d.frameAddress, d.frameLength)) := by
  induction ds generalizing routes with
  | nil =>
    rw [List.length_nil, List.length_eq_zero_iff] at hlength
    subst hlength
    exact .nil
  | cons d ds ih =>
    cases routes with
    | nil => simp at hlength
    | cons r routes =>
      have hrest := ih (Nat.succ.inj hlength) fun r' hr' => hrefused r' (List.mem_cons_of_mem _ hr')
      have hsplit : ∀ p : Route → Bool, sentTo p (d :: ds) (r :: routes) =
          sentTo p [d] [r] ++ sentTo p ds routes := by
        intro p
        rw [← sentTo_append p rfl]
        rfl
      rw [hsplit, hsplit, hsplit, List.map_cons]
      simp only [sentTo_singleton]
      refine List.Perm.trans ?_ (hrest.cons _)
      cases r with
      | tx => exact .refl _
      | recycle cause => exact List.perm_middle
      | wheel =>
        refine List.Perm.trans ?_ List.perm_middle
        exact List.perm_middle.append_left _
      | refused cause => simp [Route.isRefused] at hrefused

lemma sentTo_sublist (p : Route → Bool) {ds : List PacketDescriptor} {routes : List Route}
    (hlength : routes.length = ds.length) :
    (sentTo p ds routes).Sublist (ds.map fun d => (d.frameAddress, d.frameLength)) := by
  have hfst : ds.map (fun d => (d.frameAddress, d.frameLength)) =
      (ds.zip routes).map fun e => (e.1.frameAddress, e.1.frameLength) := by
    conv_lhs => rw [← List.map_fst_zip (show ds.length ≤ routes.length from hlength.ge)]
    rw [List.map_map]
    rfl
  rw [hfst]
  exact List.filter_sublist.map _

/-- A recycle output as long as the batch refuses nothing. -/
lemma Routed.not_refused {shape : WheelShape} {b b' : Batch shape} {ds : List PacketDescriptor}
    {routes : List Route} (h : Routed b ds routes b') (hstart : b.result.recycleCount = 0)
    (hroom : ds.length ≤ b.recycleOutput.length) : ∀ r ∈ routes, r.isRefused = false := by
  intro r hr
  cases hrefused : r.isRefused with
  | false => rfl
  | true =>
    have hfull := h.full_of_refused ⟨r, hr, hrefused⟩
    have hcount := h.recycleCount_eq
    have hlength := h.length_eq
    have hpos : 0 < routes.countP Route.isRefused := List.countP_pos_iff.mpr ⟨r, hr, hrefused⟩
    obtain ⟨hseen, hsplit, hdropped, -⟩ := totalWeight_balance routes
    omega

/-- A recycle output longer than the batch has room left. -/
lemma Routed.recycleCount_lt {shape : WheelShape} {b b' : Batch shape} {ds : List PacketDescriptor}
    {routes : List Route} (h : Routed b ds routes b') (hstart : b.result.recycleCount = 0)
    (hroom : ds.length < b.recycleOutput.length) :
    b'.result.recycleCount < b'.recycleOutput.length := by
  have hlength := h.length_eq
  obtain ⟨hseen, hsplit, hdropped, -⟩ := totalWeight_balance routes
  rw [h.recycleOutput_length, h.recycleCount_eq]
  omega

/-- A TX output as long as the batch is never full. -/
lemma Routed.not_txFull {shape : WheelShape} {b b' : Batch shape} {ds : List PacketDescriptor}
    {routes : List Route} (h : Routed b ds routes b') (hstart : b.result.txCount = 0)
    (hroom : ds.length ≤ b.txOutput.length) : ∀ r ∈ routes, r.isTxFull = false := by
  intro r hr
  cases htxFull : r.isTxFull with
  | false => rfl
  | true =>
    have hfull := h.full_of_txFull ⟨r, hr, htxFull⟩
    have hcount := h.txCount_eq
    have hlength := h.length_eq
    have hpos : 0 < routes.countP Route.isTxFull := List.countP_pos_iff.mpr ⟨r, hr, htxFull⟩
    have hdrop := countP_isTxFull_le routes
    obtain ⟨hseen, hsplit, -⟩ := totalWeight_balance routes
    omega

/-- One call of `process_packet_batch`, for every UMEM, batch, rule list, wheel, tick length and
output spans: each descriptor takes one route; the TX output, the recycle output and the wheel
receive exactly the descriptors sent to them, in order; an append is refused only when the
recycle output is full; the counters balance; and with a recycle output as long as the batch
nothing is lost or duplicated. -/
theorem processPacketBatch_accounting {shape : WheelShape} (umemBase : Option ℕ)
    (umemSizeBytes : UInt64) (rules : List ChaosRule) (tickNs : UInt64)
    (ds : List PacketDescriptor) (timingWheel : TimingWheel shape)
    (txOutput recycleOutput : List ProcessedFrame) (m : Umem) :
    let s := (run (processPacketBatch umemBase umemSizeBytes rules tickNs ds timingWheel txOutput
      recycleOutput) m).1
    let routes := batchRoutes umemBase umemSizeBytes rules tickNs ds timingWheel txOutput
      recycleOutput m
    let stats := s.result.stats
    routes.length = ds.length ∧
    ((∃ r ∈ routes, r.isRefused) → s.result.recycleCount = recycleOutput.length) ∧
    stats.packetsSeen = stats.txFrames + stats.packetsDelayed + stats.packetsDropped ∧
    stats.packetsDropped = s.result.recycleCount + routes.countP Route.isRefused ∧
    stats.outputOverflows = routes.countP Route.isTxFull + routes.countP Route.isRefused ∧
    (s.result.txCount = stats.txFrames ∧ stats.txFrames ≤ txOutput.length) ∧
    (s.result.recycleCount = stats.recycleFrames ∧ stats.recycleFrames ≤ recycleOutput.length) ∧
    (stats.invalidDescriptors ≤ stats.packetsMalformed ∧
      stats.packetsMalformed ≤ stats.packetsDropped) ∧
    ∃ frames : List DelayedFrame, timingWheel.Accepted s.timingWheel frames ∧
      s.tx.map (·.key) = sentTo Route.isTx ds routes ∧
      s.recycle.map (·.key) = sentTo Route.isRecycle ds routes ∧
      frames.map (·.key) = sentTo Route.isWheel ds routes ∧
      (ds.length ≤ recycleOutput.length →
        let input := ds.map fun d => (d.frameAddress, d.frameLength)
        (s.tx.map (·.key) ++ (s.recycle.map (·.key) ++ frames.map (·.key))).Perm input ∧
        (s.tx.map (·.key)).Sublist input ∧ (s.recycle.map (·.key)).Sublist input ∧
        (frames.map (·.key)).Sublist input) := by
  intro s routes stats
  have h : Routed { timingWheel, txOutput, recycleOutput } ds routes s :=
    routed_processPacketBatch umemBase umemSizeBytes rules tickNs ds timingWheel txOutput
      recycleOutput m
  obtain ⟨frames, hframes, hwheel⟩ := h.scheduled
  have htx : s.tx.map (·.key) = sentTo Route.isTx ds routes := h.tx_eq
  have hrecycle : s.recycle.map (·.key) = sentTo Route.isRecycle ds routes := h.recycle_eq
  -- the batch starts with all counters at zero
  have hcounter : ∀ counter, stats.get counter = totalWeight routes counter := by
    intro counter
    have := h.counters counter
    cases counter <;> exact this.trans (Nat.zero_add _)
  have htxCount : s.result.txCount = stats.get .txFrames := by
    rw [hcounter, h.txCount_eq, Nat.zero_add]
  have hrecycleCount : s.result.recycleCount = stats.get .recycleFrames := by
    rw [hcounter, h.recycleCount_eq, Nat.zero_add]
  have htxLe := h.txCount_le (Nat.zero_le _)
  have hrecycleLe := h.recycleCount_le (Nat.zero_le _)
  obtain ⟨-, hsplit, hdropped, hoverflows, hinvalid, hmalformed⟩ := totalWeight_balance routes
  simp only [← hcounter] at hsplit hdropped hoverflows hinvalid hmalformed
  refine ⟨h.length_eq, fun hrefused => ?_, hsplit, ?_, hoverflows, ⟨htxCount, ?_⟩,
    ⟨hrecycleCount, ?_⟩, ⟨hinvalid, hmalformed⟩, frames, hwheel, htx, hrecycle, hframes,
    fun hroom => ?_⟩
  · exact Nat.le_antisymm hrecycleLe (h.full_of_refused hrefused)
  · rw [hrecycleCount]
    exact hdropped
  · exact htxCount.symm.trans_le htxLe
  · exact hrecycleCount.symm.trans_le hrecycleLe
  · rw [htx, hrecycle, hframes]
    exact ⟨sentTo_partition h.length_eq (h.not_refused rfl hroom), sentTo_sublist _ h.length_eq,
      sentTo_sublist _ h.length_eq, sentTo_sublist _ h.length_eq⟩

end ChronosX
