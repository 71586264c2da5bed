import ChronosX.Spsc.Fifo
import ChronosX.Tui.Histogram
import ChronosX.Protocol.Control

/-!
# Draining the statistics

The data plane pushes its statistics into an `SPSCQueue`, and the thread of the user interface
merges them into its dashboard: `drain_stats_queue` of `tui.hpp` pops until the queue is empty. The
two threads take turns as in `Spsc.Basic`. A drain ends with the first `try_pop` that finds the
queue empty, and its dashboard is then complete up to the moment at which that call loaded the
tail. Nothing else ends it: a producer that keeps up holds the user interface in its loop.
-/

namespace ChronosX

/-- The fields that `drain_stats_queue` writes. -/
structure DashboardState where
  packetsSeen : UInt64 := 0
  packetsDropped : UInt64 := 0
  bytesSeen : UInt64 := 0
  averageLatencyNs : UInt64 := 0
  lastAction : PacketAction := .pass
  histogram : LatencyHistogram := {}
  updateCount : UInt64 := 0

namespace DashboardState

/-- The body of the loop of `drain_stats_queue`. -/
def merge (state : DashboardState) (update : StatUpdate) : DashboardState where
  packetsSeen := update.packetsSeen
  packetsDropped := update.packetsDropped
  bytesSeen := update.bytesSeen
  averageLatencyNs := update.averageLatencyNs
  lastAction := update.lastAction
  updateCount := state.updateCount + 1
  histogram := state.histogram.record update.averageLatencyNs

/-- What a dashboard shows of a series of updates: the last one, how many there were, and the
histogram of their latencies. -/
def ofUpdates (updates : List StatUpdate) : DashboardState :=
  let last := updates.getLast?.getD {}
  { packetsSeen := last.packetsSeen
    packetsDropped := last.packetsDropped
    bytesSeen := last.bytesSeen
    averageLatencyNs := last.averageLatencyNs
    lastAction := last.lastAction
    histogram := .ofSamples (updates.map (·.averageLatencyNs))
    updateCount := UInt64.ofNat updates.length }

lemma ofUpdates_concat (updates : List StatUpdate) (update : StatUpdate) :
    ofUpdates (updates ++ [update]) = (ofUpdates updates).merge update := by
  have hcount : UInt64.ofNat (updates ++ [update]).length = UInt64.ofNat updates.length + 1 := by
    rw [List.length_append, UInt64.ofNat_add]
    rfl
  have hhistogram : LatencyHistogram.ofSamples ((updates ++ [update]).map (·.averageLatencyNs)) =
      (LatencyHistogram.ofSamples (updates.map (·.averageLatencyNs))).record
        update.averageLatencyNs := by
    simp [LatencyHistogram.ofSamples]
  simp only [ofUpdates, merge, hcount, hhistogram, List.getLast?_concat, Option.getD_some]

end DashboardState

open SPSCQueue

/-- The queue with its two threads and the dashboard of the consumer's. For every call of
`drain_stats_queue` that has returned, `returned` has how many updates had been pushed when its
last `try_pop` loaded the tail, and the dashboard. -/
structure Dashboard (capacity : PowerOfTwo) where
  threads : Threads StatUpdate capacity
  state : DashboardState
  returned : List (ℕ × DashboardState)

namespace Dashboard

variable {capacity : PowerOfTwo}

/-- The next step of the user interface: one of `try_pop`, and what `drain_stats_queue` does with
its result. -/
def uiTurn (s : Dashboard capacity) : Dashboard capacity :=
  let threads := s.threads.consumerTurn
  match s.threads.consumer with
  | .loaded head =>
    if head = s.threads.queue.tail then
      { s with threads, returned := s.returned ++ [(s.threads.pushed.length, s.state)] }
    else { s with threads }
  | .storing _ update => { s with threads, state := s.state.merge update }
  | _ => { s with threads }

def turn (s : Dashboard capacity) : Threads.Turn → Dashboard capacity
  | .producer => { s with threads := s.threads.producerTurn }
  | .consumer => s.uiTurn

def run (s : Dashboard capacity) (schedule : List Threads.Turn) : Dashboard capacity :=
  schedule.foldl turn s

def start (buffer : Fin capacity.toNat → StatUpdate) (index : UInt64) (calls : List StatUpdate) :
    Dashboard capacity :=
  ⟨.start buffer index calls, {}, []⟩

/-- The dashboard shows what has been popped, and every drain has returned all there was. -/
structure Shows (index : UInt64) (s : Dashboard capacity) : Prop where
  threads : s.threads.Holds index
  state_eq : s.state = .ofUpdates s.threads.popped
  returned : ∀ n shown, (n, shown) ∈ s.returned →
    n ≤ s.threads.pushed.length ∧ shown = .ofUpdates (s.threads.pushed.take n)

variable {index : UInt64} {s : Dashboard capacity}

/-! ### Turns -/

/-- A turn of the producer pushes one update or none. -/
lemma pushed_producerTurn (t : Threads StatUpdate capacity) :
    t.pushed <+: t.producerTurn.pushed ∧ t.producerTurn.popped = t.popped := by
  unfold Threads.producerTurn
  split
  · split
    · exact ⟨List.prefix_refl _, rfl⟩
    · exact ⟨List.prefix_refl _, rfl⟩
  · split_ifs
    · exact ⟨List.prefix_refl _, rfl⟩
    · exact ⟨List.prefix_refl _, rfl⟩
  · exact ⟨List.prefix_refl _, rfl⟩
  · exact ⟨List.prefix_append _ _, rfl⟩

lemma Shows.producerTurn (h : s.Shows index) : (s.turn .producer).Shows index where
  threads := h.threads.producerTurn
  state_eq := h.state_eq.trans (by rw [turn, (pushed_producerTurn s.threads).2])
  returned n shown hmem := by
    obtain ⟨hle, rfl⟩ := h.returned n shown hmem
    obtain ⟨more, hmore⟩ := (pushed_producerTurn s.threads).1
    simp only [turn]
    rw [← hmore, List.length_append, List.take_append_of_le_length hle]
    exact ⟨Nat.le_add_right_of_le hle, rfl⟩

/-- A `try_pop` that finds the queue empty has nothing left to pop. -/
lemma Shows.popped_eq (h : s.Shows index) {head : UInt64}
    (hphase : s.threads.consumer = .loaded head) (hempty : head = s.threads.queue.tail) :
    s.threads.popped = s.threads.pushed := by
  have hconsumer := h.threads.consumer
  rw [Threads.ConsumerHolds, hphase] at hconsumer
  have hzero : s.threads.queue.size = 0 :=
    s.threads.queue.head_eq_tail_iff.mp (hconsumer.symm.trans hempty)
  rw [h.threads.size_eq] at hzero
  exact h.threads.popped_front.eq_of_length_le (Nat.le_of_sub_eq_zero hzero)

section

variable {head : UInt64} {update : StatUpdate}

lemma uiTurn_idle (hphase : s.threads.consumer = .idle) :
    s.uiTurn =
      { s with threads := { s.threads with consumer := .loaded s.threads.queue.head } } := by
  simp only [uiTurn, Threads.consumerTurn, hphase]

/-- The drain returns. -/
lemma uiTurn_empty (hphase : s.threads.consumer = .loaded head)
    (hempty : head = s.threads.queue.tail) :
    s.uiTurn =
      { s with
        threads := { s.threads with
          consumer := .idle, emptyAt := s.threads.emptyAt ++ [s.threads.queue.size] }
        returned := s.returned ++ [(s.threads.pushed.length, s.state)] } := by
  simp only [uiTurn, Threads.consumerTurn, hphase, if_pos hempty]

lemma uiTurn_found (hphase : s.threads.consumer = .loaded head)
    (hfound : head ≠ s.threads.queue.tail) :
    s.uiTurn = { s with threads := { s.threads with consumer := .reading head } } := by
  simp only [uiTurn, Threads.consumerTurn, hphase, if_neg hfound]

lemma uiTurn_reading (hphase : s.threads.consumer = .reading head) :
    s.uiTurn =
      { s with threads := { s.threads with
          consumer := .storing head (s.threads.queue.buffer (capacity.slot head)) } } := by
  simp only [uiTurn, Threads.consumerTurn, hphase]

/-- The update is taken and merged. -/
lemma uiTurn_storing (hphase : s.threads.consumer = .storing head update) :
    s.uiTurn =
      { s with
        threads := { s.threads with
          queue := { s.threads.queue with head := head + 1 }
          consumer := .idle
          popped := s.threads.popped ++ [update] }
        state := s.state.merge update } := by
  simp only [uiTurn, Threads.consumerTurn, hphase]

end

lemma threads_uiTurn (s : Dashboard capacity) : s.uiTurn.threads = s.threads.consumerTurn := by
  unfold uiTurn
  split
  · split_ifs <;> rfl
  · rfl
  · rfl

lemma Shows.uiTurn (h : s.Shows index) : s.uiTurn.Shows index := by
  have hthreads : s.uiTurn.threads.Holds index := by
    rw [threads_uiTurn]
    exact h.threads.consumerTurn
  cases hphase : s.threads.consumer with
  | idle =>
    rw [uiTurn_idle hphase] at hthreads ⊢
    exact ⟨hthreads, h.state_eq, h.returned⟩
  | loaded head =>
    by_cases hempty : head = s.threads.queue.tail
    · rw [uiTurn_empty hphase hempty] at hthreads ⊢
      refine ⟨hthreads, h.state_eq, ?_⟩
      intro n shown hmem
      obtain hmem | hmem := List.mem_append.mp hmem
      · exact h.returned n shown hmem
      · cases List.mem_singleton.mp hmem
        rw [List.take_length, h.state_eq, h.popped_eq hphase hempty]
        exact ⟨Nat.le_refl _, rfl⟩
    · rw [uiTurn_found hphase hempty] at hthreads ⊢
      exact ⟨hthreads, h.state_eq, h.returned⟩
  | reading head =>
    rw [uiTurn_reading hphase] at hthreads ⊢
    exact ⟨hthreads, h.state_eq, h.returned⟩
  | storing head update =>
    rw [uiTurn_storing hphase] at hthreads ⊢
    refine ⟨hthreads, ?_, h.returned⟩
    rw [DashboardState.ofUpdates_concat, h.state_eq]

lemma Shows.turn (h : s.Shows index) (t : Threads.Turn) : (s.turn t).Shows index := by
  cases t with
  | producer => exact h.producerTurn
  | consumer => exact h.uiTurn

lemma Shows.run (h : s.Shows index) (schedule : List Threads.Turn) :
    (s.run schedule).Shows index := by
  induction schedule generalizing s with
  | nil => exact h
  | cons t schedule ih => exact ih (h.turn t)

lemma shows_start (buffer : Fin capacity.toNat → StatUpdate) (index : UInt64)
    (calls : List StatUpdate) : (start buffer index calls).Shows index where
  threads := Threads.holds_start buffer index calls
  state_eq := rfl
  returned := by simp [start]

/-- Under every interleaving the dashboard shows a front of what has been pushed: the latest values
of the last update in it, their number, and the histogram of the latencies. No update is lost,
merged twice or out of order; and whenever `drain_stats_queue` returns, the dashboard shows every
update that had been pushed when its last `try_pop` looked. -/
theorem drain_exact (buffer : Fin capacity.toNat → StatUpdate) (index : UInt64)
    (calls : List StatUpdate) (schedule : List Threads.Turn) :
    let s := (start buffer index calls).run schedule
    s.threads.popped <+: s.threads.pushed ∧
    s.state = .ofUpdates s.threads.popped ∧
    ∀ n shown, (n, shown) ∈ s.returned → n ≤ s.threads.pushed.length ∧
      shown = .ofUpdates (s.threads.pushed.take n) := by
  intro s
  have h : s.Shows index := (shows_start buffer index calls).run schedule
  exact ⟨h.threads.popped_front, h.state_eq, h.returned⟩

/-- Two updates through a queue for two: the first is shown by a drain that returns before the
second is pushed. -/
def twoUpdates : Dashboard Threads.two :=
  (start (fun _ => {}) 0 [{ packetsSeen := 5 }, { packetsSeen := 9 }]).run
    (List.replicate 4 .producer ++ List.replicate 6 .consumer ++ List.replicate 4 .producer)

theorem drain_exact_twoUpdates :
    ∃ shown, twoUpdates.returned = [(1, shown)] ∧
      shown = .ofUpdates (twoUpdates.threads.pushed.take 1) ∧
      twoUpdates.threads.pushed.length = 2 := by
  obtain ⟨-, -, hreturned⟩ := drain_exact (fun _ : Fin Threads.two.toNat => {}) 0
    [{ packetsSeen := 5 }, { packetsSeen := 9 }]
    (List.replicate 4 .producer ++ List.replicate 6 .consumer ++ List.replicate 4 .producer)
  exact ⟨_, rfl, (hreturned 1 _ (List.mem_singleton_self _)).2, rfl⟩

/-! ### Where a drain ends -/

/-- How many turns the user interface has to take, on its own, before a drain returns. -/
def remaining (s : Dashboard capacity) : ℕ :=
  4 * s.threads.queue.size + 2 -
    match s.threads.consumer with
    | .idle        => 0
    | .loaded _    => 1
    | .reading _   => 2
    | .storing _ _ => 3

/-- A turn of the user interface returns from a drain or is one turn less to take. -/
lemma Shows.uiTurn_returns (h : s.Shows index) :
    0 < s.remaining ∧ (
      s.uiTurn.returned =
        s.returned ++ [(s.threads.pushed.length, .ofUpdates s.threads.pushed)] ∨
      s.uiTurn.returned = s.returned ∧ s.uiTurn.threads.pushed = s.threads.pushed ∧
        s.uiTurn.remaining + 1 = s.remaining) := by
  have hconsumer := h.threads.consumer
  have hsize := h.threads.size_eq
  have hsize' := h.uiTurn.threads.size_eq
  unfold Threads.ConsumerHolds at hconsumer
  cases hphase : s.threads.consumer with
  | idle =>
    simp only [uiTurn_idle hphase, remaining, hphase]
    exact ⟨by omega, Or.inr ⟨trivial, trivial, by omega⟩⟩
  | loaded head =>
    by_cases hempty : head = s.threads.queue.tail
    · simp only [uiTurn_empty hphase hempty, remaining, hphase]
      rw [h.state_eq, h.popped_eq hphase hempty]
      exact ⟨by omega, Or.inl rfl⟩
    · simp only [uiTurn_found hphase hempty, remaining, hphase]
      exact ⟨by omega, Or.inr ⟨trivial, trivial, by omega⟩⟩
  | reading head =>
    rw [hphase] at hconsumer
    have hlt := hconsumer.2
    simp only [uiTurn_reading hphase, remaining, hphase]
    exact ⟨by omega, Or.inr ⟨trivial, trivial, by omega⟩⟩
  | storing head update =>
    rw [hphase] at hconsumer
    have hlt := (List.getElem?_eq_some_iff.mp hconsumer.2).1
    rw [uiTurn_storing hphase] at hsize'
    simp only [List.length_append, List.length_singleton] at hsize'
    simp only [uiTurn_storing hphase, remaining, hphase]
    exact ⟨by omega, Or.inr ⟨trivial, trivial, by omega⟩⟩

/-- Turns of the user interface alone end in a return. -/
lemma Shows.returns (h : s.Shows index) :
    ∃ n ≤ s.remaining, (s.run (List.replicate n .consumer)).returned =
      s.returned ++ [(s.threads.pushed.length, .ofUpdates s.threads.pushed)] := by
  induction hremaining : s.remaining generalizing s with
  | zero => exact absurd hremaining h.uiTurn_returns.1.ne'
  | succ m ih =>
    obtain ⟨-, hreturned | ⟨hreturned, hpushed, hless⟩⟩ := h.uiTurn_returns
    · exact ⟨1, Nat.le_add_left 1 m, hreturned⟩
    · rw [hremaining] at hless
      obtain ⟨n, hn, hrun⟩ := ih h.uiTurn (Nat.succ.inj hless)
      rw [hreturned, hpushed] at hrun
      exact ⟨n + 1, Nat.succ_le_succ hn, hrun⟩

/-- From every reachable state, the user interface returns from its drain while the producer rests:
after at most four turns for each update in the queue and two more. The dashboard then shows all
that has been pushed. -/
theorem drain_returns (buffer : Fin capacity.toNat → StatUpdate) (index : UInt64)
    (calls : List StatUpdate) (schedule : List Threads.Turn) :
    let s := (start buffer index calls).run schedule
    ∃ n ≤ 4 * s.threads.queue.size + 2, (s.run (List.replicate n .consumer)).returned =
      s.returned ++ [(s.threads.pushed.length, .ofUpdates s.threads.pushed)] := by
  intro s
  have h : s.Shows index := (shows_start buffer index calls).run schedule
  obtain ⟨n, hn, hreturned⟩ := h.returns
  exact ⟨n, hn.trans (Nat.sub_le _ _), hreturned⟩

/-! ### A producer that keeps up -/

lemma run_append (s : Dashboard capacity) (first second : List Threads.Turn) :
    s.run (first ++ second) = (s.run first).run second := List.foldl_append

/-- Both threads between two calls, all updates taken. -/
structure Level (s : Dashboard capacity) : Prop where
  producer : s.threads.producer = .idle
  consumer : s.threads.consumer = .idle
  head_eq : s.threads.queue.head = s.threads.queue.tail

/-- One update is pushed and popped. -/
def round : List Threads.Turn := List.replicate 4 .producer ++ List.replicate 4 .consumer

lemma Level.run_round (hs : s.Level) {update : StatUpdate} {calls : List StatUpdate}
    (hcalls : s.threads.calls = update :: calls) :
    (s.run round).Level ∧ (s.run round).threads.calls = calls ∧
      (s.run round).threads.popped = s.threads.popped ++ [update] ∧
      (s.run round).returned = s.returned := by
  obtain ⟨hproducer, hconsumer, hhead⟩ := hs
  have hroom : ¬ s.threads.queue.tail - s.threads.queue.tail ≥ capacity.size := by
    rw [UInt64.sub_self]
    exact UInt64.not_le.mpr capacity.toNat_pos
  have hfound : s.threads.queue.tail ≠ s.threads.queue.tail + 1 := by
    intro heq
    have hzero : (0 : UInt64) = 1 := by grind
    exact absurd hzero (by decide)
  have hpushed : s.run (List.replicate 4 .producer) =
      { s with threads := { s.threads with
          queue := { s.threads.queue with
            buffer := Function.update s.threads.queue.buffer
              (capacity.slot s.threads.queue.tail) update
            tail := s.threads.queue.tail + 1 }
          calls
          producer := .idle
          pushed := s.threads.pushed ++ [update] } } := by
    simp only [run, List.replicate, List.foldl_cons, List.foldl_nil, turn, Threads.producerTurn,
      hproducer, hcalls, hhead, if_neg hroom]
  rw [round, run_append, hpushed]
  simp only [run, List.replicate, List.foldl_cons, List.foldl_nil, turn, uiTurn,
    Threads.consumerTurn, hconsumer, hhead, if_neg hfound, Function.update_self]
  exact ⟨⟨rfl, rfl, rfl⟩, trivial, trivial, trivial⟩

/-- Round after round, no drain returns. -/
lemma Level.run_rounds (hs : s.Level) (calls : List StatUpdate) (hcalls : s.threads.calls = calls) :
    ∃ schedule, (s.run schedule).threads.popped = s.threads.popped ++ calls ∧
      (s.run schedule).returned = s.returned := by
  induction calls generalizing s with
  | nil => exact ⟨[], (List.append_nil _).symm, rfl⟩
  | cons update calls ih =>
    obtain ⟨hround, hcalls', hpopped, hreturned⟩ := hs.run_round hcalls
    obtain ⟨schedule, hpopped', hreturned'⟩ := ih hround hcalls'
    refine ⟨round ++ schedule, ?_, ?_⟩
    · rw [run_append, hpopped', hpopped, List.append_assoc]
      rfl
    · rw [run_append, hreturned', hreturned]

/-- A drain is not bounded by the capacity of the queue: whatever the number of updates, there is
an interleaving in which the first drain merges all of them and has not returned. -/
theorem drain_outrun (buffer : Fin capacity.toNat → StatUpdate) (index : UInt64)
    (calls : List StatUpdate) :
    ∃ schedule, ((start buffer index calls).run schedule).state = .ofUpdates calls ∧
      ((start buffer index calls).run schedule).returned = [] := by
  have hlevel : (start buffer index calls).Level := ⟨rfl, rfl, rfl⟩
  obtain ⟨schedule, hpopped, hreturned⟩ := hlevel.run_rounds calls rfl
  have hshows := (shows_start buffer index calls).run schedule
  exact ⟨schedule, hshows.state_eq.trans (congrArg _ hpopped), hreturned⟩

end Dashboard

end ChronosX
