import ChronosX.Spsc.Fifo

/-!
# Observing the size of the queue

`size_approx` loads the tail and then the head. A third thread that calls it may be overtaken
between the two loads: when more values have been popped than the tail it has loaded accounts for,
the difference of the indices wraps. The producer's and the consumer's own threads cannot be
overtaken, since one of the indices stands still while they observe.
-/

namespace ChronosX

namespace SPSCQueue

variable {T : Type} {capacity : PowerOfTwo}

section

variable (q : SPSCQueue T capacity)

def sizeApprox : UInt64 :=
  let tail := q.tail
  let head := q.head
  tail - head

def emptyApprox : Bool := q.sizeApprox == 0

def fullApprox : Bool := q.sizeApprox ≥ capacity.size

end

/-! ### The observation step by step -/

/-- How many values have been pushed and popped at some moment. -/
structure Counts where
  pushed : ℕ
  popped : ℕ
deriving DecidableEq, Repr

/-- Where `size_approx` is: not called, or with the tail, which it loaded at the given moment. -/
inductive Observer where
  | idle
  | loaded (tail : UInt64) (first : Counts)
deriving DecidableEq, Repr

/-- A call of `size_approx` that has returned: the difference of the indices, and the moments at
which it loaded the tail and the head. `empty_approx` and `full_approx` look at the difference. -/
structure Observation where
  size : UInt64
  first : Counts
  second : Counts
deriving DecidableEq, Repr

namespace Observation

variable (o : Observation)

/-- `empty_approx`. -/
def empty : Bool := o.size == 0

/-- `full_approx`. -/
def full (capacity : PowerOfTwo) : Bool := o.size ≥ capacity.size

/-- How many values were popped when the head was loaded beyond those that were pushed when the
tail was loaded. -/
def overtaken : ℕ := o.second.popped - o.first.pushed

end Observation

def Threads.counts (s : Threads T capacity) : Counts := ⟨s.pushed.length, s.popped.length⟩

/-- The two threads of the queue and an observer. -/
structure Observed (T : Type) (capacity : PowerOfTwo) where
  threads : Threads T capacity
  observer : Observer
  seen : List Observation

namespace Observed

/-- The next step of the observer; an idle observer calls `size_approx` again. -/
def observerTurn (s : Observed T capacity) : Observed T capacity :=
  match s.observer with
  | .idle => { s with observer := .loaded s.threads.queue.tail s.threads.counts }
  | .loaded tail first =>
    { s with
      observer := .idle
      seen := s.seen ++ [⟨tail - s.threads.queue.head, first, s.threads.counts⟩] }

inductive Turn where
  | thread (turn : Threads.Turn)
  | observer
deriving DecidableEq, Repr

def turn (s : Observed T capacity) : Turn → Observed T capacity
  | .thread turn => { s with threads := s.threads.turn turn }
  | .observer    => s.observerTurn

def run (s : Observed T capacity) (schedule : List Turn) : Observed T capacity :=
  schedule.foldl turn s

def start (buffer : Fin capacity.toNat → T) (index : UInt64) (calls : List T) :
    Observed T capacity :=
  ⟨.start buffer index calls, .idle, []⟩

end Observed

/-- A call that is not interrupted returns what the function returns. -/
lemma Observed.seen_sizeApprox (s : Observed T capacity) (h : s.observer = .idle) :
    (s.run [.observer, .observer]).seen =
      s.seen ++ [⟨s.threads.queue.sizeApprox, s.threads.counts, s.threads.counts⟩] := by
  simp [run, turn, observerTurn, h, sizeApprox]

/-! ### Moments -/

/-- What holds of the counts at every moment. -/
structure Counts.Possible (capacity : ℕ) (c : Counts) : Prop where
  popped_le : c.popped ≤ c.pushed
  pushed_le : c.pushed ≤ c.popped + capacity

/-- A later moment. -/
structure Counts.Before (c c' : Counts) : Prop where
  pushed_le : c.pushed ≤ c'.pushed
  popped_le : c.popped ≤ c'.popped

namespace Threads

variable {index : UInt64} {s : Threads T capacity}

lemma Holds.possible (h : s.Holds index) : s.counts.Possible capacity.toNat :=
  ⟨h.popped_front.length_le, h.bounded⟩

lemma counts_producerTurn (s : Threads T capacity) : s.counts.Before s.producerTurn.counts := by
  unfold producerTurn
  split
  · split <;> exact ⟨Nat.le_refl _, Nat.le_refl _⟩
  · split <;> exact ⟨Nat.le_refl _, Nat.le_refl _⟩
  · exact ⟨Nat.le_refl _, Nat.le_refl _⟩
  · refine ⟨?_, Nat.le_refl _⟩
    simp [counts]

lemma counts_consumerTurn (s : Threads T capacity) : s.counts.Before s.consumerTurn.counts := by
  unfold consumerTurn
  split
  · exact ⟨Nat.le_refl _, Nat.le_refl _⟩
  · split <;> exact ⟨Nat.le_refl _, Nat.le_refl _⟩
  · exact ⟨Nat.le_refl _, Nat.le_refl _⟩
  · refine ⟨Nat.le_refl _, ?_⟩
    simp [counts]

/-- Values that are pushed or popped stay so. -/
lemma counts_turn (s : Threads T capacity) (t : Turn) : s.counts.Before (s.turn t).counts := by
  cases t with
  | producer => exact s.counts_producerTurn
  | consumer => exact s.counts_consumerTurn

end Threads

lemma Counts.Before.trans {c c' c'' : Counts} (h : c.Before c') (h' : c'.Before c'') :
    c.Before c'' :=
  ⟨h.pushed_le.trans h'.pushed_le, h.popped_le.trans h'.popped_le⟩

/-! ### The invariant -/

/-- An observation of a queue whose indices started at `index`. -/
structure Observation.Holds (index : UInt64) (capacity : ℕ) (o : Observation) : Prop where
  size_eq : o.size = indexAfter index o.first.pushed - indexAfter index o.second.popped
  first : o.first.Possible capacity
  second : o.second.Possible capacity
  before : o.first.Before o.second

namespace Observed

variable {index : UInt64} {s : Observed T capacity}

/-- What the observer has loaded belongs to an earlier moment. -/
def ObserverHolds (index : UInt64) (s : Observed T capacity) : Prop :=
  match s.observer with
  | .idle => True
  | .loaded tail first =>
    tail = indexAfter index first.pushed ∧ first.Possible capacity.toNat ∧
      first.Before s.threads.counts

structure Holds (index : UInt64) (s : Observed T capacity) : Prop where
  threads : s.threads.Holds index
  observer : s.ObserverHolds index
  seen : ∀ o ∈ s.seen, o.Holds index capacity.toNat

lemma ObserverHolds.turn (h : s.ObserverHolds index) (t : Threads.Turn) :
    ObserverHolds index { s with threads := s.threads.turn t } := by
  unfold ObserverHolds at h ⊢
  dsimp only
  cases hphase : s.observer with
  | idle => trivial
  | loaded tail first =>
    rw [hphase] at h
    exact ⟨h.1, h.2.1, h.2.2.trans (s.threads.counts_turn t)⟩

lemma Holds.observerTurn (h : s.Holds index) : s.observerTurn.Holds index := by
  have hobserver := h.observer
  unfold Observed.observerTurn
  unfold ObserverHolds at hobserver
  cases hphase : s.observer with
  | idle =>
    refine ⟨h.threads, ⟨h.threads.tail_eq, h.threads.possible, ?_⟩, h.seen⟩
    exact ⟨Nat.le_refl _, Nat.le_refl _⟩
  | loaded tail first =>
    rw [hphase] at hobserver
    obtain ⟨rfl, hfirst, hbefore⟩ := hobserver
    refine ⟨h.threads, trivial, ?_⟩
    intro o ho
    rcases List.mem_append.mp ho with ho | ho
    · exact h.seen o ho
    · rw [List.mem_singleton.mp ho]
      refine ⟨?_, hfirst, h.threads.possible, hbefore⟩
      rw [h.threads.head_eq]
      rfl

lemma Holds.run (h : s.Holds index) (schedule : List Turn) : (s.run schedule).Holds index := by
  induction schedule generalizing s with
  | nil => exact h
  | cons t schedule ih =>
    apply ih
    cases t with
    | thread t => exact ⟨h.threads.turn t, h.observer.turn t, h.seen⟩
    | observer => exact h.observerTurn

lemma holds_start (buffer : Fin capacity.toNat → T) (index : UInt64) (calls : List T) :
    (start buffer index calls).Holds index :=
  ⟨Threads.holds_start buffer index calls, trivial, by simp [start]⟩

end Observed

/-! ### The size that is observed -/

/-- The distance to an index that is ahead. -/
lemma indexAfter_sub_wrapped (index : UInt64) (m d : ℕ) :
    (indexAfter index m - indexAfter index (m + d)).toNat = (2 ^ 64 - d % 2 ^ 64) % 2 ^ 64 := by
  have heq : indexAfter index m - indexAfter index (m + d) = 0 - UInt64.ofNat d := by
    rw [indexAfter, indexAfter, UInt64.ofNat_add]
    grind
  rw [heq, UInt64.toNat_sub, UInt64.toNat_ofNat', UInt64.toNat_zero, Nat.add_zero]

namespace Observation

variable {index : UInt64} {capacity : PowerOfTwo} {o : Observation}

/-- An observer that is not overtaken sees the values that were there when it loaded the tail and
have not been popped when it loads the head. -/
lemma Holds.size_of_not_overtaken (h : o.Holds index capacity.toNat) (hnot : o.overtaken = 0) :
    o.size.toNat = o.first.pushed - o.second.popped := by
  have hle : o.second.popped ≤ o.first.pushed := Nat.le_of_sub_eq_zero hnot
  have hbound := h.first.pushed_le
  have hbefore := h.before.popped_le
  have hcapacity := capacity.toNat_lt
  rw [h.size_eq, indexAfter_sub index hle (by omega)]

/-- An observer that is overtaken sees the difference wrap. -/
lemma Holds.size_of_overtaken (h : o.Holds index capacity.toNat) (hover : 0 < o.overtaken) :
    o.size.toNat = (2 ^ 64 - o.overtaken % 2 ^ 64) % 2 ^ 64 := by
  have hahead : o.second.popped = o.first.pushed + o.overtaken := by
    rw [overtaken] at hover ⊢
    omega
  rw [h.size_eq, hahead, indexAfter_sub_wrapped]

lemma Holds.size_le (h : o.Holds index capacity.toNat) (hnot : o.overtaken = 0) :
    o.size.toNat ≤ o.first.pushed - o.first.popped := by
  rw [h.size_of_not_overtaken hnot]
  exact Nat.sub_le_sub_left h.before.popped_le _

lemma Holds.size_le_iff (h : o.Holds index capacity.toNat) :
    o.size.toNat ≤ capacity.toNat ↔
      o.overtaken % 2 ^ 64 = 0 ∨ 2 ^ 64 ≤ o.overtaken % 2 ^ 64 + capacity.toNat := by
  rcases Nat.eq_zero_or_pos o.overtaken with hnot | hover
  · have hle := h.size_le hnot
    have hbound := h.first.pushed_le
    rw [hnot]
    exact iff_of_true (by omega) (Or.inl rfl)
  · rw [h.size_of_overtaken hover]
    omega

/-- A queue that is reported full was full when the tail was loaded. -/
lemma Holds.full_of_reported (h : o.Holds index capacity.toNat) (hnot : o.overtaken = 0)
    (hfull : o.full capacity = true) : o.first.pushed - o.first.popped = capacity.toNat := by
  have hreported : capacity.toNat ≤ o.size.toNat := by
    rw [full, decide_eq_true_eq, ge_iff_le, UInt64.le_iff_toNat_le] at hfull
    exact hfull
  have hbound := h.first.pushed_le
  exact Nat.le_antisymm (by omega) (hreported.trans (h.size_le hnot))

/-- As long as one of the indices stands still, the observer is not overtaken. -/
lemma Holds.not_overtaken (h : o.Holds index capacity.toNat)
    (hstill : o.second.popped = o.first.popped ∨ o.second.pushed = o.first.pushed) :
    o.overtaken = 0 := by
  apply Nat.sub_eq_zero_of_le
  rcases hstill with hpopped | hpushed
  · rw [hpopped]
    exact h.first.popped_le
  · rw [← hpushed]
    exact h.second.popped_le

end Observation

/-- For every interleaving: what `size_approx` returns is at most the capacity exactly if the
observer was not overtaken between its two loads (or was overtaken by so many values that the
difference of the indices is in range again). If it was not overtaken, it returns the number of
values that were there at both loads, and a queue that `full_approx` reports was full at the first.
It is not overtaken if only one of the two threads makes progress between the loads. -/
theorem sizeApprox_le_iff (buffer : Fin capacity.toNat → T) (index : UInt64) (calls : List T)
    (schedule : List Observed.Turn) (o : Observation)
    (ho : o ∈ ((Observed.start buffer index calls).run schedule).seen) :
    (o.size.toNat ≤ capacity.toNat ↔
      o.overtaken % 2 ^ 64 = 0 ∨ 2 ^ 64 ≤ o.overtaken % 2 ^ 64 + capacity.toNat) ∧
    (o.overtaken = 0 →
      o.size.toNat = o.first.pushed - o.second.popped ∧
        (o.full capacity = true → o.first.pushed - o.first.popped = capacity.toNat)) ∧
    (o.second.popped = o.first.popped ∨ o.second.pushed = o.first.pushed → o.overtaken = 0) := by
  have h := ((Observed.holds_start buffer index calls).run schedule).seen o ho
  refine ⟨h.size_le_iff, ?_, h.not_overtaken⟩
  intro hnot
  exact ⟨h.size_of_not_overtaken hnot, h.full_of_reported hnot⟩

/-- The producer pushes twice between the two loads; the observer sees the queue of the first. -/
theorem sizeApprox_le_iff_pushing :
    let schedule := Observed.Turn.observer ::
      List.replicate 8 (.thread .producer) ++ [Observed.Turn.observer]
    let o : Observation := ⟨0, ⟨0, 0⟩, ⟨2, 0⟩⟩
    o ∈ ((Observed.start (fun _ : Fin Threads.two.toNat => 0) 0 [7, 8]).run schedule).seen ∧
      o.size.toNat ≤ Threads.two.toNat ∧ o.size.toNat = o.first.pushed - o.second.popped ∧
      (o.full Threads.two = true → o.first.pushed - o.first.popped = Threads.two.toNat) := by
  intro schedule o
  have ho : o ∈ ((Observed.start (fun _ : Fin Threads.two.toNat => 0) 0 [7, 8]).run schedule).seen :=
    List.mem_singleton.mpr rfl
  obtain ⟨hiff, hexact, hstill⟩ := sizeApprox_le_iff _ _ _ _ o ho
  have hnot := hstill (Or.inl rfl)
  exact ⟨ho, hiff.mpr (Or.inl rfl), hexact hnot⟩

/-- One value is pushed and popped between the two loads: the queue for two is reported to hold
`2 ^ 64 - 1` values, and to be full, although it never held more than one. -/
theorem overtaken_observer_sees_full :
    let schedule := Observed.Turn.observer ::
      List.replicate 4 (.thread .producer) ++ List.replicate 4 (.thread .consumer) ++
        [Observed.Turn.observer]
    let s := (Observed.start (fun _ : Fin Threads.two.toNat => 0) 0 [7]).run schedule
    let o : Observation := ⟨0xFFFFFFFFFFFFFFFF, ⟨0, 0⟩, ⟨1, 1⟩⟩
    s.seen = [o] ∧ s.threads.pushed = [7] ∧ ¬ o.size.toNat ≤ Threads.two.toNat ∧
      o.full Threads.two = true := by
  intro schedule s o
  exact ⟨rfl, rfl, by decide, by decide⟩

end SPSCQueue

end ChronosX
