import Mathlib.Tactic.Common
import Mathlib.Data.List.Induction

/-!
# Publication by copy

A writer carries out operations on a state of its own. After an operation that readers should
see it copies what they may see of the state and then stores the copy where they load it. Readers
load at any time, also in the middle of an operation.

When every operation that is not published leaves the view as it is, a load returns the view after
the operations that are finished by then (`published_eq`), and later loads never see fewer of them
(`exists_loaded`).
-/

/-- How the writer works: what an operation does to the state and answers, whether it is
published, and what readers may see of a state. -/
structure Publication (σ α β ν : Type) where
  update : σ → α → σ × β
  publishes : α → β → Bool
  view : σ → ν

namespace Publication

variable {σ α β ν : Type}

/-- Where the writer is: between operations, or with an operation whose answer is known, or with
a copy that is not stored yet. -/
inductive Phase (α β ν : Type) where
  | idle
  | updated (op : α) (answer : β)
  | copied (copy : ν)

/-- The writer, what is published, and what the readers have loaded so far. -/
structure State (σ α β ν : Type) where
  current : σ
  published : ν
  pending : List α
  phase : Phase α β ν
  loaded : List ν

inductive Turn where
  | writer
  | reader
deriving DecidableEq, Repr

variable (p : Publication σ α β ν)

/-- The next step of the writer. -/
def writerTurn (s : State σ α β ν) : State σ α β ν :=
  match s.phase with
  | .idle =>
    match s.pending with
    | []            => s
    | op :: pending =>
      let (current, answer) := p.update s.current op
      { s with current, pending, phase := .updated op answer }
  | .updated op answer =>
    if p.publishes op answer then { s with phase := .copied (p.view s.current) }
    else { s with phase := .idle }
  | .copied copy => { s with published := copy, phase := .idle }

def turn (s : State σ α β ν) : Turn → State σ α β ν
  | .writer => p.writerTurn s
  | .reader => { s with loaded := s.loaded ++ [s.published] }

def run (s : State σ α β ν) (schedule : List Turn) : State σ α β ν := schedule.foldl p.turn s

/-- The writer before its first operation. -/
def start (current : σ) (ops : List α) : State σ α β ν :=
  ⟨current, p.view current, ops, .idle, []⟩

/-- One operation carried out with no reader in between: the state, what is published, and the
answer. -/
def perform (current : σ) (published : ν) (op : α) : σ × ν × β :=
  let (next, answer) := p.update current op
  (next, if p.publishes op answer then p.view next else published, answer)

/-- The number of operations that have begun. -/
def State.begun (s : State σ α β ν) (ops : List α) : ℕ := ops.length - s.pending.length

/-- The number of operations that are finished. -/
def State.finished (s : State σ α β ν) (ops : List α) : ℕ :=
  match s.phase with
  | .idle => s.begun ops
  | _     => s.begun ops - 1

/-- The writer refines `step` on the views of operations that are `legal`, and what it does not
publish changes no view. -/
structure Refines (step : ν → α → ν) (legal : α → Prop) : Prop where
  view_update : ∀ s op, legal op → p.view (p.update s op).1 = step (p.view s) op
  unchanged : ∀ s op, legal op → p.publishes op (p.update s op).2 = false →
    step (p.view s) op = p.view s

/-- The state in which the operations `done` are finished, of which `after` is the view. -/
inductive Follows (after : List α → ν) (ops done : List α) : State σ α β ν → Prop
  | idle {current pending loaded} (hops : ops = done ++ pending)
      (hview : p.view current = after done) :
      Follows after ops done ⟨current, after done, pending, .idle, loaded⟩
  | updated {before op pending loaded} (hops : ops = done ++ op :: pending)
      (hview : p.view before = after done) :
      Follows after ops done ⟨(p.update before op).1, after done, pending,
        .updated op (p.update before op).2, loaded⟩
  | copied {current op pending loaded} (hops : ops = done ++ op :: pending)
      (hview : p.view current = after (done ++ [op])) :
      Follows after ops done ⟨current, after done, pending, .copied (after (done ++ [op])), loaded⟩

variable {p} {step : ν → α → ν} {legal : α → Prop} {initial : ν} {ops done : List α}
  {s : State σ α β ν}

namespace Follows

variable {after : List α → ν}

lemma published_eq (h : p.Follows after ops done s) : s.published = after done := by
  cases h <;> rfl

lemma done_eq (h : p.Follows after ops done s) : done = ops.take done.length := by
  cases h with
  | idle hops | updated hops | copied hops => rw [hops, List.take_left]

lemma finished_eq (h : p.Follows after ops done s) : s.finished ops = done.length := by
  cases h with
  | idle hops => simp [State.finished, State.begun, hops]
  | updated hops | copied hops =>
    simp only [State.finished, State.begun, hops, List.length_append, List.length_cons]
    omega

lemma load (h : p.Follows after ops done s) (loaded : List ν) :
    p.Follows after ops done { s with loaded } := by
  cases h with
  | idle hops hview => exact .idle hops hview
  | updated hops hview => exact .updated hops hview
  | copied hops hview => exact .copied hops hview

/-- A turn of the writer finishes at most the operation it is at. -/
lemma writerTurn (hrefines : p.Refines step legal) (hlegal : ∀ op ∈ ops, legal op)
    (h : p.Follows (List.foldl step initial) ops done s) :
    ∃ done', done.length ≤ done'.length ∧
      p.Follows (List.foldl step initial) ops done' (p.writerTurn s) := by
  cases h with
  | @idle current pending loaded hops hview =>
    cases pending with
    | nil => exact ⟨done, Nat.le_refl _, .idle hops hview⟩
    | cons op pending => exact ⟨done, Nat.le_refl _, .updated hops hview⟩
  | @updated before op pending loaded hops hview =>
    have hop : legal op := hlegal op (by rw [hops]; simp)
    have hnext : p.view (p.update before op).1 = (done ++ [op]).foldl step initial := by
      rw [hrefines.view_update before op hop, hview, List.foldl_append]
      rfl
    by_cases hpublishes : p.publishes op (p.update before op).2 = true
    · refine ⟨done, Nat.le_refl _, ?_⟩
      simp only [Publication.writerTurn, if_pos hpublishes, hnext]
      exact .copied hops hnext
    · -- The operation ends here, with a view that readers already have.
      have hsame := hrefines.unchanged before op hop (Bool.not_eq_true _ ▸ hpublishes)
      have hafter : (done ++ [op]).foldl step initial = done.foldl step initial := by
        rw [List.foldl_append, ← hview]
        exact hsame
      refine ⟨done ++ [op], by simp, ?_⟩
      simp only [Publication.writerTurn, if_neg hpublishes]
      rw [← hafter]
      exact .idle (by rw [hops, List.append_assoc]; rfl) hnext
  | @copied current op pending loaded hops hview =>
    exact ⟨done ++ [op], by simp, .idle (by rw [hops, List.append_assoc]; rfl) hview⟩

end Follows

lemma loaded_writerTurn (s : State σ α β ν) : (p.writerTurn s).loaded = s.loaded := by
  rcases s with ⟨current, published, pending, phase, loaded⟩
  cases phase with
  | idle => cases pending <;> rfl
  | updated op answer =>
    simp only [writerTurn]
    split <;> rfl
  | copied copy => rfl

lemma run_append (s : State σ α β ν) (schedule schedule' : List Turn) :
    p.run s (schedule ++ schedule') = p.run (p.run s schedule) schedule' := List.foldl_append

lemma run_singleton (s : State σ α β ν) (t : Turn) : p.run s [t] = p.turn s t := rfl

/-- Along any schedule the loads are views after some first operations, in order, and no more than
those that are finished. -/
lemma run_follows (hrefines : p.Refines step legal) (hlegal : ∀ op ∈ ops, legal op) (current : σ)
    (schedule : List Turn) : ∃ (done : List α) (ks : List ℕ),
      p.Follows (List.foldl step (p.view current)) ops done (p.run (p.start current ops) schedule) ∧
        ks.Pairwise (· ≤ ·) ∧ (∀ k ∈ ks, k ≤ done.length) ∧
        (p.run (p.start current ops) schedule).loaded =
          ks.map fun k => (ops.take k).foldl step (p.view current) := by
  induction schedule using List.reverseRecOn with
  | nil => exact ⟨[], [], .idle rfl rfl, .nil, by simp, rfl⟩
  | append_singleton schedule t ih =>
    obtain ⟨done, ks, hfollows, hsorted, hbound, hloaded⟩ := ih
    rw [run_append, run_singleton]
    cases t with
    | writer =>
      obtain ⟨done', hlength, hfollows'⟩ := hfollows.writerTurn hrefines hlegal
      refine ⟨done', ks, hfollows', hsorted, fun k hk => Nat.le_trans (hbound k hk) hlength, ?_⟩
      rw [turn, loaded_writerTurn, hloaded]
    | reader =>
      refine ⟨done, ks ++ [done.length], hfollows.load _, ?_, ?_, ?_⟩
      · rw [List.pairwise_append]
        refine ⟨hsorted, List.pairwise_singleton _ _, ?_⟩
        intro k hk _ hlast
        rw [List.mem_singleton.mp hlast]
        exact hbound k hk
      · intro k hk
        rcases List.mem_append.mp hk with hk | hk
        · exact hbound k hk
        · exact Nat.le_of_eq (List.mem_singleton.mp hk)
      · rw [List.map_append, List.map_singleton, ← hfollows.done_eq, ← hfollows.published_eq,
          ← hloaded]
        rfl

/-- What is published is the view after the operations that are finished. -/
theorem published_eq (hrefines : p.Refines step legal) (hlegal : ∀ op ∈ ops, legal op)
    (current : σ) (schedule : List Turn) :
    (p.run (p.start current ops) schedule).published =
      (ops.take ((p.run (p.start current ops) schedule).finished ops)).foldl step
        (p.view current) := by
  obtain ⟨done, -, hfollows, -⟩ := run_follows hrefines hlegal current schedule
  rw [hfollows.finished_eq, ← hfollows.done_eq, hfollows.published_eq]

/-- Loads return views after some first operations, and later loads never after fewer. -/
theorem exists_loaded (hrefines : p.Refines step legal) (hlegal : ∀ op ∈ ops, legal op)
    (current : σ) (schedule : List Turn) : ∃ ks : List ℕ, ks.Pairwise (· ≤ ·) ∧
      (∀ k ∈ ks, k ≤ (p.run (p.start current ops) schedule).finished ops) ∧
      (p.run (p.start current ops) schedule).loaded =
        ks.map fun k => (ops.take k).foldl step (p.view current) := by
  obtain ⟨done, ks, hfollows, hsorted, hbound, hloaded⟩ :=
    run_follows hrefines hlegal current schedule
  rw [← hfollows.finished_eq] at hbound
  exact ⟨ks, hsorted, hbound, hloaded⟩

/-- Between operations readers see the writer's own state. -/
theorem published_of_idle (hrefines : p.Refines step legal) (hlegal : ∀ op ∈ ops, legal op)
    (current : σ) (schedule : List Turn)
    (hidle : (p.run (p.start current ops) schedule).phase = .idle) :
    (p.run (p.start current ops) schedule).published =
      p.view (p.run (p.start current ops) schedule).current := by
  obtain ⟨done, -, hfollows, -⟩ := run_follows hrefines hlegal current schedule
  generalize p.run (p.start current ops) schedule = s at hfollows hidle
  cases hfollows with
  | idle hops hview => exact hview.symm
  | updated => cases hidle
  | copied => cases hidle

/-- The writer alone carries an operation out in at most three turns, as `perform` says. -/
theorem exists_run_perform (current : σ) (published : ν) (op : α) (pending : List α)
    (loaded : List ν) : ∃ n ≤ 3,
      p.run ⟨current, published, op :: pending, .idle, loaded⟩ (List.replicate n .writer) =
        ⟨(p.perform current published op).1, (p.perform current published op).2.1, pending, .idle,
          loaded⟩ := by
  by_cases hpublishes : p.publishes op (p.update current op).2 = true
  · refine ⟨3, Nat.le_refl _, ?_⟩
    simp [run, List.replicate, turn, writerTurn, perform, hpublishes]
  · refine ⟨2, by decide, ?_⟩
    simp [run, List.replicate, turn, writerTurn, perform, hpublishes]

end Publication
