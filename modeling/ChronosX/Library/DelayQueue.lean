import Mathlib.Tactic.Common
import Mathlib.Data.Nat.ModEq
import Mathlib.Data.List.Basic

/-!
# Exact delay queues

The abstract model of a delay line: time is an unbounded count of ticks, and every item ever
accepted is remembered, in order of acceptance, together with the tick it is due at. The item
is handed out by that tick and by no other, so nothing is early, late or repeated.

`filter_residue` is the fact behind every hashed or bucketed implementation: as long as no
item is due more than `n` ticks ahead, the items whose due tick falls in one residue class
modulo `n` are due at one single tick.
-/

/-- A delay queue: the ticks so far and the accepted items with the tick each is due at. -/
structure DelayQueue (α : Type) where
  now : ℕ
  accepted : List (α × ℕ)

namespace DelayQueue

variable {α : Type}

def empty : DelayQueue α := ⟨0, []⟩

/-- Accept an item for the `k`-th tick from now, or for the next one when `k` is zero. -/
def accept (q : DelayQueue α) (a : α) (k : ℕ) : DelayQueue α :=
  { q with accepted := q.accepted ++ [(a, q.now + max 1 k)] }

def advance (q : DelayQueue α) : DelayQueue α := { q with now := q.now + 1 }

/-- The items handed out by the `t`-th tick, in order of acceptance. -/
def dueAt (q : DelayQueue α) (t : ℕ) : List α := (q.accepted.filter (·.2 = t)).map (·.1)

/-- The items not handed out yet. -/
def pending (q : DelayQueue α) : List (α × ℕ) := q.accepted.filter (q.now < ·.2)

/-- No item is due more than `n` ticks ahead. -/
def Within (q : DelayQueue α) (n : ℕ) : Prop := ∀ e ∈ q.accepted, e.2 ≤ q.now + n

variable {q : DelayQueue α} {n : ℕ}

@[simp] lemma now_advance : q.advance.now = q.now + 1 := rfl

@[simp] lemma accepted_advance : q.advance.accepted = q.accepted := rfl

lemma within_empty (n : ℕ) : (empty : DelayQueue α).Within n := by
  intro e he
  simp [empty] at he

lemma Within.accept (h : q.Within n) (a : α) {k : ℕ} (hn : 1 ≤ n) (hk : k ≤ n) :
    (q.accept a k).Within n := by
  intro e he
  rcases List.mem_append.mp he with he | he
  · exact h e he
  · rw [List.mem_singleton] at he
    subst he
    exact Nat.add_le_add_left (max_le hn hk) _

lemma Within.advance (h : q.Within n) : q.advance.Within n := by
  intro e he
  have := h e he
  simp only [now_advance]
  omega

lemma pending_accept (a : α) (k : ℕ) :
    (q.accept a k).pending = q.pending ++ [(a, q.now + max 1 k)] := by
  have hlt : q.now < q.now + max 1 k := by omega
  rw [pending, accept, List.filter_append, List.filter_singleton]
  simp only [hlt, decide_true, cond_true]
  rfl

lemma pending_advance : q.advance.pending = q.pending.filter (q.now + 1 < ·.2) := by
  simp only [pending, now_advance, accepted_advance, List.filter_filter]
  congr 1
  funext e
  by_cases h : q.now + 1 < e.2
  · simp [h, Nat.lt_of_succ_lt h]
  · simp [h]

/-- What is due at a future tick is pending. -/
lemma pending_filter_eq {t : ℕ} (ht : q.now < t) :
    q.pending.filter (·.2 = t) = q.accepted.filter (·.2 = t) := by
  simp only [pending, List.filter_filter]
  apply List.filter_congr
  intro e _
  by_cases h : e.2 = t
  · simp [h, ht]
  · simp [h]

lemma length_dueAt {t : ℕ} (ht : q.now < t) :
    (q.dueAt t).length = (q.pending.filter (·.2 = t)).length := by
  rw [pending_filter_eq ht, dueAt, List.length_map]

/-- Within one rotation a residue class holds a single due tick. -/
lemma filter_residue (h : q.Within n) {t : ℕ} (hlt : q.now < t) (hle : t ≤ q.now + n) :
    q.pending.filter (·.2 % n = t % n) = q.pending.filter (·.2 = t) := by
  apply List.filter_congr
  intro e he
  simp only [pending, List.mem_filter, decide_eq_true_eq] at he
  have hen := h e he.1
  have hiff : e.2 % n = t % n ↔ e.2 = t := by
    constructor
    · intro hmod
      -- both lie in the `n` ticks after `now`, so a common residue leaves no room
      have hsub : (e.2 - q.now - 1) % n = (t - q.now - 1) % n := by
        have hmod' : q.now + 1 + (e.2 - q.now - 1) ≡ q.now + 1 + (t - q.now - 1) [MOD n] := by
          rw [show q.now + 1 + (e.2 - q.now - 1) = e.2 by omega,
            show q.now + 1 + (t - q.now - 1) = t by omega]
          exact hmod
        exact Nat.ModEq.add_left_cancel' _ hmod'
      rw [Nat.mod_eq_of_lt (by omega), Nat.mod_eq_of_lt (by omega)] at hsub
      omega
    · rintro rfl
      rfl
  simp [hiff]

/-- One tick moves exactly the items due at it out of `pending`. -/
lemma length_pending_advance :
    q.advance.pending.length + (q.dueAt (q.now + 1)).length = q.pending.length := by
  rw [pending_advance, length_dueAt (Nat.lt_succ_self _)]
  have hdue : q.pending.filter (·.2 = q.now + 1) = q.pending.filter (¬ q.now + 1 < ·.2) := by
    apply List.filter_congr
    intro e he
    simp only [pending, List.mem_filter, decide_eq_true_eq] at he
    simp only [decide_eq_decide]
    omega
  rw [hdue]
  simpa [List.countP_eq_length_filter] using
    (List.length_eq_countP_add_countP (fun e : α × ℕ => decide (q.now + 1 < e.2))
      (l := q.pending)).symm

end DelayQueue
