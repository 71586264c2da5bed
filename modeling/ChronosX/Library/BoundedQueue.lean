import Mathlib.Data.List.Basic

/-!
# Bounded queues

A first-in first-out list that never holds more than its capacity. Entries are added and taken in
batches: of the entries offered it takes as many as there is room for, and of the entries asked for
it gives as many as there are.
-/

variable {α : Type*}

/-- A queue of at most `capacity` entries, oldest first. -/
structure BoundedQueue (α : Type*) (capacity : ℕ) where
  entries : List α
  bounded : entries.length ≤ capacity

namespace BoundedQueue

variable {capacity : ℕ} (q : BoundedQueue α capacity)

@[ext] lemma ext {q q' : BoundedQueue α capacity} (h : q.entries = q'.entries) : q = q' := by
  cases q
  cases q'
  cases h
  rfl

def empty : BoundedQueue α capacity := ⟨[], Nat.zero_le _⟩

/-- The number of entries there is room for. -/
def room : ℕ := capacity - q.entries.length

def produce (items : List α) : ℕ × BoundedQueue α capacity :=
  (min items.length q.room,
    { entries := q.entries ++ items.take q.room
      bounded := by
        have hbounded := q.bounded
        rw [List.length_append, List.length_take, room]
        omega })

def consume (size : ℕ) : List α × BoundedQueue α capacity :=
  (q.entries.take size,
    { entries := q.entries.drop size
      bounded := by
        rw [List.length_drop]
        exact Nat.le_trans (Nat.sub_le _ _) q.bounded })

/-! ### Calls -/

inductive Call (α : Type*) where
  | produce (items : List α)
  | consume (size : ℕ)

inductive Reply (α : Type*) where
  | produced (count : ℕ)
  | consumed (items : List α)

def step : Call α → Reply α × BoundedQueue α capacity
  | .produce items => (.produced (q.produce items).1, (q.produce items).2)
  | .consume size  => (.consumed (q.consume size).1, (q.consume size).2)

end BoundedQueue
