import ChronosX.Types
import Mathlib.Logic.Function.Basic
import Mathlib.Data.List.Range

/-!
# The simulated ring

`SimulatedRing` of `socket_manager.hpp`: a power-of-two array between a producer and a consumer
counter that only ever grow, with masked array positions. The structure carries the bound that
the two ends of the ring rely on: the counters are at most one capacity apart, also when they
wrap. `toList` is the queue a ring stands for, and every operation is described by what it does
to that list.
-/

namespace ChronosX

structure SimulatedRing (α : Type) (capacity : PowerOfTwo) where
  buffer : Fin capacity.toNat → α
  producer : UInt64
  consumer : UInt64
  bounded : (producer - consumer).toNat ≤ capacity.toNat

namespace SimulatedRing

variable {α : Type} {capacity : PowerOfTwo}

/-- A default-constructed ring. -/
def fresh [Inhabited α] : SimulatedRing α capacity :=
  ⟨fun _ => default, 0, 0, Nat.zero_le _⟩

variable (r : SimulatedRing α capacity)

def availableConsume : UInt64 := r.producer - r.consumer

def availableProduce : UInt64 := capacity.size - (r.producer - r.consumer)

lemma availableProduce_toNat :
    r.availableProduce.toNat = capacity.toNat - r.availableConsume.toNat := by
  rw [availableProduce, UInt64.toNat_sub_of_le]
  · rfl
  · exact UInt64.le_iff_toNat_le.mpr r.bounded

variable {r}

lemma availableProduce_pos :
    r.availableProduce > 0 ↔ r.availableConsume.toNat < capacity.toNat := by
  rw [gt_iff_lt, UInt64.lt_iff_toNat_lt, availableProduce_toNat, UInt64.toNat_zero,
    Nat.sub_pos_iff_lt]

lemma availableConsume_pos : r.availableConsume > 0 ↔ 0 < r.availableConsume.toNat := by
  rw [gt_iff_lt, UInt64.lt_iff_toNat_lt, UInt64.toNat_zero]

/-- The producer moves one ahead. -/
lemma succ_sub_toNat (h : r.availableProduce > 0) :
    (r.producer + 1 - r.consumer).toNat = r.availableConsume.toNat + 1 := by
  have hlt := availableProduce_pos.mp h
  have hcap := capacity.toNat_lt
  have heq : r.producer + 1 - r.consumer = r.availableConsume + 1 := by
    rw [availableConsume]
    grind
  rw [heq, UInt64.toNat_add, UInt64.toNat_one, Nat.mod_eq_of_lt (by omega)]

/-- The consumer moves one ahead. -/
lemma sub_succ_toNat (h : r.availableConsume > 0) :
    (r.producer - (r.consumer + 1)).toNat + 1 = r.availableConsume.toNat := by
  have hpos := availableConsume_pos.mp h
  have heq : r.producer - (r.consumer + 1) = r.availableConsume - 1 := by
    rw [availableConsume]
    grind
  have hle : (1 : UInt64) ≤ r.availableConsume := UInt64.le_iff_toNat_le.mpr hpos
  rw [heq, UInt64.toNat_sub_of_le _ _ hle, UInt64.toNat_one, Nat.sub_add_cancel hpos]

variable (r)

/-- `buffer_[producer_ & kMask] = item; ++producer_`. -/
def push (item : α) (h : r.availableProduce > 0) : SimulatedRing α capacity where
  buffer := Function.update r.buffer (capacity.slot r.producer) item
  producer := r.producer + 1
  consumer := r.consumer
  bounded := by
    rw [succ_sub_toNat h]
    exact availableProduce_pos.mp h

/-- `buffer_[consumer_ & kMask]`. -/
def front : α := r.buffer (capacity.slot r.consumer)

/-- `++consumer_`. -/
def pop (h : r.availableConsume > 0) : SimulatedRing α capacity where
  buffer := r.buffer
  producer := r.producer
  consumer := r.consumer + 1
  bounded := by
    have hb := r.bounded
    have hlen := sub_succ_toNat h
    rw [availableConsume] at hlen
    omega

/-- `produce`: the number of items taken, and the ring. -/
def produce (r : SimulatedRing α capacity) : List α → ℕ × SimulatedRing α capacity
  | [] => (0, r)
  | item :: items =>
    if h : r.availableProduce > 0 then
      let (produced, r) := (r.push item h).produce items
      (produced + 1, r)
    else (0, r)

/-- `consume` into a span of the given size: the entries written, and the ring. -/
def consume (r : SimulatedRing α capacity) : ℕ → List α × SimulatedRing α capacity
  | 0 => ([], r)
  | size + 1 =>
    if h : r.availableConsume > 0 then
      let (output, r') := (r.pop h).consume size
      (r.front :: output, r')
    else ([], r)

/-! ### The queue a ring stands for -/

/-- The entries between the consumer and the producer, oldest first. -/
def toList : List α :=
  (List.range r.availableConsume.toNat).map fun k =>
    r.buffer (capacity.slot (r.consumer + UInt64.ofNat k))

@[simp] lemma toList_fresh [Inhabited α] : (fresh : SimulatedRing α capacity).toList = [] := by
  simp [toList, fresh, availableConsume]

@[simp] lemma length_toList : r.toList.length = r.availableConsume.toNat := by
  simp [toList]

lemma length_toList_le : r.toList.length ≤ capacity.toNat := by
  rw [length_toList]
  exact r.bounded

variable {r}

/-- A push appends to the queue: the position written is free. -/
lemma toList_push {item : α} (h : r.availableProduce > 0) :
    (r.push item h).toList = r.toList ++ [item] := by
  have hlt := availableProduce_pos.mp h
  have hcap := capacity.toNat_lt
  have hlen : (r.push item h).availableConsume.toNat = r.availableConsume.toNat + 1 :=
    succ_sub_toNat h
  have hproducer : r.producer = r.consumer + UInt64.ofNat r.availableConsume.toNat := by
    rw [UInt64.ofNat_toNat, availableConsume]
    grind
  rw [toList, hlen, List.range_succ, List.map_append, List.map_singleton]
  congr 1
  · apply List.map_congr_left
    intro k hk
    rw [List.mem_range] at hk
    -- an older entry is less than one rotation away from the position written
    have hne : capacity.slot (r.consumer + UInt64.ofNat k) ≠ capacity.slot r.producer := by
      intro heq
      have hk' : (UInt64.ofNat k).toNat = k := by
        rw [UInt64.toNat_ofNat', Nat.mod_eq_of_lt (by omega)]
      rw [hproducer, UInt64.ofNat_toNat, capacity.slot_add_inj (by omega) hlt] at heq
      rw [heq] at hk'
      exact Nat.ne_of_gt hk hk'
    exact Function.update_of_ne hne _ _
  · simp only [push, ← hproducer, Function.update_self]

/-- The front is the oldest entry, and a pop removes it. -/
lemma toList_pop (h : r.availableConsume > 0) : r.toList = r.front :: (r.pop h).toList := by
  have hlen : r.availableConsume.toNat = (r.pop h).availableConsume.toNat + 1 :=
    (sub_succ_toNat h).symm
  rw [toList, hlen, List.range_succ_eq_map, List.map_cons, List.map_map]
  congr 1
  · simp [front]
  · apply List.map_congr_left
    intro k _
    simp only [Function.comp_apply, pop, Nat.succ_eq_add_one, UInt64.ofNat_add]
    congr 2
    rw [UInt64.add_assoc, UInt64.add_comm (UInt64.ofNat k)]
    rfl

lemma toList_eq_nil (h : ¬ r.availableConsume > 0) : r.toList = [] := by
  rw [availableConsume_pos, Nat.not_lt, Nat.le_zero] at h
  rw [← List.length_eq_zero_iff, length_toList, h]

/-- A ring is full when its queue has reached the capacity. -/
lemma availableProduce_pos_iff : r.availableProduce > 0 ↔ r.toList.length < capacity.toNat := by
  rw [availableProduce_pos, length_toList]

/-- `produce` of one item: appended if there is room, otherwise nothing happens. -/
lemma produce_singleton (r : SimulatedRing α capacity) (item : α) :
    (r.toList.length < capacity.toNat ∧ (r.produce [item]).1 = 1 ∧
      (r.produce [item]).2.toList = r.toList ++ [item]) ∨
    (r.toList.length = capacity.toNat ∧ r.produce [item] = (0, r)) := by
  by_cases h : r.availableProduce > 0
  · refine Or.inl ⟨availableProduce_pos_iff.mp h, ?_⟩
    simp only [produce, dif_pos h, Nat.zero_add, true_and]
    exact toList_push h
  · refine Or.inr ⟨?_, by simp only [produce, dif_neg h]⟩
    rw [availableProduce_pos_iff, Nat.not_lt] at h
    exact Nat.le_antisymm r.length_toList_le h

/-- `produce` appends the first items, as many as there is room for. -/
lemma produce_spec (r : SimulatedRing α capacity) (items : List α) :
    (r.produce items).1 = min items.length (capacity.toNat - r.toList.length) ∧
      (r.produce items).2.toList =
        r.toList ++ items.take (capacity.toNat - r.toList.length) := by
  induction items generalizing r with
  | nil => simp [produce]
  | cons item items ih =>
    by_cases h : r.availableProduce > 0
    · have hroom := availableProduce_pos_iff.mp h
      have hleft : capacity.toNat - r.toList.length =
          (capacity.toNat - (r.push item h).toList.length) + 1 := by
        rw [toList_push, List.length_append, List.length_singleton]
        omega
      obtain ⟨hcount, hqueue⟩ := ih (r.push item h)
      simp only [produce, dif_pos h, hcount, hqueue, hleft, List.length_cons, List.take_succ_cons]
      refine ⟨by omega, ?_⟩
      rw [toList_push, List.append_assoc]
      rfl
    · have hfull : capacity.toNat - r.toList.length = 0 := by
        rw [availableProduce_pos_iff, Nat.not_lt] at h
        exact Nat.sub_eq_zero_of_le h
      rw [hfull, Nat.min_zero, List.take_zero, List.append_nil, produce, dif_neg h]
      exact ⟨rfl, rfl⟩

/-- `consume` removes the oldest entries, as many as fit the span. -/
lemma consume_spec (r : SimulatedRing α capacity) (size : ℕ) :
    (r.consume size).1 = r.toList.take size ∧
      (r.consume size).2.toList = r.toList.drop size := by
  induction size generalizing r with
  | zero => exact ⟨rfl, rfl⟩
  | succ size ih =>
    by_cases h : r.availableConsume > 0
    · obtain ⟨htake, hdrop⟩ := ih (r.pop h)
      simp only [consume, dif_pos h, toList_pop h, List.take_succ_cons, List.drop_succ_cons]
      exact ⟨by rw [htake], hdrop⟩
    · simp [consume, dif_neg h, toList_eq_nil h]

end SimulatedRing

end ChronosX
