import ChronosX.Wheel.Basic
import Mathlib.Algebra.BigOperators.Group.Multiset.Basic
import Mathlib.Algebra.BigOperators.Ring.Finset

/-!
# The frames in the wheel

The frames that wait in the wheel, whatever their slot: a tick takes the expired frames out, and
accepting frames adds them.
-/

namespace ChronosX

namespace TimingWheel

variable {shape : WheelShape} {w w' : TimingWheel shape}

/-- The frames that wait in the wheel. -/
def pending (w : TimingWheel shape) : Multiset DelayedFrame :=
  ∑ j, ((w.slots j).frames : Multiset DelayedFrame)

/-- The wheel has accepted the frames, in order, and is otherwise as before. -/
def Accepted (w w' : TimingWheel shape) (frames : List DelayedFrame) : Prop :=
  ∀ j, (w'.slots j).frames =
    (w.slots j).frames ++ frames.filter (shape.slotCount.slot ·.releaseTick = j)

/-- Storing a frame in the slot of its release tick accepts it. -/
lemma accepted_store (w : TimingWheel shape) (frame : DelayedFrame)
    (h : (w.slots (shape.slotCount.slot frame.releaseTick)).count < shape.maxFramesPerSlot) :
    w.Accepted (w.store (shape.slotCount.slot frame.releaseTick) frame h) [frame] := by
  intro j
  rw [frames_store, List.filter_singleton]
  by_cases hj : j = shape.slotCount.slot frame.releaseTick
  · simp [hj]
  · have hj' : ¬ shape.slotCount.slot frame.releaseTick = j := fun h => hj h.symm
    simp [hj, hj']

/-- The slots have room for the frames. -/
def Fits (w : TimingWheel shape) (frames : List DelayedFrame) : Prop :=
  ∀ j, (w.slots j).count + (frames.filter (shape.slotCount.slot ·.releaseTick = j)).length ≤
    shape.maxFramesPerSlot

lemma fits_nil (w : TimingWheel shape) : w.Fits [] := fun j => (w.slots j).bounded

/-- Once some frames have been accepted, there is room left for what would have fitted as well. -/
lemma Accepted.fits_iff {frames : List DelayedFrame} (h : Accepted w w' frames)
    (rest : List DelayedFrame) : w'.Fits rest ↔ w.Fits (frames ++ rest) := by
  apply forall_congr'
  intro j
  rw [Slot.count, h j, List.length_append, List.filter_append, List.length_append, Slot.count,
    Nat.add_assoc]

lemma Fits.perm {frames frames' : List DelayedFrame} (h : w.Fits frames)
    (hperm : frames.Perm frames') : w.Fits frames' := by
  intro j
  rw [← (hperm.filter _).length_eq]
  exact h j

@[simp] lemma pending_fresh : (fresh : TimingWheel shape).pending = 0 := by
  simp [pending, fresh, Slot.empty]

/-- A tick hands out the expired frames and keeps the others. -/
lemma pending_tick (w : TimingWheel shape) : w.pending = w.tick.1 + w.tick.2.pending := by
  have hslot : ∀ j, ((w.slots j).frames : Multiset DelayedFrame) =
      (if j = shape.slotCount.slot (w.currentTick + 1) then (w.tick.1 : Multiset DelayedFrame)
        else 0) + (w.tick.2.slots j).frames := by
    intro j
    rw [frames_tick, tick_fst]
    split_ifs with hj
    · subst hj
      rw [Multiset.coe_add, Multiset.coe_eq_coe]
      simp only [decide_not]
      exact (List.filter_append_perm _ _).symm
    · rw [zero_add]
  rw [pending, Finset.sum_congr rfl fun j _ => hslot j, Finset.sum_add_distrib,
    Finset.sum_ite_eq' Finset.univ, if_pos (Finset.mem_univ _)]
  rfl

lemma sum_filter_eq {ι : Type} [Fintype ι] [DecidableEq ι] {α : Type} (f : α → ι) (l : List α) :
    ∑ j, ((l.filter (f · = j) : List α) : Multiset α) = l := by
  induction l with
  | nil => simp
  | cons a l ih =>
    have hcons : ∀ j, (((a :: l).filter (f · = j) : List α) : Multiset α) =
        (if f a = j then {a} else 0) + ((l.filter (f · = j) : List α) : Multiset α) := by
      intro j
      by_cases hj : f a = j
      · simp [hj]
      · simp [hj]
    rw [Finset.sum_congr rfl fun j _ => hcons j, Finset.sum_add_distrib, ih,
      Finset.sum_ite_eq Finset.univ, if_pos (Finset.mem_univ _)]
    exact Multiset.singleton_add a l

lemma Accepted.pending {frames : List DelayedFrame} (h : Accepted w w' frames) :
    w'.pending = w.pending + frames := by
  rw [TimingWheel.pending, TimingWheel.pending]
  conv_rhs => rw [← sum_filter_eq (fun f : DelayedFrame => shape.slotCount.slot f.releaseTick) frames]
  rw [← Finset.sum_add_distrib]
  refine Finset.sum_congr rfl fun j _ => ?_
  rw [h j, Multiset.coe_add]

end TimingWheel

end ChronosX
