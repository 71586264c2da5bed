import ChronosX.Types
import Mathlib.Logic.Function.Basic

/-!
# The timing wheel

`timing_wheel.hpp`: `SlotCount` slots of at most `MaxFramesPerSlot` frames each. A frame
delayed by `k` ticks is stored in the slot its release tick selects, and each tick drains the
slot of the new current tick. A slot is the list of its first `count` frames; the entries past
`count` are never read.
-/

namespace ChronosX

structure DelayedFrame where
  frameAddress : UInt64 := 0
  frameLength : UInt32 := 0
  ruleId : UInt32 := 0
  releaseTick : UInt64 := 0
deriving DecidableEq, Repr

inductive ScheduleStatus where
  | scheduled
  | delayTooLarge
  | slotFull
deriving DecidableEq, Repr

/-- The template arguments of `TimingWheel`, with its `requires` clause. -/
structure WheelShape where
  slotCount : PowerOfTwo
  maxFramesPerSlot : ℕ
  maxFramesPerSlot_pos : 0 < maxFramesPerSlot

/-- `TimingWheel::Slot`. -/
structure Slot (maxFrames : ℕ) where
  frames : List DelayedFrame
  bounded : frames.length ≤ maxFrames

namespace Slot

variable {maxFrames : ℕ}

def count (slot : Slot maxFrames) : ℕ := slot.frames.length

def empty : Slot maxFrames := ⟨[], Nat.zero_le _⟩

/-- `slot.frames[slot.count] = frame; ++slot.count`. -/
def push (slot : Slot maxFrames) (frame : DelayedFrame) (h : slot.count < maxFrames) :
    Slot maxFrames :=
  ⟨slot.frames ++ [frame], by rw [List.length_append]; exact h⟩

end Slot

structure TimingWheel (shape : WheelShape) where
  slots : Fin shape.slotCount.toNat → Slot shape.maxFramesPerSlot
  currentTick : UInt64
  pendingCount : ℕ
  scheduleFailures : UInt64

namespace TimingWheel

variable {shape : WheelShape}

/-- A default-constructed wheel. -/
def fresh : TimingWheel shape := ⟨fun _ => Slot.empty, 0, 0, 0⟩

/-- `slot.frames[slot.count] = frame; ++slot.count; ++pending_count_`. -/
def store (w : TimingWheel shape) (index : Fin shape.slotCount.toNat) (frame : DelayedFrame)
    (h : (w.slots index).count < shape.maxFramesPerSlot) : TimingWheel shape :=
  { w with
    slots := Function.update w.slots index ((w.slots index).push frame h)
    pendingCount := w.pendingCount + 1 }

/-- `TimingWheel::schedule`. -/
def schedule (w : TimingWheel shape) (frame : DelayedFrame) (delayTicks : UInt64) :
    ScheduleStatus × TimingWheel shape :=
  if delayTicks > shape.slotCount.size then
    (.delayTooLarge, { w with scheduleFailures := w.scheduleFailures + 1 })
  else
    let delayTicks := if delayTicks = 0 then 1 else delayTicks
    let frame := { frame with releaseTick := w.currentTick + delayTicks }
    let index := shape.slotCount.slot frame.releaseTick
    if h : (w.slots index).count < shape.maxFramesPerSlot then
      (.scheduled, w.store index frame h)
    else
      (.slotFull, { w with scheduleFailures := w.scheduleFailures + 1 })

/-- The loop variables of `tick`: the expired frames, the frames kept in the slot, and
`pending_count_`. -/
structure Drain where
  expired : List DelayedFrame
  kept : List DelayedFrame
  pendingCount : ℕ

/-- The loop of `tick` over the frames of the current slot. -/
def drainSlot (now : UInt64) : List DelayedFrame → Drain → Drain
  | [], acc => acc
  | frame :: frames, acc =>
    if frame.releaseTick ≤ now then
      drainSlot now frames { acc with
        expired := acc.expired ++ [frame], pendingCount := acc.pendingCount - 1 }
    else
      drainSlot now frames { acc with kept := acc.kept ++ [frame] }

lemma drainSlot_eq (now : UInt64) (frames : List DelayedFrame) (acc : Drain) :
    drainSlot now frames acc =
      ⟨acc.expired ++ frames.filter (·.releaseTick ≤ now),
       acc.kept ++ frames.filter (¬ ·.releaseTick ≤ now),
       acc.pendingCount - (frames.filter (·.releaseTick ≤ now)).length⟩ := by
  induction frames generalizing acc with
  | nil => simp [drainSlot]
  | cons frame frames ih =>
    by_cases h : frame.releaseTick ≤ now
    · simp [drainSlot, h, ih, Nat.sub_sub, Nat.add_comm]
    · simp [drainSlot, h, ih, List.filter_cons]

/-- `TimingWheel::tick`: the expired frames and the wheel after the tick. -/
def tick (w : TimingWheel shape) : List DelayedFrame × TimingWheel shape :=
  let now := w.currentTick + 1
  let index := shape.slotCount.slot now
  let drained := drainSlot now (w.slots index).frames ⟨[], [], w.pendingCount⟩
  have hkept : drained.kept.length ≤ shape.maxFramesPerSlot := by
    rw [show drained = _ from drainSlot_eq _ _ _]
    exact Nat.le_trans (List.length_filter_le _ _) (w.slots index).bounded
  (drained.expired, { w with
    slots := Function.update w.slots index ⟨drained.kept, hkept⟩
    currentTick := now
    pendingCount := drained.pendingCount })

/-! ### What the operations do -/

@[simp] lemma frames_store (w : TimingWheel shape) (index j : Fin shape.slotCount.toNat)
    (frame : DelayedFrame) (h : (w.slots index).count < shape.maxFramesPerSlot) :
    ((w.store index frame h).slots j).frames =
      if j = index then (w.slots index).frames ++ [frame] else (w.slots j).frames := by
  by_cases hj : j = index
  · subst hj
    simp [store, Slot.push]
  · simp [store, hj]

/-- The tick a frame scheduled now with delay `k` is stored under. -/
def releaseTick (w : TimingWheel shape) (k : UInt64) : UInt64 :=
  w.currentTick + if k = 0 then 1 else k

/-- The two outcomes of `schedule`: the frame is stored with its release tick, or only the
failure counter moves. -/
lemma schedule_cases (w : TimingWheel shape) (frame : DelayedFrame) (k : UInt64) :
    (∃ h : (w.slots (shape.slotCount.slot (w.releaseTick k))).count < shape.maxFramesPerSlot,
      k ≤ shape.slotCount.size ∧
      w.schedule frame k = (.scheduled, w.store (shape.slotCount.slot (w.releaseTick k))
        { frame with releaseTick := w.releaseTick k } h)) ∨
    ((k > shape.slotCount.size ∨
        ¬ (w.slots (shape.slotCount.slot (w.releaseTick k))).count < shape.maxFramesPerSlot) ∧
      (w.schedule frame k).1 ≠ .scheduled ∧
      (w.schedule frame k).2 = { w with scheduleFailures := w.scheduleFailures + 1 }) := by
  by_cases hk : k > shape.slotCount.size
  · right
    simp [schedule, hk]
  · by_cases hroom : (w.slots (shape.slotCount.slot (w.releaseTick k))).count <
        shape.maxFramesPerSlot
    · left
      refine ⟨hroom, UInt64.not_lt.mp hk, ?_⟩
      rw [releaseTick] at hroom
      simp only [schedule, if_neg hk, releaseTick, dif_pos hroom]
    · right
      refine ⟨Or.inr hroom, ?_⟩
      rw [releaseTick] at hroom
      simp [schedule, if_neg hk, dif_neg hroom]

/-- A delay of more than `SlotCount` ticks is refused whatever the wheel holds. -/
lemma schedule_of_gt (w : TimingWheel shape) (frame : DelayedFrame) {k : UInt64}
    (hk : k > shape.slotCount.size) :
    w.schedule frame k = (.delayTooLarge, { w with scheduleFailures := w.scheduleFailures + 1 }) :=
  if_pos hk

/-- Any other delay is refused only when the slot is full. -/
lemma schedule_of_le (w : TimingWheel shape) (frame : DelayedFrame) {k : UInt64}
    (hk : ¬ k > shape.slotCount.size) :
    (∃ h : (w.slots (shape.slotCount.slot (w.releaseTick k))).count < shape.maxFramesPerSlot,
      w.schedule frame k = (.scheduled, w.store (shape.slotCount.slot (w.releaseTick k))
        { frame with releaseTick := w.releaseTick k } h)) ∨
    (¬ (w.slots (shape.slotCount.slot (w.releaseTick k))).count < shape.maxFramesPerSlot ∧
      (w.schedule frame k).1 = .slotFull) := by
  simp only [schedule, if_neg hk, releaseTick]
  by_cases hroom : (w.slots (shape.slotCount.slot (w.currentTick + if k = 0 then 1 else k))).count <
      shape.maxFramesPerSlot
  · exact Or.inl ⟨hroom, by rw [dif_pos hroom]⟩
  · exact Or.inr ⟨hroom, by rw [dif_neg hroom]⟩

/-- A refused frame changes the failure counter and nothing else. -/
lemma schedule_refused {w : TimingWheel shape} {frame : DelayedFrame} {k : UInt64}
    (h : (w.schedule frame k).1 ≠ .scheduled) :
    (w.schedule frame k).2 = { w with scheduleFailures := w.scheduleFailures + 1 } := by
  rcases schedule_cases w frame k with ⟨_, _, heq⟩ | ⟨_, _, heq⟩
  · simp [heq] at h
  · exact heq

lemma tick_fst (w : TimingWheel shape) :
    w.tick.1 = (w.slots (shape.slotCount.slot (w.currentTick + 1))).frames.filter
      (·.releaseTick ≤ w.currentTick + 1) := by
  simp only [tick, drainSlot_eq, List.nil_append]

lemma frames_tick (w : TimingWheel shape) (j : Fin shape.slotCount.toNat) :
    (w.tick.2.slots j).frames =
      if j = shape.slotCount.slot (w.currentTick + 1) then
        (w.slots j).frames.filter (¬ ·.releaseTick ≤ w.currentTick + 1)
      else (w.slots j).frames := by
  simp only [tick, drainSlot_eq, List.nil_append]
  split_ifs with hj
  · subst hj
    rw [Function.update_self]
  · rw [Function.update_of_ne hj]

lemma pendingCount_tick (w : TimingWheel shape) :
    w.tick.2.pendingCount = w.pendingCount - w.tick.1.length := by
  simp only [tick, drainSlot_eq, List.nil_append]

end TimingWheel

end ChronosX
