import ChronosX.Wheel.Basic
import ChronosX.Library.DelayQueue
import Mathlib.Data.List.Induction

/-!
# The timing wheel refines an exact delay queue

A wheel is run beside a `DelayQueue` that is told of every acceptance and every tick. The
relation `Tracks` says what the slots hold: the pending items whose due tick falls in the
slot's residue class, stamped with their due tick modulo `2 ^ 64`. Since no delay exceeds one
rotation, that is a single due tick per slot, also for the slot that has just been drained,
and the wrap of `current_tick_` is invisible because the slot count divides `2 ^ 64`.
-/

namespace ChronosX

namespace TimingWheel

variable {shape : WheelShape}

/-- The frame as the wheel stores it: due at tick `t`. -/
def stamp (frame : DelayedFrame) (t : ℕ) : DelayedFrame :=
  { frame with releaseTick := UInt64.ofNat t }

/-- The wheel holds the pending items of the queue. -/
structure Tracks (w : TimingWheel shape) (q : DelayQueue DelayedFrame) : Prop where
  tick_eq : w.currentTick = UInt64.ofNat q.now
  within : q.Within shape.slotCount.toNat
  slots_eq : ∀ j, (w.slots j).frames =
    (q.pending.filter (·.2 % shape.slotCount.toNat = j.val)).map fun e => stamp e.1 e.2
  count_eq : w.pendingCount = q.pending.length

variable {w : TimingWheel shape} {q : DelayQueue DelayedFrame}

lemma tracks_fresh : Tracks (fresh : TimingWheel shape) .empty := by
  refine ⟨rfl, DelayQueue.within_empty _, fun j => ?_, rfl⟩
  simp [fresh, Slot.empty, DelayQueue.pending, DelayQueue.empty]

/-- The slot selected by a counter that stands for tick `t`. -/
lemma slot_ofNat_val (p : PowerOfTwo) (t : ℕ) : (p.slot (UInt64.ofNat t)).val = t % p.toNat := by
  rw [p.slot_val, UInt64.toNat_ofNat', Nat.mod_mod_of_dvd _ p.dvd_two_pow]

/-- The slot of a tick within the next rotation holds the items due at that tick. -/
lemma Tracks.slot_frames (h : Tracks w q) {t : ℕ} (hlt : q.now < t)
    (hle : t ≤ q.now + shape.slotCount.toNat) :
    (w.slots (shape.slotCount.slot (UInt64.ofNat t))).frames = (q.dueAt t).map (stamp · t) := by
  rw [h.slots_eq, slot_ofNat_val, DelayQueue.filter_residue h.within hlt hle,
    DelayQueue.pending_filter_eq hlt, DelayQueue.dueAt, List.map_map]
  apply List.map_congr_left
  intro e he
  have : e.2 = t := by simpa using (List.mem_filter.mp he).2
  simp [this]

/-! ### Scheduling -/

/-- `if (delay_ticks == 0) delay_ticks = 1` computes `max 1`. -/
lemma toNat_delay (k : UInt64) : (if k = 0 then 1 else k).toNat = max 1 k.toNat := by
  split_ifs with h
  · subst h; rfl
  · have : k.toNat ≠ 0 := fun h0 => h (UInt64.toNat_inj.mp (by simpa using h0))
    omega

/-- The release tick stored for a delay of `k`. -/
lemma Tracks.releaseTick_eq (h : Tracks w q) (k : UInt64) :
    w.releaseTick k = UInt64.ofNat (q.now + max 1 k.toNat) := by
  apply UInt64.toNat_inj.mp
  rw [releaseTick, UInt64.toNat_add, toNat_delay, h.tick_eq, UInt64.toNat_ofNat',
    UInt64.toNat_ofNat', Nat.mod_add_mod]

/-- The frames that share the due tick of a delay within one rotation. -/
lemma Tracks.count_slot (h : Tracks w q) {k : UInt64} (hk : k ≤ shape.slotCount.size) :
    (w.slots (shape.slotCount.slot (w.releaseTick k))).count =
      (q.dueAt (q.now + max 1 k.toNat)).length := by
  have hpos := shape.slotCount.toNat_pos
  have hk' : k.toNat ≤ shape.slotCount.toNat := UInt64.le_iff_toNat_le.mp hk
  rw [h.releaseTick_eq, Slot.count, h.slot_frames (by omega) (by omega), List.length_map]

/-- `schedule` accepts exactly the delays of at most one rotation for which the due tick is
not fully booked. -/
lemma Tracks.schedule_iff (h : Tracks w q) (frame : DelayedFrame) (k : UInt64) :
    (w.schedule frame k).1 = .scheduled ↔ k.toNat ≤ shape.slotCount.toNat ∧
      (q.dueAt (q.now + max 1 k.toNat)).length < shape.maxFramesPerSlot := by
  rcases schedule_cases w frame k with ⟨hroom, hk, heq⟩ | ⟨hwhy, hne, -⟩
  · rw [h.count_slot hk] at hroom
    simp only [heq, true_iff]
    exact ⟨UInt64.le_iff_toNat_le.mp hk, hroom⟩
  · simp only [hne, false_iff, not_and]
    intro hk
    have hk' : k ≤ shape.slotCount.size := UInt64.le_iff_toNat_le.mpr hk
    rcases hwhy with hwhy | hwhy
    · exact absurd hk' (UInt64.not_le.mpr hwhy)
    · rwa [h.count_slot hk'] at hwhy

/-- An accepted frame is the last item of the queue. -/
lemma Tracks.schedule (h : Tracks w q) (frame : DelayedFrame) (k : UInt64)
    (hs : (w.schedule frame k).1 = .scheduled) :
    Tracks (w.schedule frame k).2 (q.accept frame k.toNat) := by
  rcases schedule_cases w frame k with ⟨hroom, hk, heq⟩ | ⟨-, hne, -⟩
  · rw [heq]
    have hrelease := h.releaseTick_eq k
    refine ⟨h.tick_eq, h.within.accept frame shape.slotCount.toNat_pos
      (UInt64.le_iff_toNat_le.mp hk), fun j => ?_, ?_⟩
    · have hval : (shape.slotCount.slot (w.releaseTick k)).val =
          (q.now + max 1 k.toNat) % shape.slotCount.toNat := by
        rw [hrelease, slot_ofNat_val]
      rw [frames_store, DelayQueue.pending_accept, List.filter_append, List.map_append,
        ← h.slots_eq j, List.filter_singleton]
      by_cases hj : j = shape.slotCount.slot (w.releaseTick k)
      · rw [if_pos hj, hj, hval]
        simp [stamp, hrelease]
      · have hne : ¬ (q.now + max 1 k.toNat) % shape.slotCount.toNat = j.val := by
          intro hmod
          apply hj
          apply Fin.ext
          rw [hval, hmod]
        rw [if_neg hj]
        simp [hne]
    · rw [DelayQueue.pending_accept, List.length_append, ← h.count_eq]
      rfl
  · exact absurd hs hne

/-! ### Ticking -/

lemma Tracks.succ_tick_eq (h : Tracks w q) : w.currentTick + 1 = UInt64.ofNat (q.now + 1) := by
  rw [h.tick_eq, UInt64.ofNat_add]
  rfl

/-- The slot a tick drains holds the items due at it, all of them expired. -/
lemma Tracks.drained_frames (h : Tracks w q) :
    (w.slots (shape.slotCount.slot (w.currentTick + 1))).frames =
      (q.dueAt (q.now + 1)).map (stamp · (q.now + 1)) ∧
    ∀ frame ∈ (w.slots (shape.slotCount.slot (w.currentTick + 1))).frames,
      frame.releaseTick ≤ w.currentTick + 1 := by
  have hpos := shape.slotCount.toNat_pos
  have hslot := h.slot_frames (t := q.now + 1) (by omega) (by omega)
  rw [h.succ_tick_eq]
  refine ⟨hslot, fun frame hframe => ?_⟩
  rw [hslot] at hframe
  obtain ⟨e, -, rfl⟩ := List.mem_map.mp hframe
  simp [stamp]

/-- A tick hands out the items due at it. -/
lemma Tracks.tick_returned (h : Tracks w q) :
    w.tick.1 = (q.dueAt (q.now + 1)).map (stamp · (q.now + 1)) := by
  obtain ⟨hslot, hexpired⟩ := h.drained_frames
  rw [tick_fst, ← hslot]
  apply List.filter_eq_self.mpr
  intro frame hframe
  simpa using hexpired frame hframe

/-- After a tick the wheel tracks the advanced queue. -/
lemma Tracks.tick (h : Tracks w q) : Tracks w.tick.2 q.advance := by
  have hpos := shape.slotCount.toNat_pos
  obtain ⟨-, hexpired⟩ := h.drained_frames
  have hval : (shape.slotCount.slot (w.currentTick + 1)).val =
      (q.now + 1) % shape.slotCount.toNat := by
    rw [h.succ_tick_eq, slot_ofNat_val]
  refine ⟨h.succ_tick_eq, h.within.advance, fun j => ?_, ?_⟩
  · rw [frames_tick, DelayQueue.pending_advance, List.filter_filter]
    by_cases hj : j = shape.slotCount.slot (w.currentTick + 1)
    · -- the drained slot: its next due tick is a whole rotation away, where nothing is booked
      have hkept : (w.slots j).frames.filter (¬ ·.releaseTick ≤ w.currentTick + 1) = [] := by
        rw [List.filter_eq_nil_iff]
        intro frame hframe
        simpa using hexpired frame (hj ▸ hframe)
      rw [if_pos hj, hkept, eq_comm, List.map_eq_nil_iff, List.filter_eq_nil_iff]
      intro e he hboth
      simp only [Bool.and_eq_true, decide_eq_true_eq, hj, hval] at hboth
      have hmem : e ∈ q.pending.filter (·.2 % shape.slotCount.toNat =
          (q.now + 1) % shape.slotCount.toNat) :=
        List.mem_filter.mpr ⟨he, by simpa using hboth.1⟩
      rw [DelayQueue.filter_residue h.within (Nat.lt_succ_self _) (by omega),
        List.mem_filter] at hmem
      have heq : e.2 = q.now + 1 := by simpa using hmem.2
      omega
    · rw [if_neg hj, h.slots_eq j]
      congr 1
      apply List.filter_congr
      intro e he
      simp only [DelayQueue.pending, List.mem_filter, decide_eq_true_eq] at he
      by_cases hmod : e.2 % shape.slotCount.toNat = j.val
      · have hlater : q.now + 1 < e.2 := by
          rcases Nat.lt_or_ge (q.now + 1) e.2 with hlt | hge
          · exact hlt
          · exfalso
            apply hj
            apply Fin.ext
            rw [hval, ← hmod, show e.2 = q.now + 1 by omega]
        simp [hmod, hlater]
      · simp [hmod]
  · have hlen := DelayQueue.length_pending_advance (q := q)
    rw [pendingCount_tick, h.tick_returned, List.length_map, h.count_eq]
    omega

/-! ### Whole runs -/

/-- A call made on a wheel. -/
inductive Op where
  | schedule (frame : DelayedFrame) (delayTicks : UInt64)
  | tick

/-- A wheel with the record of its run: the queue of everything it accepted, and what each
tick returned, in order. -/
structure Recorded (shape : WheelShape) where
  wheel : TimingWheel shape
  queue : DelayQueue DelayedFrame
  returned : List (List DelayedFrame)

def Recorded.step (r : Recorded shape) : Op → Recorded shape
  | .schedule frame k =>
    { r with
      wheel := (r.wheel.schedule frame k).2
      queue := if (r.wheel.schedule frame k).1 = .scheduled then r.queue.accept frame k.toNat
        else r.queue }
  | .tick =>
    { wheel := r.wheel.tick.2, queue := r.queue.advance, returned := r.returned ++ [r.wheel.tick.1] }

/-- The calls made, in order, on a fresh wheel. -/
def record (shape : WheelShape) (ops : List Op) : Recorded shape :=
  ops.foldl Recorded.step ⟨fresh, .empty, []⟩

/-- The number of frames returned so far. -/
def Recorded.returnedCount (r : Recorded shape) : ℕ := (r.returned.map List.length).sum

/-- The wheel tracks its queue, each tick so far returned the items due at it, and every item
accepted is pending or has been returned. -/
structure Recorded.Exact (r : Recorded shape) : Prop where
  tracks : Tracks r.wheel r.queue
  returned_eq : r.returned = (List.range r.queue.now).map fun t =>
    (r.queue.dueAt (t + 1)).map (stamp · (t + 1))
  balance : r.queue.pending.length + r.returnedCount = r.queue.accepted.length

lemma Recorded.Exact.schedule {r : Recorded shape} (h : r.Exact) (frame : DelayedFrame)
    (k : UInt64) : (r.step (.schedule frame k)).Exact := by
  by_cases hs : (r.wheel.schedule frame k).1 = .scheduled
  · simp only [Recorded.step, if_pos hs]
    refine ⟨h.tracks.schedule frame k hs, ?_, ?_⟩
    · -- the new item is due after now, so the ticks so far are not concerned
      refine h.returned_eq.trans (List.map_congr_left fun t ht => ?_)
      rw [List.mem_range] at ht
      have hne : ¬ r.queue.now + max 1 k.toNat = t + 1 := by omega
      simp [DelayQueue.dueAt, DelayQueue.accept, List.filter_append, hne]
    · have hbal := h.balance
      simp only [DelayQueue.pending_accept, List.length_append, List.length_singleton,
        Recorded.returnedCount] at hbal ⊢
      simp only [DelayQueue.accept, List.length_append, List.length_singleton]
      omega
  · simp only [Recorded.step, if_neg hs, schedule_refused hs]
    exact ⟨⟨h.tracks.tick_eq, h.tracks.within, h.tracks.slots_eq, h.tracks.count_eq⟩,
      h.returned_eq, h.balance⟩

lemma Recorded.Exact.tick {r : Recorded shape} (h : r.Exact) : (r.step .tick).Exact := by
  refine ⟨h.tracks.tick, ?_, ?_⟩
  · simp only [Recorded.step, DelayQueue.now_advance, List.range_succ, List.map_append,
      List.map_cons, List.map_nil, h.tracks.tick_returned]
    rw [h.returned_eq]
    rfl
  · have hbal := h.balance
    have hlen := DelayQueue.length_pending_advance (q := r.queue)
    simp only [Recorded.step, Recorded.returnedCount, List.map_append, List.sum_append,
      h.tracks.tick_returned, List.map_cons, List.map_nil, List.sum_singleton, List.length_map,
      DelayQueue.accepted_advance] at hbal ⊢
    omega

lemma exact_record (shape : WheelShape) (ops : List Op) : (record shape ops).Exact := by
  induction ops using List.reverseRecOn with
  | nil => exact ⟨tracks_fresh, rfl, rfl⟩
  | append_singleton ops op ih =>
    rw [record, List.foldl_append]
    cases op with
    | schedule frame k => exact ih.schedule frame k
    | tick => exact ih.tick

lemma record_append (shape : WheelShape) (ops later : List Op) :
    record shape (ops ++ later) = later.foldl Recorded.step (record shape ops) :=
  List.foldl_append

/-- Calls add to the accepted frames at the end only. -/
lemma accepted_isPrefix_foldl (r : Recorded shape) (ops : List Op) :
    r.queue.accepted <+: (ops.foldl Recorded.step r).queue.accepted := by
  induction ops generalizing r with
  | nil => exact List.prefix_rfl
  | cons op ops ih =>
    refine List.IsPrefix.trans ?_ (ih (r.step op))
    cases op with
    | schedule frame k =>
      dsimp only [Recorded.step]
      split_ifs
      · exact List.prefix_append _ _
      · exact List.prefix_rfl
    | tick => exact List.prefix_rfl

/-- The timing wheel is an exact delay queue. After any calls on a fresh wheel, the `t`-th tick
has returned, in order of acceptance and unchanged, the frames accepted `max 1 k` ticks
earlier with delay `k`, and no others; the next `schedule` is refused exactly for a delay
beyond one rotation or a fully booked tick, and a refusal changes the failure counter only;
and `pending_count()` is the number accepted minus the number returned. -/
theorem record_exact (shape : WheelShape) (ops : List Op) (frame : DelayedFrame) (k : UInt64) :
    (record shape ops).returned = (List.range (record shape ops).queue.now).map (fun t =>
      ((record shape ops).queue.dueAt (t + 1)).map (stamp · (t + 1))) ∧
    (((record shape ops).wheel.schedule frame k).1 ≠ .scheduled ↔
      k.toNat > shape.slotCount.toNat ∨ shape.maxFramesPerSlot ≤
        ((record shape ops).queue.pending.filter
          (·.2 = (record shape ops).queue.now + max 1 k.toNat)).length) ∧
    (((record shape ops).wheel.schedule frame k).1 ≠ .scheduled →
      ((record shape ops).wheel.schedule frame k).2 =
        { (record shape ops).wheel with
          scheduleFailures := (record shape ops).wheel.scheduleFailures + 1 }) ∧
    (record shape ops).wheel.pendingCount =
      (record shape ops).queue.accepted.length - (record shape ops).returnedCount := by
  have h := exact_record shape ops
  refine ⟨h.returned_eq, ?_, schedule_refused, ?_⟩
  · rw [ne_eq, h.tracks.schedule_iff, not_and_or, not_le, not_lt,
      DelayQueue.length_dueAt (by omega)]
  · have hbal := h.balance
    rw [h.tracks.count_eq]
    omega

end TimingWheel

end ChronosX
