import ChronosX.Spsc.Basic
import ChronosX.Library.RingLog
import Mathlib.Data.List.Induction

/-!
# The queue is a bounded FIFO

With `m` values pushed and `n` popped so far, the indices are `m` and `n` ahead of where they
started, also when they wrap. What a thread has loaded of the other side's index may be old, but it
errs on the safe side: the producer sees at least the elements that are stored, the consumer at
most these. So the position the producer writes is free and the position the consumer reads holds
the next value, whatever the schedule.
-/

namespace ChronosX

namespace SPSCQueue

open RingLog

variable {T : Type} {capacity : PowerOfTwo}

/-! ### Indices -/

/-- The index of a side after `n` operations. -/
def indexAfter (index : UInt64) (n : ℕ) : UInt64 := index + UInt64.ofNat n

lemma indexAfter_succ (index : UInt64) (n : ℕ) :
    indexAfter index n + 1 = indexAfter index (n + 1) := by
  rw [indexAfter, indexAfter, UInt64.ofNat_add, UInt64.add_assoc]
  rfl

/-- The distance of the indices is the number of elements in between. -/
lemma indexAfter_sub (index : UInt64) {m n : ℕ} (hle : n ≤ m) (hlt : m - n < 2 ^ 64) :
    (indexAfter index m - indexAfter index n).toNat = m - n := by
  obtain ⟨d, rfl⟩ := Nat.exists_eq_add_of_le hle
  rw [Nat.add_sub_cancel_left] at hlt ⊢
  have heq : indexAfter index (n + d) - indexAfter index n = UInt64.ofNat d := by
    rw [indexAfter, indexAfter, UInt64.ofNat_add]
    grind
  rw [heq, UInt64.toNat_ofNat_of_lt' hlt]

/-- The check of `try_pop`. -/
lemma head_eq_tail_iff (q : SPSCQueue T capacity) : q.head = q.tail ↔ q.size = 0 := by
  rw [size, ← UInt64.toNat_zero, UInt64.toNat_inj]
  constructor
  · intro heq
    rw [heq, UInt64.sub_self]
  · intro hzero
    rw [← UInt64.add_zero q.head, ← hzero]
    grind

/-- Positions repeat after one capacity at the earliest. -/
lemma slot_apart (capacity : PowerOfTwo) (index : UInt64) :
    Apart (fun n => capacity.slot (indexAfter index n)) capacity.toNat := by
  intro j k hjk hk heq
  have hdistance : (UInt64.ofNat (k - j)).toNat = k - j := by
    have hlt : k - j < 2 ^ 64 := lt_trans (by omega) capacity.toNat_lt
    exact UInt64.toNat_ofNat_of_lt' hlt
  have hzero : (0 : UInt64).toNat < capacity.toNat := capacity.toNat_pos
  have hshift : indexAfter index k = indexAfter index j + UInt64.ofNat (k - j) := by
    rw [indexAfter, indexAfter, UInt64.add_assoc, ← UInt64.ofNat_add, Nat.add_sub_cancel' hjk.le]
  have hslots : capacity.slot (indexAfter index j + 0) =
      capacity.slot (indexAfter index j + UInt64.ofNat (k - j)) := by
    rw [UInt64.add_zero, ← hshift]
    exact heq
  rw [capacity.slot_add_inj hzero (by rw [hdistance]; omega)] at hslots
  have hnat := congrArg UInt64.toNat hslots
  rw [hdistance, UInt64.toNat_zero] at hnat
  omega

namespace Threads

/-! ### The invariant -/

/-- What the producer relies on: its index is the current one, and after the check there is a free
position, to which it has written the item before it stores the index. -/
def ProducerHolds (s : Threads T capacity) : Prop :=
  match s.producer with
  | .idle => True
  | .loaded _ tail => tail = s.queue.tail
  | .writing _ tail =>
    tail = s.queue.tail ∧ s.pushed.length < s.popped.length + capacity.toNat
  | .storing item tail =>
    tail = s.queue.tail ∧ s.pushed.length < s.popped.length + capacity.toNat ∧
      s.queue.buffer (capacity.slot tail) = item

/-- What the consumer relies on: its index is the current one, and after the check there is a next
value, which it has read before it stores the index. -/
def ConsumerHolds (s : Threads T capacity) : Prop :=
  match s.consumer with
  | .idle => True
  | .loaded head => head = s.queue.head
  | .reading head => head = s.queue.head ∧ s.popped.length < s.pushed.length
  | .storing head item => head = s.queue.head ∧ s.pushed[s.popped.length]? = some item

/-- The state after some schedule, on indices that started at `index`. -/
structure Holds (index : UInt64) (s : Threads T capacity) : Prop where
  head_eq : s.queue.head = indexAfter index s.popped.length
  tail_eq : s.queue.tail = indexAfter index s.pushed.length
  popped_front : s.popped <+: s.pushed
  bounded : s.pushed.length ≤ s.popped.length + capacity.toNat
  retains : Retains (fun n => capacity.slot (indexAfter index n)) s.queue.buffer s.pushed
    s.popped.length
  producer : s.ProducerHolds
  consumer : s.ConsumerHolds
  refused : ∀ n ∈ s.refusedAt, n = capacity.toNat
  empty : ∀ n ∈ s.emptyAt, n = 0

variable {index : UInt64} {s : Threads T capacity}

/-- The size of the queue is the number of values pushed and not popped. -/
lemma Holds.size_eq (h : s.Holds index) : s.queue.size = s.pushed.length - s.popped.length := by
  have hcapacity := capacity.toNat_lt
  have hbounded := h.bounded
  rw [size, h.head_eq, h.tail_eq, indexAfter_sub index h.popped_front.length_le (by omega)]

/-- The check of `try_push`. -/
lemma Holds.full_iff (h : s.Holds index) :
    s.queue.tail - s.queue.head ≥ capacity.size ↔ s.queue.size = capacity.toNat := by
  have hsize := h.size_eq
  have hbounded := h.bounded
  rw [ge_iff_le, UInt64.le_iff_toNat_le]
  constructor
  · intro hle
    have hle' : capacity.toNat ≤ s.queue.size := hle
    omega
  · intro heq
    exact heq.ge

/-! ### Turns -/

/-- A new value does not disturb the consumer. -/
lemma ConsumerHolds.push (h : s.ConsumerHolds) (queue : SPSCQueue T capacity)
    (hhead : queue.head = s.queue.head) (producer : Producer T) (item : T) :
    ConsumerHolds { s with queue, producer, pushed := s.pushed ++ [item] } := by
  unfold ConsumerHolds at h ⊢
  dsimp only
  cases hconsumer : s.consumer with
  | idle => trivial
  | loaded head =>
    rw [hconsumer] at h
    rw [hhead]
    exact h
  | reading head =>
    rw [hconsumer] at h
    rw [hhead, List.length_append]
    exact ⟨h.1, h.2.trans_le (Nat.le_add_right _ _)⟩
  | storing head value =>
    rw [hconsumer] at h
    have hlt := (List.getElem?_eq_some_iff.mp h.2).1
    rw [hhead, List.getElem?_append_left hlt]
    exact h

/-- A value that is taken does not disturb the producer. -/
lemma ProducerHolds.pop (h : s.ProducerHolds) (head : UInt64) (consumer : Consumer T) (item : T) :
    ProducerHolds { s with
      queue := { s.queue with head }, consumer, popped := s.popped ++ [item] } := by
  unfold ProducerHolds at h ⊢
  dsimp only
  have hgrows : s.popped.length ≤ (s.popped ++ [item]).length := by
    rw [List.length_append]
    exact Nat.le_add_right _ _
  cases hproducer : s.producer with
  | idle => trivial
  | loaded value tail =>
    rw [hproducer] at h
    exact h
  | writing value tail =>
    rw [hproducer] at h
    exact ⟨h.1, h.2.trans_le (Nat.add_le_add_right hgrows _)⟩
  | storing value tail =>
    rw [hproducer] at h
    exact ⟨h.1, h.2.1.trans_le (Nat.add_le_add_right hgrows _), h.2.2⟩

lemma Holds.producerTurn (h : s.Holds index) : s.producerTurn.Holds index := by
  have hsize := h.size_eq
  have hfull_iff := h.full_iff
  obtain ⟨hhead, htail, hfront, hbounded, hretains, hproducer, hconsumer, hrefused, hempty⟩ := h
  have hle := hfront.length_le
  unfold Threads.producerTurn
  cases hphase : s.producer with
  | idle =>
    cases hcalls : s.calls with
    | nil =>
      exact ⟨hhead, htail, hfront, hbounded, hretains, hproducer, hconsumer, hrefused, hempty⟩
    | cons item calls =>
      exact ⟨hhead, htail, hfront, hbounded, hretains, rfl, hconsumer, hrefused, hempty⟩
  | loaded item tail =>
    rw [ProducerHolds, hphase] at hproducer
    subst hproducer
    dsimp only
    split_ifs with hfull
    · refine ⟨hhead, htail, hfront, hbounded, hretains, trivial, hconsumer, ?_, hempty⟩
      intro n hn
      rcases List.mem_append.mp hn with hn | hn
      · exact hrefused n hn
      · rw [List.mem_singleton.mp hn]
        exact hfull_iff.mp hfull
    · rw [hfull_iff] at hfull
      refine ⟨hhead, htail, hfront, hbounded, hretains, ⟨rfl, ?_⟩, hconsumer, hrefused, hempty⟩
      dsimp only
      omega
  | writing item tail =>
    rw [ProducerHolds, hphase] at hproducer
    obtain ⟨rfl, hroom⟩ := hproducer
    have hwritten := hretains.write (slot_apart capacity index) hroom item
    dsimp only at hwritten ⊢
    rw [← htail] at hwritten
    exact ⟨hhead, htail, hfront, hbounded, hwritten, ⟨rfl, hroom, Function.update_self _ _ _⟩,
      hconsumer, hrefused, hempty⟩
  | storing item tail =>
    rw [ProducerHolds, hphase] at hproducer
    obtain ⟨rfl, hroom, hitem⟩ := hproducer
    rw [htail] at hitem
    refine ⟨hhead, ?_, hfront.trans (List.prefix_append _ _), ?_, hretains.append hitem, trivial,
      hconsumer.push _ rfl .idle item, hrefused, hempty⟩
    · dsimp only
      rw [htail, indexAfter_succ, List.length_append]
      rfl
    · dsimp only
      rw [List.length_append]
      exact hroom

/-- A front of the log is extended by the next entry. -/
lemma front_append_getElem? {popped pushed : List T} {item : T} (hfront : popped <+: pushed)
    (hitem : pushed[popped.length]? = some item) : popped ++ [item] <+: pushed := by
  obtain ⟨rest, rfl⟩ := hfront
  rw [List.getElem?_append_right (Nat.le_refl _), Nat.sub_self] at hitem
  cases rest with
  | nil => cases hitem
  | cons next rest =>
    cases hitem
    exact ⟨rest, by rw [List.append_assoc]; rfl⟩

lemma Holds.consumerTurn (h : s.Holds index) : s.consumerTurn.Holds index := by
  have hsize := h.size_eq
  obtain ⟨hhead, htail, hfront, hbounded, hretains, hproducer, hconsumer, hrefused, hempty⟩ := h
  have hle := hfront.length_le
  unfold Threads.consumerTurn
  cases hphase : s.consumer with
  | idle => exact ⟨hhead, htail, hfront, hbounded, hretains, hproducer, rfl, hrefused, hempty⟩
  | loaded head =>
    rw [ConsumerHolds, hphase] at hconsumer
    subst hconsumer
    dsimp only
    split_ifs with hnone
    · refine ⟨hhead, htail, hfront, hbounded, hretains, hproducer, trivial, hrefused, ?_⟩
      intro n hn
      rcases List.mem_append.mp hn with hn | hn
      · exact hempty n hn
      · rw [List.mem_singleton.mp hn]
        exact s.queue.head_eq_tail_iff.mp hnone
    · rw [s.queue.head_eq_tail_iff] at hnone
      refine ⟨hhead, htail, hfront, hbounded, hretains, hproducer, ⟨rfl, ?_⟩, hrefused, hempty⟩
      dsimp only
      omega
  | reading head =>
    rw [ConsumerHolds, hphase] at hconsumer
    obtain ⟨rfl, hlt⟩ := hconsumer
    have hvalue := List.getElem?_eq_getElem hlt
    have hread := hretains _ _ (Nat.le_refl _) hvalue
    refine ⟨hhead, htail, hfront, hbounded, hretains, hproducer, ⟨rfl, ?_⟩, hrefused, hempty⟩
    dsimp only at hread ⊢
    rw [hhead, hread, hvalue]
  | storing head item =>
    rw [ConsumerHolds, hphase] at hconsumer
    obtain ⟨rfl, hitem⟩ := hconsumer
    refine ⟨?_, htail, ?_, ?_, ?_, hproducer.pop _ _ _, trivial, hrefused, hempty⟩
    · dsimp only
      rw [hhead, indexAfter_succ, List.length_append]
      rfl
    · exact front_append_getElem? hfront hitem
    · dsimp only
      rw [List.length_append]
      exact hbounded.trans (by omega)
    · apply hretains.mono
      rw [List.length_append]
      exact Nat.le_add_right _ _

lemma holds_start (buffer : Fin capacity.toNat → T) (index : UInt64) (calls : List T) :
    (start buffer index calls).Holds index where
  head_eq := (UInt64.add_zero index).symm
  tail_eq := (UInt64.add_zero index).symm
  popped_front := List.prefix_refl _
  bounded := Nat.zero_le _
  retains := retains_nil _ _ _
  producer := trivial
  consumer := trivial
  refused := by simp [start]
  empty := by simp [start]

lemma Holds.turn (h : s.Holds index) (t : Turn) : (s.turn t).Holds index := by
  cases t with
  | producer => exact h.producerTurn
  | consumer => exact h.consumerTurn

/-- Every schedule keeps the invariant. -/
lemma Holds.run (h : s.Holds index) (schedule : List Turn) : (s.run schedule).Holds index := by
  induction schedule generalizing s with
  | nil => exact h
  | cons t schedule ih => exact ih (h.turn t)

/-- The queue is a bounded FIFO under every interleaving: what has been popped is the front of what
has been pushed; the consumer never reads the position the producer is about to write; the queue
never holds more than its capacity; and a call fails only on a queue that is full, or empty, when
it loads the other side's index. -/
theorem fifo (buffer : Fin capacity.toNat → T) (index : UInt64) (calls : List T)
    (schedule : List Turn) :
    let s := (start buffer index calls).run schedule
    s.popped <+: s.pushed ∧
      s.queue.size = s.pushed.length - s.popped.length ∧
      (∀ item tail head, s.producer = .writing item tail → s.consumer = .reading head →
        capacity.slot tail ≠ capacity.slot head) ∧
      s.queue.size ≤ capacity.toNat ∧
      (∀ n ∈ s.refusedAt, n = capacity.toNat) ∧
      ∀ n ∈ s.emptyAt, n = 0 := by
  intro s
  have h : s.Holds index := (holds_start buffer index calls).run schedule
  refine ⟨h.popped_front, h.size_eq, ?_, ?_, h.refused, h.empty⟩
  · intro item tail head hwriting hreading heq
    have hproducer := h.producer
    rw [ProducerHolds, hwriting] at hproducer
    have hconsumer := h.consumer
    rw [ConsumerHolds, hreading] at hconsumer
    rw [hproducer.1, hconsumer.1, h.head_eq, h.tail_eq] at heq
    exact slot_apart capacity index _ _ hconsumer.2 hproducer.2 heq.symm
  · have hbounded := h.bounded
    rw [h.size_eq]
    exact Nat.sub_le_of_le_add (by rwa [Nat.add_comm] at hbounded)

def two : PowerOfTwo := ⟨2, rfl⟩

/-- Two values through a queue for two: one is stored, the producer is about to write the second,
and the consumer is about to read the first, while the indices wrap. -/
def wrapping : Threads ℕ two :=
  (start (fun _ => 0) 0xFFFFFFFFFFFFFFFF [7, 8]).run
    [.producer, .producer, .producer, .producer, .producer, .producer, .consumer, .consumer]

theorem fifo_wrapping :
    wrapping.popped <+: wrapping.pushed ∧ two.slot 0 ≠ two.slot 0xFFFFFFFFFFFFFFFF := by
  obtain ⟨hfront, -, hslots, -⟩ := fifo (fun _ : Fin two.toNat => 0) 0xFFFFFFFFFFFFFFFF [7, 8]
    [.producer, .producer, .producer, .producer, .producer, .producer, .consumer, .consumer]
  exact ⟨hfront, hslots 8 0 0xFFFFFFFFFFFFFFFF rfl rfl⟩

end Threads

end SPSCQueue

end ChronosX
