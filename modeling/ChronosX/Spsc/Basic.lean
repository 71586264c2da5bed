import ChronosX.Types
import Mathlib.Logic.Function.Basic

/-!
# The single-producer single-consumer queue

`SPSCQueue` of `spsc_queue.hpp`, and its two operations step by step. Each side runs on a thread of
its own; a turn of a thread is one access to the shared state (the load of its own index, the load
of the other side's index and the check that follows, the access to the buffer, the store of its
index), and a schedule says whose turn it is. The accesses are sequentially consistent.
-/

namespace ChronosX

structure SPSCQueue (T : Type) (capacity : PowerOfTwo) where
  buffer : Fin capacity.toNat → T
  head : UInt64
  tail : UInt64

namespace SPSCQueue

variable {T : Type} {capacity : PowerOfTwo} (q : SPSCQueue T capacity)

def tryPush (item : T) : Bool × SPSCQueue T capacity :=
  let tail := q.tail
  let head := q.head
  if tail - head ≥ capacity.size then (false, q)
  else
    (true, { q with
      buffer := Function.update q.buffer (capacity.slot tail) item
      tail := tail + 1 })

def tryPop : Option T × SPSCQueue T capacity :=
  let head := q.head
  let tail := q.tail
  if head = tail then (none, q)
  else (some (q.buffer (capacity.slot head)), { q with head := head + 1 })

/-- The number of elements between the two indices. -/
def size : ℕ := (q.tail - q.head).toNat

/-! ### The operations step by step -/

/-- Where `try_push` is: not called, or with its own index, or about to write the buffer, or about
to store its index. -/
inductive Producer (T : Type) where
  | idle
  | loaded (item : T) (tail : UInt64)
  | writing (item : T) (tail : UInt64)
  | storing (item : T) (tail : UInt64)

/-- Where `try_pop` is: not called, or with its own index, or about to read the buffer, or about
to store its index. -/
inductive Consumer (T : Type) where
  | idle
  | loaded (head : UInt64)
  | reading (head : UInt64)
  | storing (head : UInt64) (item : T)

/-- The queue and its two threads: the arguments of the `try_push` calls to come, the values of
the successful calls of either side, and, for the calls that failed, the size of the queue when
they loaded the other side's index. -/
structure Threads (T : Type) (capacity : PowerOfTwo) where
  queue : SPSCQueue T capacity
  calls : List T
  producer : Producer T
  consumer : Consumer T
  pushed : List T
  popped : List T
  refusedAt : List ℕ
  emptyAt : List ℕ

namespace Threads

/-- The next step of `try_push`. -/
def producerTurn (s : Threads T capacity) : Threads T capacity :=
  match s.producer with
  | .idle =>
    match s.calls with
    | []            => s
    | item :: calls => { s with calls, producer := .loaded item s.queue.tail }
  | .loaded item tail =>
    if tail - s.queue.head ≥ capacity.size then
      { s with producer := .idle, refusedAt := s.refusedAt ++ [s.queue.size] }
    else { s with producer := .writing item tail }
  | .writing item tail =>
    { s with
      queue := { s.queue with
        buffer := Function.update s.queue.buffer (capacity.slot tail) item }
      producer := .storing item tail }
  | .storing item tail =>
    { s with
      queue := { s.queue with tail := tail + 1 }
      producer := .idle
      pushed := s.pushed ++ [item] }

/-- The next step of `try_pop`; an idle consumer calls it again. -/
def consumerTurn (s : Threads T capacity) : Threads T capacity :=
  match s.consumer with
  | .idle => { s with consumer := .loaded s.queue.head }
  | .loaded head =>
    if head = s.queue.tail then
      { s with consumer := .idle, emptyAt := s.emptyAt ++ [s.queue.size] }
    else { s with consumer := .reading head }
  | .reading head => { s with consumer := .storing head (s.queue.buffer (capacity.slot head)) }
  | .storing head item =>
    { s with
      queue := { s.queue with head := head + 1 }
      consumer := .idle
      popped := s.popped ++ [item] }

inductive Turn where
  | producer
  | consumer
deriving DecidableEq, Repr

def turn (s : Threads T capacity) : Turn → Threads T capacity
  | .producer => s.producerTurn
  | .consumer => s.consumerTurn

def run (s : Threads T capacity) (schedule : List Turn) : Threads T capacity :=
  schedule.foldl turn s

/-- Both threads before their first call, on an empty queue whose indices have some value. -/
def start (buffer : Fin capacity.toNat → T) (index : UInt64) (calls : List T) :
    Threads T capacity :=
  ⟨⟨buffer, index, index⟩, calls, .idle, .idle, [], [], [], []⟩

/-- A call of `try_push` that is not interrupted takes at most four turns and does what the
function does. -/
lemma run_tryPush (s : Threads T capacity) (hproducer : s.producer = .idle) {item : T}
    {calls : List T} (hcalls : s.calls = item :: calls) :
    ∃ n ≤ 4, (s.run (List.replicate n .producer)).queue = (s.queue.tryPush item).2 ∧
      (s.run (List.replicate n .producer)).producer = .idle := by
  by_cases hfull : s.queue.tail - s.queue.head ≥ capacity.size
  · refine ⟨2, by decide, ?_⟩
    simp [run, List.replicate, turn, producerTurn, hproducer, hcalls, hfull, tryPush]
  · refine ⟨4, Nat.le_refl _, ?_⟩
    simp [run, List.replicate, turn, producerTurn, hproducer, hcalls, hfull, tryPush]

/-- The same for `try_pop`. -/
lemma run_tryPop (s : Threads T capacity) (hconsumer : s.consumer = .idle) :
    ∃ n ≤ 4, (s.run (List.replicate n .consumer)).queue = s.queue.tryPop.2 ∧
      (s.run (List.replicate n .consumer)).consumer = .idle := by
  by_cases hempty : s.queue.head = s.queue.tail
  · refine ⟨2, by decide, ?_⟩
    simp [run, List.replicate, turn, consumerTurn, hconsumer, hempty, tryPop]
  · refine ⟨4, Nat.le_refl _, ?_⟩
    simp [run, List.replicate, turn, consumerTurn, hconsumer, hempty, tryPop]

end Threads

end SPSCQueue

end ChronosX
