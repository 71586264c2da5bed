import ChronosX.Socket.Ring
import ChronosX.Library.BoundedQueue
import ChronosX.Library.Machine

/-!
# The simulated ring is a bounded queue

`toQueue` is the queue a ring stands for. `produce` and `consume` do to the queue what the calls of
a bounded queue do, so a ring answers every sequence of calls as the queue does, wherever its
counters start.
-/

namespace ChronosX

namespace SimulatedRing

variable {α : Type} {capacity : PowerOfTwo} (r : SimulatedRing α capacity)

/-- An empty ring whose counters have some value. -/
def startingAt (buffer : Fin capacity.toNat → α) (counter : UInt64) : SimulatedRing α capacity where
  buffer := buffer
  producer := counter
  consumer := counter
  bounded := by
    rw [UInt64.sub_self]
    exact Nat.zero_le _

def toQueue : BoundedQueue α capacity.toNat := ⟨r.toList, r.length_toList_le⟩

lemma toQueue_startingAt (buffer : Fin capacity.toNat → α) (counter : UInt64) :
    (startingAt buffer counter).toQueue = .empty := by
  apply BoundedQueue.ext
  apply toList_eq_nil
  rw [availableConsume, startingAt, UInt64.sub_self]
  exact Nat.not_lt_zero _

lemma availableConsume_eq : r.availableConsume.toNat = r.toQueue.entries.length :=
  r.length_toList.symm

lemma availableProduce_eq : r.availableProduce.toNat = r.toQueue.room := by
  rw [availableProduce_toNat, availableConsume_eq]
  rfl

/-- A call of the ring. -/
def step : BoundedQueue.Call α → BoundedQueue.Reply α × SimulatedRing α capacity
  | .produce items => (.produced (r.produce items).1, (r.produce items).2)
  | .consume size  => (.consumed (r.consume size).1, (r.consume size).2)

/-- A call does to the queue what the same call of a bounded queue does. -/
lemma step_toQueue (call : BoundedQueue.Call α) :
    r.toQueue.step call = ((r.step call).1, (r.step call).2.toQueue) := by
  cases call with
  | produce items =>
    obtain ⟨hcount, hqueue⟩ := r.produce_spec items
    refine Prod.ext ?_ (BoundedQueue.ext ?_)
    · exact congrArg BoundedQueue.Reply.produced hcount.symm
    · exact hqueue.symm
  | consume size =>
    obtain ⟨hitems, hqueue⟩ := r.consume_spec size
    refine Prod.ext ?_ (BoundedQueue.ext ?_)
    · exact congrArg BoundedQueue.Reply.consumed hitems.symm
    · exact hqueue.symm

/-- A ring that starts empty answers every sequence of calls as an empty bounded queue does, and
afterwards it stands for the same queue, which its two sizes measure. -/
theorem refines_boundedQueue (buffer : Fin capacity.toNat → α) (counter : UInt64)
    (calls : List (BoundedQueue.Call α)) :
    let (replies, r) := Machine.run step (startingAt buffer counter) calls
    let (queueReplies, q) := Machine.run BoundedQueue.step
      (.empty : BoundedQueue α capacity.toNat) calls
    replies = queueReplies ∧ r.toList = q.entries ∧
      r.availableConsume.toNat = q.entries.length ∧
      r.availableProduce.toNat = capacity.toNat - q.entries.length := by
  have hrun := Machine.run_simulates toQueue step_toQueue (startingAt buffer counter) calls
  rw [toQueue_startingAt] at hrun
  rw [hrun]
  exact ⟨rfl, rfl, availableConsume_eq _, availableProduce_eq _⟩

end SimulatedRing

end ChronosX
