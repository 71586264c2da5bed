import ChronosX.Socket.Xsk
import Mathlib.Data.List.Perm.Subperm

/-!
# TX slots and completions

`complete_tx` of the simulated socket puts addresses on the completion ring, and nothing ever takes
a descriptor off the TX ring. So its slots are not freed: the number of pending descriptors is the
number of all descriptors ever accepted, and it agrees with the number of those not completed only
as long as `complete_tx` has been called for no address.
-/

namespace ChronosX

/-- The calls of the TX side of the socket. -/
inductive TxCall where
  | submitTx (descriptors : List TxDescriptor)
  | completeTx (addresses : List UInt64)
  | drainCompletions (size : ℕ)
  | kickTx
deriving DecidableEq, Repr

/-- A socket with the history of its TX side: the addresses that `submit_tx` has accepted, those
that `complete_tx` was called for, and those that it has put on the completion ring. -/
structure TxHistory (shape : SocketShape) where
  socket : SimulatedXskSocket shape
  submitted : List UInt64
  called : List UInt64
  completed : List UInt64

namespace TxHistory

variable {shape : SocketShape}

def fresh : TxHistory shape := ⟨.fresh, [], [], []⟩

variable (s : TxHistory shape)

def step : TxCall → TxHistory shape
  | .submitTx descriptors =>
    let (result, socket) := s.socket.submitTx descriptors
    { s with
      socket
      submitted := s.submitted ++ (descriptors.take result.count).map (·.address) }
  | .completeTx addresses =>
    let (count, socket) := s.socket.completeTx addresses
    { s with
      socket
      called := s.called ++ addresses
      completed := s.completed ++ addresses.take count }
  | .drainCompletions size => { s with socket := (s.socket.drainCompletions size).2.2 }
  | .kickTx                => { s with socket := s.socket.kickTx.2 }

/-- `complete_tx` is called for addresses submitted earlier, at most once for each submission. -/
def Allows : TxCall → Prop
  | .completeTx addresses => (s.called ++ addresses).Subperm s.submitted
  | _                     => True

def run (s : TxHistory shape) (calls : List TxCall) : TxHistory shape := calls.foldl step s

/-- Every call of the run is allowed when it is made. -/
def Allowed (s : TxHistory shape) : List TxCall → Prop
  | []            => True
  | call :: calls => s.Allows call ∧ (s.step call).Allowed calls

/-- The pending descriptors are those that are not completed, and a descriptor is refused only
while as many as the TX ring can hold are not completed. -/
structure SlotsFreed : Prop where
  pending : s.socket.txRingPending.toNat + s.completed.length = s.submitted.length
  refused : ∀ descriptors : List TxDescriptor,
    (s.socket.submitTx descriptors).1.count < descriptors.length →
      s.submitted.length + (s.socket.submitTx descriptors).1.count =
        s.completed.length + shape.txSize.toNat

/-! ### Nothing is taken off the TX ring -/

/-- The TX ring holds every descriptor that was ever accepted. -/
def Retains : Prop := s.socket.txRing.toList.map (·.address) = s.submitted

variable {s}

/-- `submit_tx` appends the descriptors it accepts, as many as there is room for. -/
lemma submitTx_spec (socket : SimulatedXskSocket shape) (descriptors : List TxDescriptor) :
    (socket.submitTx descriptors).1.count =
        min descriptors.length (shape.txSize.toNat - socket.txRing.toList.length) ∧
      (socket.submitTx descriptors).2.txRing.toList =
        socket.txRing.toList ++ descriptors.take (socket.submitTx descriptors).1.count := by
  obtain ⟨hcount, hqueue⟩ := socket.txRing.produce_spec descriptors
  have hcount' : (socket.submitTx descriptors).1.count =
      min descriptors.length (shape.txSize.toNat - socket.txRing.toList.length) := hcount
  refine ⟨hcount', ?_⟩
  rw [hcount', Nat.min_comm, ← List.take_eq_take_min]
  exact hqueue

lemma Retains.step (h : s.Retains) (call : TxCall) : (s.step call).Retains := by
  cases call with
  | submitTx descriptors =>
    change List.map _ (s.socket.submitTx descriptors).2.txRing.toList = _
    rw [(submitTx_spec s.socket descriptors).2, List.map_append, h]
    rfl
  | completeTx addresses => exact h
  | drainCompletions size => exact h
  | kickTx => exact h

lemma Retains.run (h : s.Retains) (calls : List TxCall) : (s.run calls).Retains := by
  induction calls generalizing s with
  | nil => exact h
  | cons call calls ih => exact ih (h.step call)

lemma retains_fresh : (fresh : TxHistory shape).Retains := by
  simp [Retains, fresh, SimulatedXskSocket.fresh]

lemma Retains.length_eq (h : s.Retains) : s.socket.txRing.toList.length = s.submitted.length := by
  rw [← h, List.length_map]

lemma Retains.freed_iff (h : s.Retains) : s.SlotsFreed ↔ s.completed = [] := by
  have hlength := h.length_eq
  have hpending : s.socket.txRingPending.toNat = s.submitted.length := by
    rw [← hlength, SimulatedRing.length_toList]
    rfl
  constructor
  · intro hfreed
    have hsum := hfreed.pending
    rw [hpending, Nat.add_eq_left] at hsum
    exact List.eq_nil_of_length_eq_zero hsum
  · intro hnone
    refine ⟨by rw [hpending, hnone]; rfl, ?_⟩
    intro descriptors hrefused
    have hbound := s.socket.txRing.length_toList_le
    have hcount := (submitTx_spec s.socket descriptors).1
    rw [hnone, List.length_nil]
    omega

/-! ### The first completion -/

/-- Nothing has been completed, and the completion ring is empty. -/
structure Uncompleted (s : TxHistory shape) : Prop where
  completed_eq : s.completed = []
  ring_eq : s.socket.completionRing.toList = []

lemma uncompleted_fresh : (fresh : TxHistory shape).Uncompleted :=
  ⟨rfl, by simp [fresh, SimulatedXskSocket.fresh]⟩

lemma completed_prefix_step (s : TxHistory shape) (call : TxCall) :
    s.completed <+: (s.step call).completed := by
  cases call with
  | completeTx addresses => exact List.prefix_append _ _
  | _ => exact List.prefix_refl _

lemma completed_prefix_run (s : TxHistory shape) (calls : List TxCall) :
    s.completed <+: (s.run calls).completed := by
  induction calls generalizing s with
  | nil => exact List.prefix_refl _
  | cons call calls ih => exact (s.completed_prefix_step call).trans (ih _)

/-- The first address that `complete_tx` is called for finds the ring empty and is completed. -/
lemma Uncompleted.completeTx (h : s.Uncompleted) {addresses : List UInt64} (hne : addresses ≠ []) :
    (s.step (.completeTx addresses)).completed ≠ [] := by
  have hcount : (s.socket.completeTx addresses).1 =
      min addresses.length (shape.compSize.toNat - s.socket.completionRing.toList.length) :=
    (s.socket.completionRing.produce_spec addresses).1
  have hcompleted : (s.step (.completeTx addresses)).completed =
      s.completed ++ addresses.take (s.socket.completeTx addresses).1 := rfl
  have hsize := shape.compSize.toNat_pos
  have hlength := List.length_pos_iff.mpr hne
  rw [h.ring_eq, List.length_nil] at hcount
  rw [hcompleted, h.completed_eq, List.nil_append, ← List.length_pos_iff, List.length_take, hcount]
  omega

/-- A call that names no address leaves everything uncompleted. -/
lemma Uncompleted.step (h : s.Uncompleted) {call : TxCall}
    (hcall : ∀ addresses, call = .completeTx addresses → addresses = []) :
    (s.step call).Uncompleted := by
  cases call with
  | submitTx descriptors => exact ⟨h.completed_eq, h.ring_eq⟩
  | completeTx addresses =>
    rw [hcall addresses rfl]
    obtain ⟨-, hring⟩ := s.socket.completionRing.produce_spec []
    refine ⟨?_, hring.trans (by rw [h.ring_eq, List.take_nil, List.append_nil])⟩
    rw [TxHistory.step, h.completed_eq]
    exact List.take_nil
  | drainCompletions size =>
    refine ⟨h.completed_eq, (s.socket.completionRing.consume_spec size).2.trans ?_⟩
    rw [h.ring_eq, List.drop_nil]
  | kickTx => exact ⟨h.completed_eq, h.ring_eq⟩

lemma Uncompleted.run_iff (h : s.Uncompleted) (calls : List TxCall) :
    (s.run calls).completed = [] ↔ ∀ addresses, .completeTx addresses ∈ calls → addresses = [] := by
  induction calls generalizing s with
  | nil => exact iff_of_true h.completed_eq (by simp)
  | cons call calls ih =>
    by_cases hcall : ∀ addresses, call = .completeTx addresses → addresses = []
    · refine (ih (h.step hcall)).trans (forall_congr' fun addresses => ?_)
      rw [List.mem_cons, or_imp]
      exact (and_iff_right fun heq => hcall addresses heq.symm).symm
    · push Not at hcall
      obtain ⟨addresses, rfl, hne⟩ := hcall
      refine iff_of_false (fun hnil => ?_) fun hnone => hne (hnone addresses List.mem_cons_self)
      have hprefix : (s.step (.completeTx addresses)).completed <+: [] :=
        hnil ▸ completed_prefix_run _ calls
      exact h.completeTx hne (List.prefix_nil.mp hprefix)

/-- After every run of the TX side of a socket, the slots of completed descriptors are free exactly
if no call of `complete_tx` in the run has named an address. -/
theorem slotsFreed_iff (shape : SocketShape) (calls : List TxCall) :
    ((fresh : TxHistory shape).run calls).SlotsFreed ↔
      ∀ addresses, .completeTx addresses ∈ calls → addresses = [] :=
  (retains_fresh.run calls).freed_iff.trans (uncompleted_fresh.run_iff calls)

/-- A socket whose rings have one slot each. -/
def oneSlot : SocketShape where
  fillSize := ⟨1, rfl⟩
  compSize := ⟨1, rfl⟩
  rxSize := ⟨1, rfl⟩
  txSize := ⟨1, rfl⟩

/-- One frame is submitted, sent, completed and drained; the next one is refused although no frame
is on its way. -/
theorem completed_slot_not_freed :
    let calls : List TxCall :=
      [.submitTx [⟨4096, 60, 0⟩], .kickTx, .completeTx [4096], .drainCompletions 1]
    let s : TxHistory oneSlot := fresh.run calls
    (fresh : TxHistory oneSlot).Allowed calls ∧ ¬ s.SlotsFreed ∧
      s.submitted = [4096] ∧ s.completed = [4096] ∧ s.socket.txRingPending = 1 ∧
      (s.socket.submitTx [⟨8192, 60, 0⟩]).1 = ⟨0, .ringFull⟩ := by
  intro calls s
  have hcompleted : s.completed = [4096] := by decide
  refine ⟨⟨trivial, trivial, ?_, trivial, trivial⟩, ?_, by decide, hcompleted, by decide, by decide⟩
  · exact List.Subperm.refl [4096]
  · intro hfreed
    have hpending := hfreed.pending
    rw [hcompleted] at hpending
    exact absurd hpending (by decide)

end TxHistory

end ChronosX
