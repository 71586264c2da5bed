import ChronosX.ControlPlane.Reassembly

/-!
# Connections do not interfere

Runs of the server in which clients come and go. Beside the server a run keeps the history of each
descriptor: the chunks received and the messages dispatched since it was last accepted. In every
reachable state the connections have distinct open descriptors, and the buffer of each holds what
its own history leaves, as if it were alone.
-/

namespace ChronosX

namespace ControlPlaneServer

variable (s : ControlPlaneServer)

/-- The slot holds a connection. -/
def Connected (slot : Fin kMaxControlConnections) : Prop := (slot : ℕ) < s.connectionCount

instance (slot : Fin kMaxControlConnections) : Decidable (s.Connected slot) :=
  inferInstanceAs (Decidable (_ < _))

/-! ### Slots -/

lemma findSlotLoop_spec (fd : ℤ) {remaining index : ℕ}
    (h : index + remaining = s.connectionCount) :
    (∀ slot, s.Connected slot → index ≤ (slot : ℕ) → s.clientFds slot = fd →
      s.findSlotLoop fd remaining index h.le ≠ s.connectionCount) ∧
    ∀ slot : Fin kMaxControlConnections,
      (slot : ℕ) = s.findSlotLoop fd remaining index h.le → s.Connected slot →
        s.clientFds slot = fd := by
  induction remaining generalizing index with
  | zero =>
    rw [Nat.add_zero] at h
    subst h
    refine ⟨fun slot hslot hle _ => absurd hslot (Nat.not_lt_of_le hle), ?_⟩
    intro slot heq hslot
    exact absurd heq (Nat.ne_of_lt hslot)
  | succ remaining ih =>
    obtain ⟨hfound, hfd⟩ := ih (by omega : index + 1 + remaining = s.connectionCount)
    unfold findSlotLoop
    split_ifs with hindex
    · refine ⟨fun _ _ _ _ => by omega, ?_⟩
      intro slot heq _
      rw [← hindex]
      exact congrArg s.clientFds (Fin.ext heq)
    · refine ⟨fun slot hslot hle heq => ?_, hfd⟩
      apply hfound slot hslot _ heq
      refine Nat.lt_of_le_of_ne hle ?_
      intro hne
      apply hindex
      rw [← heq]
      exact congrArg s.clientFds (Fin.ext hne)

/-- A connected descriptor is found, and what is found is the descriptor. -/
lemma findSlot_ne {slot : Fin kMaxControlConnections} (hslot : s.Connected slot) :
    s.findSlot (s.clientFds slot) ≠ s.connectionCount :=
  (s.findSlotLoop_spec _ (Nat.zero_add _)).1 slot hslot (Nat.zero_le _) rfl

lemma clientFds_findSlot {fd : ℤ} (h : s.findSlot fd ≠ s.connectionCount) :
    s.clientFds (s.slotOf (s.findSlot_lt h)) = fd :=
  (s.findSlotLoop_spec fd (Nat.zero_add _)).2 _ rfl (s.findSlot_lt h)

/-- No two connections have one descriptor. -/
def Distinct : Prop :=
  ∀ i j, s.Connected i → s.Connected j → s.clientFds i = s.clientFds j → i = j

/-- `handle_client` for a connection whose slot is known. -/
lemma handleClient_data (hdistinct : s.Distinct) {slot : Fin kMaxControlConnections}
    (hslot : s.Connected slot) (chunk : Chunk) (sends : ℕ → Bool) :
    s.handleClient (s.clientFds slot) (.data chunk) sends =
      let served := receiveChunk s.core (s.buffers slot) s.messagesHandled chunk sends
      let s' := { s with
        buffers := Function.update s.buffers slot served.buffer
        core := served.core
        messagesHandled := served.messagesHandled }
      (if served.keep then s' else s'.removeConnection slot, served.dispatched,
        served.replies) := by
  have hne := s.findSlot_ne hslot
  have hindex : s.slotOf (s.findSlot_lt hne) = slot :=
    hdistinct _ _ (s.findSlot_lt hne) hslot (s.clientFds_findSlot hne)
  have hval : s.findSlot (s.clientFds slot) = slot := congrArg Fin.val hindex
  unfold handleClient
  rw [dif_neg hne]
  dsimp only
  rw [hindex, hval]

/-- What stays after a connection is removed: every connection is one of the others, moved as a
whole, and no two are the same one. -/
structure Remains (slot : Fin kMaxControlConnections) (s' : ControlPlaneServer) : Prop where
  openFds_eq : s'.openFds = s.openFds.erase (s.clientFds slot)
  moved : ∃ source : Fin kMaxControlConnections → Fin kMaxControlConnections,
    ∀ i, s'.Connected i → s.Connected (source i) ∧ source i ≠ slot ∧
      s'.clientFds i = s.clientFds (source i) ∧ s'.buffers i = s.buffers (source i) ∧
      ∀ j, s'.Connected j → source i = source j → i = j

lemma removeConnection_remains {slot : Fin kMaxControlConnections} (hslot : s.Connected slot)
    (hfd : 0 ≤ s.clientFds slot) : s.Remains slot (s.removeConnection slot) := by
  have hcount : ¬ (slot : ℕ) ≥ s.connectionCount := Nat.not_le_of_lt hslot
  have hindex : s.slotOf (Nat.lt_of_not_ge hcount) = slot := rfl
  have hclosed : s.closeFd slot =
      { s with
        openFds := s.openFds.erase (s.clientFds slot)
        clientFds := Function.update s.clientFds slot (-1) } := if_pos hfd
  unfold removeConnection
  rw [dif_neg hcount]
  dsimp only
  rw [hindex, hclosed]
  generalize hlast : s.slotOf _ = last
  have hval : (last : ℕ) = s.connectionCount - 1 := congrArg Fin.val hlast.symm
  split_ifs with hmoved
  · -- The last connection takes the place of the removed one.
    have hne : last ≠ slot := by
      rintro rfl
      omega
    refine ⟨rfl, Equiv.swap slot last, ?_⟩
    intro i hi
    have hi' : (i : ℕ) < s.connectionCount - 1 := hi
    have hinj : ∀ j, Equiv.swap slot last i = Equiv.swap slot last j → i = j :=
      fun j heq => (Equiv.swap slot last).injective heq
    dsimp only
    by_cases heq : i = slot
    · subst heq
      rw [Equiv.swap_apply_left] at hinj ⊢
      refine ⟨?_, hne, ?_, ?_, fun j _ => hinj j⟩
      · exact hval.trans_lt (Nat.sub_lt (Nat.zero_lt_of_lt hslot) Nat.one_pos)
      · rw [Function.update_self, Function.update_of_ne hne]
      · rw [Function.update_self]
    · have hlast' : i ≠ last := by
        rintro rfl
        exact Nat.lt_irrefl _ (hi'.trans_eq hval.symm)
      rw [Equiv.swap_apply_of_ne_of_ne heq hlast'] at hinj ⊢
      refine ⟨?_, heq, ?_, ?_, fun j _ => hinj j⟩
      · exact Nat.lt_of_lt_of_le hi' (Nat.sub_le _ _)
      · rw [Function.update_of_ne heq, Function.update_of_ne heq]
      · rw [Function.update_of_ne heq]
  · refine ⟨rfl, id, ?_⟩
    intro i hi
    have hi' : (i : ℕ) < s.connectionCount - 1 := hi
    have hne : i ≠ slot := by
      rintro rfl
      exact hmoved hi'
    refine ⟨?_, hne, Function.update_of_ne hne _ _, rfl, fun j _ heq => heq⟩
    exact Nat.lt_of_lt_of_le hi' (Nat.sub_le _ _)

end ControlPlaneServer

/-! ### Runs -/

/-- What has happened on a connection since it was accepted. -/
structure Session where
  received : List Chunk := []
  dispatched : List (List Byte) := []

/-- A server, and the last session of each descriptor. -/
structure ServerRun where
  server : ControlPlaneServer
  session : ℤ → Session

/-- An event of the server: `accept4` returns a descriptor or fails, or a client's descriptor is
ready and `recv` and `send_all` return what they do. -/
inductive ServerEvent where
  | accept (client : ℤ) (added : Bool)
  | ready (fd : ℤ) (recv : RecvResult) (sends : ℕ → Bool)

/-- `accept4` returns no descriptor that is open. -/
def ServerEvent.Legal (s : ControlPlaneServer) : ServerEvent → Prop
  | .accept client _ => 0 ≤ client → client ∉ s.openFds
  | .ready _ _ _     => True

instance (s : ControlPlaneServer) : (event : ServerEvent) → Decidable (event.Legal s)
  | .accept client _ => inferInstanceAs (Decidable (0 ≤ client → client ∉ s.openFds))
  | .ready _ _ _     => inferInstanceAs (Decidable True)

namespace ServerRun

/-- A session goes on with what `recv` returned and `handle_request` was given. -/
def continued (session : Session) (recv : RecvResult) (dispatched : List (List Byte)) : Session :=
  match recv with
  | .data chunk => ⟨session.received ++ [chunk], session.dispatched ++ dispatched⟩
  | _           => session

def step (w : ServerRun) : ServerEvent → ServerRun
  | .accept client added =>
    ⟨w.server.handleAccept client added, Function.update w.session client {}⟩
  | .ready fd recv sends =>
    let (server, dispatched, _) := w.server.handleClient fd recv sends
    ⟨server, Function.update w.session fd (continued (w.session fd) recv dispatched)⟩

inductive Reachable : ServerRun → Prop
  | start (maxConnections : ℕ) (h : maxConnections ≤ kMaxControlConnections)
      (core : ControlPlaneCore) (openFds : Finset ℤ) :
      Reachable ⟨.start maxConnections h core openFds, fun _ => {}⟩
  | step {w : ServerRun} (event : ServerEvent) (hw : Reachable w)
      (hlegal : event.Legal w.server) : Reachable (w.step event)

/-- The connection in the slot is open, and its buffer holds what its session leaves. -/
structure Holds (s : ControlPlaneServer) (session : ℤ → Session)
    (slot : Fin kMaxControlConnections) : Prop where
  nonneg : 0 ≤ s.clientFds slot
  isOpen : s.clientFds slot ∈ s.openFds
  overflowed : (s.buffers slot).overflowed = false
  reassembled : ((session (s.clientFds slot)).dispatched, (s.buffers slot).readable) =
    reassemble (session (s.clientFds slot)).received

structure Valid (w : ServerRun) : Prop where
  distinct : w.server.Distinct
  holds : ∀ i, w.server.Connected i → Holds w.server w.session i

variable {s : ControlPlaneServer} {session : ℤ → Session}

/-- The session of another descriptor does not matter. -/
lemma Holds.update {slot : Fin kMaxControlConnections} (h : Holds s session slot) {fd : ℤ}
    (hfd : s.clientFds slot ≠ fd) (other : Session) :
    Holds s (Function.update session fd other) slot := by
  obtain ⟨hnonneg, hisOpen, hoverflowed, hreassembled⟩ := h
  refine ⟨hnonneg, hisOpen, hoverflowed, ?_⟩
  rw [Function.update_of_ne hfd]
  exact hreassembled

/-- What a connection holds is a matter of its descriptor and its buffer, not of its slot. -/
lemma Holds.congr {i j : Fin kMaxControlConnections} (h : Holds s session i)
    {s' : ControlPlaneServer} (hfd : s'.clientFds j = s.clientFds i)
    (hopen : s.clientFds i ∈ s'.openFds) (hbuffer : s'.buffers j = s.buffers i) :
    Holds s' session j := by
  obtain ⟨hnonneg, -, hoverflowed, hreassembled⟩ := h
  rw [← hfd] at hnonneg hopen hreassembled
  rw [← hbuffer] at hoverflowed hreassembled
  exact ⟨hnonneg, hopen, hoverflowed, hreassembled⟩

/-- The other connections survive a removal. -/
lemma valid_removeConnection {slot : Fin kMaxControlConnections} (hslot : s.Connected slot)
    (hfd : 0 ≤ s.clientFds slot) (hdistinct : s.Distinct)
    (hothers : ∀ i, s.Connected i → i ≠ slot → Holds s session i) :
    Valid ⟨s.removeConnection slot, session⟩ := by
  obtain ⟨hopen, source, hmoved⟩ := s.removeConnection_remains hslot hfd
  constructor
  · intro i j hi hj heq
    obtain ⟨hsource, -, hfds, -, hinj⟩ := hmoved i hi
    obtain ⟨hsource', -, hfds', -⟩ := hmoved j hj
    apply hinj j hj
    apply hdistinct _ _ hsource hsource'
    rw [← hfds, ← hfds']
    exact heq
  · intro i hi
    obtain ⟨hsource, hne, hfds, hbuffer, -⟩ := hmoved i hi
    have hholds := hothers _ hsource hne
    refine hholds.congr hfds ?_ hbuffer
    rw [hopen, Finset.mem_erase]
    exact ⟨fun heq => hne (hdistinct _ _ hsource hslot heq), hholds.isOpen⟩

lemma Valid.accept (h : Valid ⟨s, session⟩) {client : ℤ}
    (hclient : 0 ≤ client → client ∉ s.openFds)
    (added : Bool) : Valid (step ⟨s, session⟩ (.accept client added)) := by
  have hne : ∀ i, s.Connected i → s.clientFds i ≠ client := by
    rintro i hi rfl
    exact hclient (h.holds i hi).nonneg (h.holds i hi).isOpen
  have hkept : ∀ i, s.Connected i → Holds s (Function.update session client {}) i :=
    fun i hi => (h.holds i hi).update (hne i hi) {}
  rw [step]
  unfold ControlPlaneServer.handleAccept
  split_ifs with hnegative hfull hadded
  · exact ⟨h.distinct, hkept⟩
  · exact ⟨h.distinct, hkept⟩
  · exact ⟨h.distinct, hkept⟩
  · -- The new connection takes the first free slot.
    generalize hslot : (⟨s.connectionCount, _⟩ : Fin kMaxControlConnections) = slot
    have hval : (slot : ℕ) = s.connectionCount := congrArg Fin.val hslot.symm
    have hold : ∀ i : Fin kMaxControlConnections, (i : ℕ) < s.connectionCount + 1 → i ≠ slot →
        s.Connected i := by
      intro i hi hne'
      refine Nat.lt_of_le_of_ne (Nat.le_of_lt_succ hi) ?_
      intro heq
      exact hne' (Fin.ext (heq.trans hval.symm))
    constructor
    · intro i j hi hj heq
      dsimp only at heq
      by_cases hi' : i = slot
      · by_cases hj' : j = slot
        · rw [hi', hj']
        · rw [hi', Function.update_self, Function.update_of_ne hj'] at heq
          exact absurd heq.symm (hne j (hold j hj hj'))
      · by_cases hj' : j = slot
        · rw [hj', Function.update_self, Function.update_of_ne hi'] at heq
          exact absurd heq (hne i (hold i hi hi'))
        · rw [Function.update_of_ne hi', Function.update_of_ne hj'] at heq
          exact h.distinct i j (hold i hi hi') (hold j hj hj') heq
    · intro i hi
      by_cases hi' : i = slot
      · subst hi'
        constructor
        · simpa using hnegative
        · simp
        · simp
        · simp [reassemble]
      · have hholds := hkept i (hold i hi hi')
        exact hholds.congr (Function.update_of_ne hi' _ _)
          (Finset.mem_insert_of_mem hholds.isOpen) (Function.update_of_ne hi' _ _)

/-- A chunk of a connected client. -/
lemma Valid.data (h : Valid ⟨s, session⟩) {slot : Fin kMaxControlConnections}
    (hslot : s.Connected slot) (chunk : Chunk) (sends : ℕ → Bool) :
    let served := receiveChunk s.core (s.buffers slot) s.messagesHandled chunk sends
    let s' := { s with
      buffers := Function.update s.buffers slot served.buffer
      core := served.core
      messagesHandled := served.messagesHandled }
    Valid ⟨if served.keep then s' else s'.removeConnection slot,
      Function.update session (s.clientFds slot)
        (continued (session (s.clientFds slot)) (.data chunk) served.dispatched)⟩ := by
  intro served s'
  obtain ⟨hnonneg, hisOpen, hoverflowed, hreassembled⟩ := h.holds slot hslot
  have hothers : ∀ i, s'.Connected i → i ≠ slot → Holds s' (Function.update session
      (s.clientFds slot) (continued (session (s.clientFds slot)) (.data chunk)
        served.dispatched)) i := by
    intro i hi hne
    have hfd : s.clientFds i ≠ s.clientFds slot := fun heq => hne (h.distinct i slot hi hslot heq)
    have hholds := (h.holds i hi).update hfd
      (continued (session (s.clientFds slot)) (.data chunk) served.dispatched)
    exact hholds.congr rfl hholds.isOpen (Function.update_of_ne hne _ _)
  split_ifs with hkeep
  · have hfollows := receiveChunk_follows s.core hoverflowed s.messagesHandled
      (receiveChunk_fits hkeep) sends
    have hbuffer : s'.buffers slot = served.buffer := Function.update_self _ _ _
    refine ⟨h.distinct, ?_⟩
    intro i hi
    by_cases hne : i = slot
    · subst hne
      refine ⟨hnonneg, hisOpen, ?_, ?_⟩
      · rw [hbuffer]
        exact hfollows.overflowed
      · have hcut := hfollows.of_keep hkeep
        rw [hbuffer]
        dsimp only [s']
        rw [Function.update_self, continued, reassemble_append, ← hreassembled]
        dsimp only at hcut ⊢
        rw [← hcut]
    · exact hothers i hi hne
  · exact valid_removeConnection hslot hnonneg h.distinct hothers

lemma Valid.ready (h : Valid ⟨s, session⟩) (fd : ℤ) (recv : RecvResult) (sends : ℕ → Bool) :
    Valid (step ⟨s, session⟩ (.ready fd recv sends)) := by
  unfold step ControlPlaneServer.handleClient
  dsimp only
  by_cases hfound : s.findSlot fd = s.connectionCount
  · -- The descriptor belongs to no connection.
    rw [dif_pos hfound]
    refine ⟨h.distinct, ?_⟩
    intro i hi
    apply (h.holds i hi).update
    rintro rfl
    exact s.findSlot_ne hi hfound
  · rw [dif_neg hfound]
    have hslot : s.Connected (s.slotOf (s.findSlot_lt hfound)) := s.findSlot_lt hfound
    have hfd := s.clientFds_findSlot hfound
    have hremoved : Valid ⟨s.removeConnection (s.findSlot fd), session⟩ :=
      valid_removeConnection hslot (h.holds _ hslot).nonneg h.distinct fun i hi _ => h.holds i hi
    cases recv with
    | wouldBlock =>
      simp only [continued, Function.update_eq_self]
      exact h
    | closed =>
      simp only [continued, Function.update_eq_self]
      exact hremoved
    | failed =>
      simp only [continued, Function.update_eq_self]
      exact hremoved
    | data chunk =>
      have hdata := h.data hslot chunk sends
      rw [hfd] at hdata
      exact hdata

/-- Every reachable run is valid. -/
lemma Reachable.valid {w : ServerRun} (h : Reachable w) : Valid w := by
  induction h with
  | start maxConnections hmax core openFds =>
    exact ⟨fun i _ hi => absurd hi (Nat.not_lt_zero _), fun i hi => absurd hi (Nat.not_lt_zero _)⟩
  | step event _ hlegal ih =>
    cases event with
    | accept client added => exact ih.accept hlegal added
    | ready fd recv sends => exact ih.ready fd recv sends

/-- In every reachable state the connections have distinct open descriptors and are not too many,
and the buffer of each holds exactly what its own chunks leave when they are reassembled alone. -/
theorem connections_do_not_interfere {w : ServerRun} (h : Reachable w) :
    (∀ i j, w.server.Connected i → w.server.Connected j →
      w.server.clientFds i = w.server.clientFds j → i = j) ∧
    (∀ i, w.server.Connected i → w.server.clientFds i ∈ w.server.openFds) ∧
    w.server.connectionCount ≤ w.server.maxConnections ∧
    ∀ i, w.server.Connected i →
      let session := w.session (w.server.clientFds i)
      let unconsumed := (w.server.buffers i).readable
      (session.dispatched, unconsumed) = reassemble session.received ∧
        session.dispatched.flatten ++ unconsumed = streamOf session.received := by
  obtain ⟨hdistinct, hholds⟩ := h.valid
  refine ⟨hdistinct, fun i hi => (hholds i hi).isOpen, w.server.connectionCount_le, ?_⟩
  intro i hi
  have hreassembled := (hholds i hi).reassembled
  refine ⟨hreassembled, ?_⟩
  rw [← reassemble_flatten, ← hreassembled]

/-- A client that has just been accepted. -/
def accepted : ServerRun :=
  step ⟨.start 16 (Nat.le_refl _) .fresh ∅, fun _ => {}⟩ (.accept 5 true)

lemma reachable_accepted : Reachable accepted :=
  .step _ (.start 16 _ .fresh ∅) (by decide)

/-- Two clients connect, and the first of them leaves. -/
def firstLeaves : ServerRun :=
  (accepted.step (.accept 7 true)).step (.ready 5 .closed fun _ => true)

theorem connections_do_not_interfere_firstLeaves :
    firstLeaves.server.clientFds 0 = 7 ∧ (7 : ℤ) ∈ firstLeaves.server.openFds ∧
      firstLeaves.server.connectionCount ≤ firstLeaves.server.maxConnections ∧
      (firstLeaves.session 7).dispatched.flatten ++ (firstLeaves.server.buffers 0).readable =
        streamOf (firstLeaves.session 7).received := by
  have hreachable : Reachable firstLeaves :=
    .step _ (.step _ reachable_accepted (by decide)) trivial
  obtain ⟨-, hopen, hcount, hbuffers⟩ := connections_do_not_interfere hreachable
  have hconnected : firstLeaves.server.Connected 0 := by decide
  exact ⟨rfl, hopen 0 hconnected, hcount, (hbuffers 0 hconnected).2⟩

end ServerRun

end ChronosX
