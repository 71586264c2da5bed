import ChronosX.ControlPlane.EventLoop
import Mathlib.Data.Fintype.Fin

/-!
# The descriptors of the server

In every state that calls of the member functions lead to, whatever the system calls return, the
server holds exactly its own descriptors and those of its connections, or none. One lemma for each
handler says what it does to the connections and the open descriptors, and the stages of `init` and
`shutdown` are undone by the calls of `close_fd` one after another.
-/

namespace ChronosX

/-! ### Connections -/

namespace ControlPlaneServer

variable (s : ControlPlaneServer)

/-- The descriptors of the connections. -/
def clients : Finset ℤ := (Finset.univ.filter fun slot => s.Connected slot).image s.clientFds

lemma mem_clients {fd : ℤ} : fd ∈ s.clients ↔ ∃ slot, s.Connected slot ∧ s.clientFds slot = fd := by
  simp [clients]

variable {s}

lemma card_clients (h : s.Distinct) : s.clients.card = s.connectionCount := by
  have hinj : Set.InjOn s.clientFds (Finset.univ.filter fun slot => s.Connected slot) := by
    intro i hi j hj heq
    exact h i j (by simpa using hi) (by simpa using hj) heq
  rw [clients, Finset.card_image_of_injOn hinj]
  have hcount : s.connectionCount ≤ kMaxControlConnections :=
    s.connectionCount_le.trans s.maxConnections_le
  exact Fin.card_filter_val_lt.trans (Nat.min_eq_right hcount)

/-- A removal closes the descriptor of the connection, and only that. -/
lemma removeConnection_effect {slot : Fin kMaxControlConnections} (hslot : s.Connected slot)
    (hfd : 0 ≤ s.clientFds slot) (hdistinct : s.Distinct) :
    (s.removeConnection slot).clients = s.clients.erase (s.clientFds slot) ∧
      (s.removeConnection slot).openFds = s.openFds.erase (s.clientFds slot) := by
  obtain ⟨hopen, source, hmoved⟩ := s.removeConnection_remains hslot hfd
  refine ⟨?_, hopen⟩
  have hsub : (s.removeConnection slot).clients ⊆ s.clients.erase (s.clientFds slot) := by
    intro fd hmem
    obtain ⟨i, hi, rfl⟩ := (mem_clients _).mp hmem
    obtain ⟨hsource, hne, hfds, -⟩ := hmoved i hi
    rw [hfds, Finset.mem_erase, mem_clients]
    exact ⟨fun heq => hne (hdistinct _ _ hsource hslot heq), source i, hsource, rfl⟩
  have hdistinct' : (s.removeConnection slot).Distinct := by
    intro i j hi hj heq
    obtain ⟨hsource, -, hfds, -, hinj⟩ := hmoved i hi
    obtain ⟨hsource', -, hfds', -⟩ := hmoved j hj
    exact hinj j hj (hdistinct _ _ hsource hsource' (hfds.symm.trans (heq.trans hfds')))
  have hcount : (s.removeConnection slot).connectionCount = s.connectionCount - 1 := by
    unfold removeConnection
    rw [dif_neg (Nat.not_le_of_lt hslot)]
    dsimp only
    split_ifs <;> rfl
  -- Nothing else is lost: the two sets have as many elements.
  refine Finset.eq_of_subset_of_card_le hsub ?_
  rw [Finset.card_erase_of_mem ((mem_clients _).mpr ⟨slot, hslot, rfl⟩), card_clients hdistinct,
    card_clients hdistinct', hcount]

lemma clients_of_count (h : s.connectionCount = 0) : s.clients = ∅ := by
  rw [Finset.eq_empty_iff_forall_notMem]
  intro fd hmem
  obtain ⟨slot, hslot, -⟩ := s.mem_clients.mp hmem
  rw [Connected, h] at hslot
  exact Nat.not_lt_zero _ hslot

/-- `handle_accept` adds the descriptor to the connections, or leaves everything as it is. -/
lemma handleAccept_effect (s : ControlPlaneServer) (client : ℤ) (added : Bool) :
    if 0 ≤ client ∧ s.connectionCount < s.maxConnections ∧ added = true then
      (s.handleAccept client added).clients = insert client s.clients ∧
        (s.handleAccept client added).openFds = insert client s.openFds
    else
      (s.handleAccept client added).clients = s.clients ∧
        (s.handleAccept client added).openFds = s.openFds := by
  unfold handleAccept
  by_cases hnegative : client < 0
  · rw [if_pos hnegative, if_neg fun h => absurd h.1 (Int.not_le_of_gt hnegative)]
    exact ⟨rfl, rfl⟩
  rw [if_neg hnegative]
  by_cases hfull : s.connectionCount ≥ s.maxConnections
  · rw [dif_pos hfull, if_neg fun h => absurd h.2.1 (Nat.not_lt_of_le hfull)]
    exact ⟨rfl, rfl⟩
  rw [dif_neg hfull]
  cases added with
  | false =>
    rw [if_neg fun h => absurd h.2.2 Bool.false_ne_true, if_pos (by decide)]
    exact ⟨rfl, rfl⟩
  | true =>
    rw [if_pos ⟨Int.not_lt.mp hnegative, Nat.lt_of_not_ge hfull, rfl⟩, if_neg (by decide)]
    refine ⟨?_, rfl⟩
    generalize hslot : (⟨s.connectionCount, _⟩ : Fin kMaxControlConnections) = slot
    have hval : (slot : ℕ) = s.connectionCount := congrArg Fin.val hslot.symm
    ext fd
    rw [Finset.mem_insert, mem_clients, mem_clients]
    constructor
    · rintro ⟨i, hi, rfl⟩
      dsimp only
      by_cases hi' : i = slot
      · exact Or.inl (by rw [hi', Function.update_self])
      · rw [Function.update_of_ne hi']
        refine Or.inr ⟨i, Nat.lt_of_le_of_ne (Nat.le_of_lt_succ hi) ?_, rfl⟩
        exact fun heq => hi' (Fin.ext (heq.trans hval.symm))
    · rintro (rfl | ⟨i, hi, rfl⟩)
      · exact ⟨slot, hval.trans_lt (Nat.lt_succ_self _), Function.update_self _ _ _⟩
      · have hne : i ≠ slot := by
          rintro rfl
          exact absurd hval (Nat.ne_of_lt hi)
        exact ⟨i, Nat.lt_succ_of_lt hi, Function.update_of_ne hne _ _⟩

/-- `handle_client` closes the descriptor of its connection, or leaves all as they are. -/
lemma handleClient_effect {session : ℤ → Session} (h : ServerRun.Valid ⟨s, session⟩) (fd : ℤ)
    (recv : RecvResult) (sends : ℕ → Bool) :
    let s' := (s.handleClient fd recv sends).1
    (s'.clients = s.clients ∧ s'.openFds = s.openFds) ∨
      (fd ∈ s.clients ∧ s'.clients = s.clients.erase fd ∧ s'.openFds = s.openFds.erase fd) := by
  intro s'
  simp only [s', handleClient]
  by_cases hfound : s.findSlot fd = s.connectionCount
  · rw [dif_pos hfound]
    exact Or.inl ⟨rfl, rfl⟩
  rw [dif_neg hfound]
  let slot := s.slotOf (s.findSlot_lt hfound)
  have hslot : s.Connected slot := s.findSlot_lt hfound
  have hfd : s.clientFds slot = fd := s.clientFds_findSlot hfound
  have hmem : fd ∈ s.clients := s.mem_clients.mpr ⟨slot, hslot, hfd⟩
  have hnonneg := (h.holds slot hslot).nonneg
  have hremoved := removeConnection_effect hslot hnonneg h.distinct
  rw [hfd] at hremoved
  cases recv with
  | wouldBlock => exact Or.inl ⟨rfl, rfl⟩
  | closed | failed => exact Or.inr ⟨hmem, hremoved⟩
  | data chunk =>
    let served := receiveChunk s.core (s.buffers slot) s.messagesHandled chunk sends
    let kept : ControlPlaneServer := { s with
      buffers := Function.update s.buffers slot served.buffer
      core := served.core
      messagesHandled := served.messagesHandled }
    have hkept : kept.Connected slot := hslot
    have hdistinct : kept.Distinct := h.distinct
    have hdropped := removeConnection_effect hkept hnonneg hdistinct
    rw [show kept.clientFds slot = fd from hfd] at hdropped
    dsimp only
    split_ifs with hkeep
    · exact Or.inl ⟨rfl, rfl⟩
    · exact Or.inr ⟨hmem, hdropped⟩

end ControlPlaneServer

/-! ### Descriptors -/

namespace ServerProcess

variable (p : ServerProcess)

/-- The descriptors of the server itself. -/
def own : Finset ℤ := ({p.listenFd, p.epollFd, p.eventFd} : Finset ℤ)

/-- No descriptor is held. -/
structure Stopped : Prop where
  listen_neg : p.listenFd < 0
  epoll_neg : p.epollFd < 0
  event_neg : p.eventFd < 0
  openFds_eq : p.server.openFds = p.others
  interest_eq : p.interest = ∅

/-- The server holds its own descriptors and those of its connections, apart from those of the rest
of the process, and all but the epoll descriptor are registered. -/
structure Running : Prop where
  initialized : p.initialized = true
  own_nodup : [p.listenFd, p.epollFd, p.eventFd].Nodup
  own_nonneg : ∀ fd ∈ p.own, 0 ≤ fd
  openFds_eq : p.server.openFds = p.others ∪ p.own ∪ p.server.clients
  others_own : Disjoint p.others p.own
  others_clients : Disjoint p.others p.server.clients
  own_clients : Disjoint p.own p.server.clients
  interest_eq : p.interest = {p.listenFd, p.eventFd} ∪ p.server.clients
  valid : ∃ session, ServerRun.Valid ⟨p.server, session⟩

variable {p}

/-- What a handler does to the connections and the open descriptors it does apart from the rest. -/
lemma Running.of_effect (hp : p.Running) {p' : ServerProcess} (hinit : p'.initialized = true)
    (hfds : [p'.listenFd, p'.epollFd, p'.eventFd] = [p.listenFd, p.epollFd, p.eventFd])
    (hothers : p'.others = p.others)
    (hopen : p'.server.openFds = p.others ∪ p.own ∪ p'.server.clients)
    (hapart : Disjoint (p.others ∪ p.own) p'.server.clients)
    (hinterest : p'.interest = {p'.listenFd, p'.eventFd} ∪ p'.server.clients)
    (hvalid : ∃ session, ServerRun.Valid ⟨p'.server, session⟩) : p'.Running := by
  rw [Finset.disjoint_union_left] at hapart
  have hown : p'.own = p.own := by
    simp only [List.cons.injEq] at hfds
    rw [own, own, hfds.1, hfds.2.1, hfds.2.2.1]
  constructor
  · exact hinit
  · rw [hfds]
    exact hp.own_nodup
  · rw [hown]
    exact hp.own_nonneg
  · rw [hopen, hothers, hown]
  · rw [hothers, hown]
    exact hp.others_own
  · rw [hothers]
    exact hapart.1
  · rw [hown]
    exact hapart.2
  · exact hinterest
  · exact hvalid

lemma Running.apart (hp : p.Running) : Disjoint (p.others ∪ p.own) p.server.clients :=
  Finset.disjoint_union_left.mpr ⟨hp.others_clients, hp.own_clients⟩

lemma Running.accept (hp : p.Running) (h : p.initialized = true) {client : ℤ}
    (hclient : 0 ≤ client → client ∉ p.server.openFds) (added : Bool) :
    (p.handleAccept h client added).Running := by
  obtain ⟨session, hvalid⟩ := hp.valid
  have heffect := p.server.handleAccept_effect client added
  have hvalid' := hvalid.accept hclient added
  have hopen := hp.openFds_eq
  have hinterest := hp.interest_eq
  by_cases haccepted : 0 ≤ client ∧ p.server.connectionCount < p.server.maxConnections ∧
      added = true
  · rw [if_pos haccepted] at heffect
    obtain ⟨hclients, hopened⟩ := heffect
    have hnew := hclient haccepted.1
    rw [hopen, Finset.notMem_union] at hnew
    refine hp.of_effect h rfl rfl ?_ ?_ ?_ ⟨_, hvalid'⟩
    · dsimp only [handleAccept]
      rw [hopened, hopen, hclients, Finset.union_insert]
    · dsimp only [handleAccept]
      rw [hclients, Finset.disjoint_insert_right]
      exact ⟨hnew.1, hp.apart⟩
    · dsimp only [handleAccept]
      rw [if_pos haccepted, hclients, hinterest, Finset.union_insert]
  · rw [if_neg haccepted] at heffect
    obtain ⟨hclients, hopened⟩ := heffect
    refine hp.of_effect h rfl rfl ?_ ?_ ?_ ⟨_, hvalid'⟩
    · dsimp only [handleAccept]
      rw [hopened, hopen, hclients]
    · dsimp only [handleAccept]
      rw [hclients]
      exact hp.apart
    · dsimp only [handleAccept]
      rw [if_neg haccepted, hclients, hinterest]

lemma Running.client (hp : p.Running) (h : p.initialized = true) (fd : ℤ) (recv : RecvResult)
    (sends : ℕ → Bool) : (p.handleClient h fd recv sends).Running := by
  obtain ⟨session, hvalid⟩ := hp.valid
  have hvalid' := hvalid.ready fd recv sends
  have hopen := hp.openFds_eq
  have hapart := hp.apart
  have hsub : ({p.listenFd, p.eventFd} : Finset ℤ) ⊆ p.own := by
    intro x hx
    simp only [own, Finset.mem_insert, Finset.mem_singleton] at hx ⊢
    tauto
  rcases ControlPlaneServer.handleClient_effect hvalid fd recv sends with
    ⟨hclients, hopened⟩ | ⟨hmem, hclients, hopened⟩
  · refine hp.of_effect h rfl rfl ?_ ?_ ?_ ⟨_, hvalid'⟩
    · dsimp only [handleClient]
      rw [hopened, hopen, hclients]
    · dsimp only [handleClient]
      rw [hclients]
      exact hapart
    · dsimp only [handleClient]
      rw [hopened, hclients, hp.interest_eq, hopen, Finset.inter_eq_left]
      refine Finset.union_subset_union ?_ (Finset.Subset.refl _)
      exact hsub.trans Finset.subset_union_right
  · have hout : fd ∉ p.others ∪ p.own := fun hin => Finset.disjoint_left.mp hapart hin hmem
    have herased : p.server.openFds.erase fd = p.others ∪ p.own ∪ p.server.clients.erase fd := by
      rw [hopen, Finset.erase_union_distrib, Finset.erase_eq_of_notMem hout]
    refine hp.of_effect h rfl rfl ?_ ?_ ?_ ⟨_, hvalid'⟩
    · dsimp only [handleClient]
      rw [hopened, herased, hclients]
    · dsimp only [handleClient]
      rw [hclients]
      exact hapart.mono_right (Finset.erase_subset _ _)
    · dsimp only [handleClient]
      rw [hopened, hclients, hp.interest_eq, Finset.inter_erase, hopen,
        Finset.inter_eq_left.mpr (Finset.union_subset_union
          (hsub.trans Finset.subset_union_right) (Finset.Subset.refl _)),
        Finset.erase_union_distrib, Finset.erase_eq_of_notMem]
      exact fun hin => hout (Finset.mem_union_right _ (hsub hin))

/-- Every descriptor of a batch that is neither the event descriptor nor the listening one belongs to
a connection when its turn comes. -/
def Known : (p : ServerProcess) → p.initialized = true → List ReadyEvent → Prop
  | _, _, []              => True
  | p, h, event :: events =>
    if event.fd = p.eventFd then True
    else if event.fd = p.listenFd then
      Known (p.handleAccept h event.client event.added) h events
    else
      event.fd ∈ p.server.clients ∧
        Known (p.handleClient h event.fd event.recv event.sends) h events

/-- The handler of a descriptor closes no other. -/
lemma mem_interest_handleClient {session : ℤ → Session}
    (hvalid : ServerRun.Valid ⟨p.server, session⟩) (h : p.initialized = true) {fd fd' : ℤ}
    (hmem : fd' ∈ p.interest) (hopen : fd' ∈ p.server.openFds) (hne : fd' ≠ fd)
    (recv : RecvResult) (sends : ℕ → Bool) : fd' ∈ (p.handleClient h fd recv sends).interest := by
  refine Finset.mem_inter.mpr ⟨hmem, ?_⟩
  rcases ControlPlaneServer.handleClient_effect hvalid fd recv sends with
    ⟨-, hopened⟩ | ⟨-, -, hopened⟩
  · rwa [hopened]
  · rw [hopened]
    exact Finset.mem_erase.mpr ⟨hne, hopen⟩

lemma Running.interest_subset (hp : p.Running) : p.interest ⊆ p.server.openFds := by
  rw [hp.interest_eq, hp.openFds_eq]
  refine Finset.union_subset_union ?_ (Finset.Subset.refl _)
  intro x hx
  simp only [own, Finset.mem_union, Finset.mem_insert, Finset.mem_singleton] at hx ⊢
  tauto

lemma Running.runEvents (hp : p.Running) (h : p.initialized = true) {events : List ReadyEvent}
    (hnodup : (events.map ReadyEvent.fd).Nodup)
    (hregistered : ∀ event ∈ events, event.fd ∈ p.interest) (hlegal : p.LegalEvents h events) :
    (p.runEvents h events).2.Running ∧ p.Known h events := by
  induction events generalizing p with
  | nil => exact ⟨hp, trivial⟩
  | cons event events ih =>
    rw [List.map_cons, List.nodup_cons] at hnodup
    have hrest : ∀ event' ∈ events, event'.fd ∈ p.interest ∧ event'.fd ≠ event.fd := by
      intro event' hmem
      refine ⟨hregistered event' (List.mem_cons_of_mem _ hmem), fun heq => hnodup.1 ?_⟩
      rw [← heq]
      exact List.mem_map_of_mem hmem
    unfold ServerProcess.runEvents Known
    unfold LegalEvents at hlegal
    by_cases hevent : event.fd = p.eventFd
    · rw [if_pos hevent, if_pos hevent]
      exact ⟨hp, trivial⟩
    rw [if_neg hevent] at hlegal ⊢
    rw [if_neg hevent]
    by_cases hlisten : event.fd = p.listenFd
    · rw [if_pos hlisten] at hlegal ⊢
      rw [if_pos hlisten]
      refine ih (hp.accept h hlegal.1 _) h hnodup.2 (fun event' hmem => ?_) hlegal.2
      dsimp only [handleAccept]
      split_ifs
      · exact Finset.mem_insert_of_mem (hrest event' hmem).1
      · exact (hrest event' hmem).1
    · rw [if_neg hlisten] at hlegal ⊢
      rw [if_neg hlisten]
      obtain ⟨session, hvalid⟩ := hp.valid
      have hclient : event.fd ∈ p.server.clients := by
        have hmem := hregistered event (List.mem_cons_self ..)
        rw [hp.interest_eq, Finset.mem_union, Finset.mem_insert, Finset.mem_singleton] at hmem
        rcases hmem with (heq | heq) | hmem
        · exact absurd heq hlisten
        · exact absurd heq hevent
        · exact hmem
      have hnext := ih (hp.client h event.fd event.recv event.sends) h hnodup.2
        (fun event' hmem => mem_interest_handleClient hvalid h (hrest event' hmem).1
          (hp.interest_subset (hrest event' hmem).1) (hrest event' hmem).2 _ _) hlegal
      exact ⟨hnext.1, hclient, hnext.2⟩

/-! ### Starting and stopping -/

/-- The loop of `shutdown` closes the descriptors in the slots. -/
lemma openFds_foldl_closeFd {slots : List (Fin kMaxControlConnections)} (hnodup : slots.Nodup)
    {s : ControlPlaneServer} (hnonneg : ∀ slot ∈ slots, 0 ≤ s.clientFds slot) :
    (slots.foldl ControlPlaneServer.closeFd s).openFds =
      s.openFds \ (slots.map s.clientFds).toFinset := by
  induction slots generalizing s with
  | nil => exact (Finset.sdiff_empty).symm
  | cons slot slots ih =>
    rw [List.nodup_cons] at hnodup
    have hne : ∀ slot' ∈ slots, slot' ≠ slot := by
      rintro slot' hmem rfl
      exact hnodup.1 hmem
    have hclosed : s.closeFd slot =
        { s with
          openFds := s.openFds.erase (s.clientFds slot)
          clientFds := Function.update s.clientFds slot (-1) } :=
      if_pos (hnonneg slot (List.mem_cons_self ..))
    have hsame : slots.map (s.closeFd slot).clientFds = slots.map s.clientFds := by
      refine List.map_congr_left fun slot' hmem => ?_
      rw [hclosed]
      exact Function.update_of_ne (hne slot' hmem) _ _
    have hnonneg' : ∀ slot' ∈ slots, 0 ≤ (s.closeFd slot).clientFds slot' := by
      intro slot' hmem
      rw [hclosed]
      dsimp only
      rw [Function.update_of_ne (hne slot' hmem)]
      exact hnonneg slot' (List.mem_cons_of_mem _ hmem)
    rw [List.foldl_cons, ih hnodup.2 hnonneg', hsame, hclosed, List.map_cons, List.toFinset_cons,
      Finset.sdiff_insert, Finset.erase_sdiff_comm]

/-- The slots of the connections hold their descriptors. -/
lemma mem_slots {slot : Fin kMaxControlConnections} :
    slot ∈ p.slots ↔ p.server.Connected slot := by
  have hcount : p.server.connectionCount ≤ kMaxControlConnections :=
    p.server.connectionCount_le.trans p.server.maxConnections_le
  rw [slots, List.mem_take_iff_getElem]
  constructor
  · rintro ⟨i, hi, rfl⟩
    rw [List.getElem_finRange]
    exact (Nat.lt_min.mp hi).1
  · intro hslot
    refine ⟨slot, ?_, ?_⟩
    · rw [List.length_finRange]
      exact Nat.lt_min.mpr ⟨hslot, slot.isLt⟩
    · rw [List.getElem_finRange]
      rfl

lemma toFinset_slots : (p.slots.map p.server.clientFds).toFinset = p.server.clients := by
  ext fd
  rw [List.mem_toFinset, List.mem_map, ControlPlaneServer.mem_clients]
  simp only [mem_slots]

/-- Only the listening descriptor is held. -/
structure Listening (p : ServerProcess) : Prop where
  listen_nonneg : 0 ≤ p.listenFd
  listen_notMem : p.listenFd ∉ p.others
  epoll_neg : p.epollFd < 0
  event_neg : p.eventFd < 0
  openFds_eq : p.server.openFds = insert p.listenFd p.others
  interest_eq : p.interest = ∅

/-- The listening descriptor and the epoll descriptor are held. -/
structure Polling (p : ServerProcess) : Prop where
  listen_nonneg : 0 ≤ p.listenFd
  listen_notMem : p.listenFd ∉ p.others
  epoll_nonneg : 0 ≤ p.epollFd
  epoll_notMem : p.epollFd ∉ insert p.listenFd p.others
  event_neg : p.eventFd < 0
  openFds_eq : p.server.openFds = insert p.epollFd (insert p.listenFd p.others)

/-- All three descriptors of the server itself are held, and no connection. -/
structure Open (p : ServerProcess) : Prop where
  listen_nonneg : 0 ≤ p.listenFd
  listen_notMem : p.listenFd ∉ p.others
  epoll_nonneg : 0 ≤ p.epollFd
  epoll_notMem : p.epollFd ∉ insert p.listenFd p.others
  event_nonneg : 0 ≤ p.eventFd
  event_notMem : p.eventFd ∉ insert p.epollFd (insert p.listenFd p.others)
  openFds_eq : p.server.openFds = insert p.eventFd (insert p.epollFd (insert p.listenFd p.others))

lemma Listening.closeListen (hp : p.Listening) : p.closeListen.Stopped := by
  obtain ⟨hlisten, hnotMem, hepoll, hevent, hopen, hinterest⟩ := hp
  refine ⟨?_, hepoll, hevent, ?_, ?_⟩
  · simp [ServerProcess.closeListen, hlisten]
  · simp [ServerProcess.closeListen, closed, hlisten, hopen, hnotMem]
  · simp [ServerProcess.closeListen, closed, hinterest]

lemma Polling.closeEpoll (hp : p.Polling) : p.closeEpoll.Listening := by
  obtain ⟨hlisten, hlisten', hepoll, hepoll', hevent, hopen⟩ := hp
  refine ⟨hlisten, hlisten', ?_, hevent, ?_, rfl⟩
  · simp [ServerProcess.closeEpoll, hepoll]
  · simp only [ServerProcess.closeEpoll, closed, if_pos hepoll, hopen]
    exact Finset.erase_insert hepoll'

lemma Open.closeEvent (hp : p.Open) : p.closeEvent.Polling := by
  obtain ⟨hlisten, hlisten', hepoll, hepoll', hevent, hevent', hopen⟩ := hp
  refine ⟨hlisten, hlisten', hepoll, hepoll', ?_, ?_⟩
  · simp [ServerProcess.closeEvent, hevent]
  · simp only [ServerProcess.closeEvent, closed, if_pos hevent, hopen]
    exact Finset.erase_insert hevent'

lemma Open.own_nodup (hp : p.Open) : [p.listenFd, p.epollFd, p.eventFd].Nodup := by
  have hepoll := hp.epoll_notMem
  have hevent := hp.event_notMem
  simp only [Finset.mem_insert, not_or] at hepoll hevent
  simp only [List.nodup_cons, List.mem_cons, List.not_mem_nil, or_false, not_or,
    not_false_eq_true, List.nodup_nil, and_true]
  exact ⟨⟨fun heq => hepoll.1 heq.symm, fun heq => hevent.2.1 heq.symm⟩,
    fun heq => hevent.1 heq.symm⟩

lemma Open.running (hp : p.Open) (hinit : p.initialized = true)
    (hcount : p.server.connectionCount = 0) (hinterest : p.interest = {p.listenFd, p.eventFd}) :
    p.Running := by
  have hclients := ControlPlaneServer.clients_of_count hcount
  have hepoll := hp.epoll_notMem
  have hevent := hp.event_notMem
  simp only [Finset.mem_insert, not_or] at hepoll hevent
  refine ⟨hinit, hp.own_nodup, ?_, ?_, ?_, ?_, ?_, ?_, ⟨fun _ => {}, ?_, ?_⟩⟩
  · simp [own, hp.listen_nonneg, hp.epoll_nonneg, hp.event_nonneg]
  · rw [hp.openFds_eq, hclients, Finset.union_empty]
    ext fd
    simp only [own, Finset.mem_insert, Finset.mem_union, Finset.mem_singleton]
    tauto
  · simp [own, hp.listen_notMem, hepoll.2, hevent.2.2]
  · rw [hclients]
    exact Finset.disjoint_empty_right _
  · rw [hclients]
    exact Finset.disjoint_empty_right _
  · rw [hinterest, hclients, Finset.union_empty]
  · intro i _ hi
    rw [ControlPlaneServer.Connected, hcount] at hi
    exact absurd hi (Nat.not_lt_zero _)
  · intro i hi
    rw [ControlPlaneServer.Connected, hcount] at hi
    exact absurd hi (Nat.not_lt_zero _)

/-- `init` succeeds and the server runs, or it fails and holds nothing. -/
def Settles (out : ControlPlaneStatus × ServerProcess) : Prop :=
  if out.1 = .ok then out.2.Running else out.2.initialized = false ∧ out.2.Stopped

lemma settles_failed {status : ControlPlaneStatus} (hstatus : status ≠ .ok)
    (hinit : p.initialized = false) (hp : p.Stopped) : Settles (status, p) := by
  rw [Settles, if_neg hstatus]
  exact ⟨hinit, hp⟩

lemma settles_ok (hp : p.Running) : Settles (.ok, p) := by
  rw [Settles, if_pos rfl]
  exact hp

section

variable {calls : InitCalls} (hinit : p.initialized = false)
include hinit

lemma Open.register (hp : p.Open) : Settles (p.register calls) := by
  unfold ServerProcess.register
  split_ifs with hfailed
  · exact settles_failed (by decide) hinit hp.closeEvent.closeEpoll.closeListen
  · refine settles_ok (Open.running ?_ rfl (p.idle hinit) rfl)
    exact ⟨hp.listen_nonneg, hp.listen_notMem, hp.epoll_nonneg, hp.epoll_notMem, hp.event_nonneg,
      hp.event_notMem, hp.openFds_eq⟩

lemma Polling.openEvent (hp : p.Polling) (hnew : calls.eventfd ∉ p.server.openFds) :
    Settles (p.openEvent calls) := by
  rw [hp.openFds_eq] at hnew
  unfold ServerProcess.openEvent
  dsimp only
  split_ifs with hfailed
  · refine settles_failed (by decide) hinit (Polling.closeEpoll ?_).closeListen
    refine ⟨hp.listen_nonneg, hp.listen_notMem, hp.epoll_nonneg, hp.epoll_notMem, hfailed, ?_⟩
    exact (if_neg (Int.not_le_of_gt hfailed)).trans hp.openFds_eq
  · refine Open.register hinit ⟨hp.listen_nonneg, hp.listen_notMem, hp.epoll_nonneg,
      hp.epoll_notMem, Int.not_lt.mp hfailed, hnew, ?_⟩
    exact (if_pos (Int.not_lt.mp hfailed)).trans (congrArg _ hp.openFds_eq)

lemma Listening.openEpoll (hp : p.Listening) (hnew : calls.epollCreate ∉ p.server.openFds)
    (hnext : calls.eventfd ∉ insert calls.epollCreate p.server.openFds) :
    Settles (p.openEpoll calls) := by
  unfold ServerProcess.openEpoll
  dsimp only
  split_ifs with hfailed
  · refine settles_failed (by decide) hinit (Listening.closeListen ?_)
    refine ⟨hp.listen_nonneg, hp.listen_notMem, hfailed, hp.event_neg, ?_, hp.interest_eq⟩
    exact (if_neg (Int.not_le_of_gt hfailed)).trans hp.openFds_eq
  · have hopened : (p.opened calls.epollCreate).server.openFds =
        insert calls.epollCreate p.server.openFds := if_pos (Int.not_lt.mp hfailed)
    refine Polling.openEvent hinit ⟨hp.listen_nonneg, hp.listen_notMem, Int.not_lt.mp hfailed, ?_,
      hp.event_neg, ?_⟩ ?_
    · rwa [hp.openFds_eq] at hnew
    · exact hopened.trans (congrArg _ hp.openFds_eq)
    · dsimp only
      rwa [hopened]

lemma Stopped.openListen (hp : p.Stopped) (hlegal : p.LegalInit calls) :
    Settles (p.openListen calls) := by
  unfold ServerProcess.openListen
  dsimp only
  by_cases hfailed : calls.socket < 0
  · rw [if_pos hfailed]
    refine settles_failed (by decide) hinit ?_
    exact ⟨hfailed, hp.epoll_neg, hp.event_neg,
      (if_neg (Int.not_le_of_gt hfailed)).trans hp.openFds_eq, hp.interest_eq⟩
  have hopened : (p.opened calls.socket).server.openFds = insert calls.socket p.server.openFds :=
    if_pos (Int.not_lt.mp hfailed)
  have hlistening : Listening { p.opened calls.socket with listenFd := calls.socket } := by
    have hnew := hlegal.socket
    rw [hp.openFds_eq] at hnew
    exact ⟨Int.not_lt.mp hfailed, hnew, hp.epoll_neg, hp.event_neg,
      hopened.trans (congrArg _ hp.openFds_eq), hp.interest_eq⟩
  rw [if_neg hfailed]
  split_ifs
  · exact settles_failed (by decide) hinit hlistening.closeListen
  · exact settles_failed (by decide) hinit hlistening.closeListen
  · refine hlistening.openEpoll hinit ?_ ?_
    · dsimp only
      rw [hopened]
      exact hlegal.epollCreate
    · dsimp only
      rw [hopened]
      exact hlegal.eventfd

end

/-- `shutdown` closes everything the server holds. -/
lemma Running.shutdown (hp : p.Running) : p.shutdown.Stopped := by
  obtain ⟨session, hvalid⟩ := hp.valid
  have hnodup : p.slots.Nodup := (List.nodup_finRange _).sublist (List.take_sublist _ _)
  have hclosed : p.closeClients.server.openFds = p.others ∪ p.own := by
    have hnonneg : ∀ slot ∈ p.slots, 0 ≤ p.server.clientFds slot :=
      fun slot hslot => (hvalid.holds slot (mem_slots.mp hslot)).nonneg
    rw [closeClients]
    dsimp only
    rw [openFds_foldl_closeFd hnodup hnonneg, toFinset_slots, hp.openFds_eq,
      Finset.union_sdiff_cancel_right hp.apart]
  have hopen : p.closeClients.Open := by
    have hnonneg := hp.own_nonneg
    have hdistinct := hp.own_nodup
    have hapart := hp.others_own
    simp only [own, Finset.mem_insert, Finset.mem_singleton, forall_eq_or_imp, forall_eq,
      Finset.disjoint_insert_right, Finset.disjoint_singleton_right] at hnonneg hapart
    simp only [List.nodup_cons, List.mem_cons, List.not_mem_nil, or_false, not_or,
      not_false_eq_true, List.nodup_nil, and_true] at hdistinct
    refine ⟨hnonneg.1, hapart.1, hnonneg.2.1, ?_, hnonneg.2.2, ?_, ?_⟩
    · rw [Finset.mem_insert, not_or]
      exact ⟨fun heq => hdistinct.1.1 heq.symm, hapart.2.1⟩
    · rw [Finset.mem_insert, Finset.mem_insert, not_or, not_or]
      exact ⟨fun heq => hdistinct.2 heq.symm, fun heq => hdistinct.1.2 heq.symm, hapart.2.2⟩
    · rw [hclosed]
      ext fd
      simp only [own, closeClients, Finset.mem_insert, Finset.mem_union, Finset.mem_singleton]
      tauto
  have hstopped := hopen.closeEvent.closeEpoll.closeListen
  exact ⟨hstopped.listen_neg, hstopped.epoll_neg, hstopped.event_neg, hstopped.openFds_eq,
    hstopped.interest_eq⟩

lemma Stopped.shutdown (hinit : p.initialized = false) (hp : p.Stopped) :
    p.shutdown.Stopped := by
  have hslots : p.slots = [] := by
    rw [slots, p.idle hinit, List.take_zero]
  obtain ⟨hlisten, hepoll, hevent, hopen, -⟩ := hp
  refine ⟨?_, ?_, ?_, ?_, ?_⟩ <;>
    simp [ServerProcess.shutdown, closeListen, closeEpoll, closeEvent, closed, closeClients,
      Int.not_le_of_gt, hlisten, hepoll, hevent, hslots, hopen]

/-! ### Whole runs -/

/-- A connection does not care which other descriptors are open. -/
lemma valid_openFds {s : ControlPlaneServer} {session : ℤ → Session}
    (h : ServerRun.Valid ⟨s, session⟩) {openFds : Finset ℤ} (hopen : s.clients ⊆ openFds) :
    ServerRun.Valid ⟨{ s with openFds }, session⟩ := by
  refine ⟨h.distinct, fun i hi => ?_⟩
  exact (h.holds i hi).congr rfl (hopen (s.mem_clients.mpr ⟨i, hi, rfl⟩)) rfl

lemma Running.openOther (hp : p.Running) {fd : ℤ} (hfd : 0 ≤ fd) (hnew : fd ∉ p.server.openFds) :
    (p.call (.openOther fd)).Running := by
  obtain ⟨hinit, hnodup, hnonneg, hopen, hother, hothers, howns, hinterest, session, hvalid⟩ := hp
  have hopened : (p.opened fd).server.openFds = insert fd p.server.openFds := if_pos hfd
  have hclients : p.server.clients ⊆ insert fd p.server.openFds := by
    rw [hopen]
    exact Finset.subset_union_right.trans (Finset.subset_insert _ _)
  rw [hopen, Finset.notMem_union, Finset.notMem_union] at hnew
  refine ⟨hinit, hnodup, hnonneg, ?_, ?_, ?_, howns, hinterest, session, ?_⟩
  · refine hopened.trans ?_
    rw [hopen, ← Finset.insert_union, ← Finset.insert_union]
    rfl
  · exact Finset.disjoint_insert_left.mpr ⟨hnew.1.2, hother⟩
  · exact Finset.disjoint_insert_left.mpr ⟨hnew.2, hothers⟩
  · have hvalid' := valid_openFds hvalid (hopened ▸ hclients)
    exact hvalid'

lemma Running.closeOther (hp : p.Running) {fd : ℤ} (hfd : 0 ≤ fd) (hmem : fd ∈ p.others) :
    (p.call (.closeOther fd)).Running := by
  obtain ⟨hinit, hnodup, hnonneg, hopen, hother, hothers, howns, hinterest, session, hvalid⟩ := hp
  have hown : fd ∉ p.own := Finset.disjoint_left.mp hother hmem
  have hclient : fd ∉ p.server.clients := Finset.disjoint_left.mp hothers hmem
  have hclosed : (p.closed fd).server.openFds = p.server.openFds.erase fd := if_pos hfd
  have herased : p.server.openFds.erase fd = p.others.erase fd ∪ p.own ∪ p.server.clients := by
    rw [hopen, Finset.erase_union_distrib, Finset.erase_union_distrib,
      Finset.erase_eq_of_notMem hown, Finset.erase_eq_of_notMem hclient]
  have hregistered : fd ∉ p.interest := by
    rw [hinterest, Finset.notMem_union]
    refine ⟨fun hin => hown ?_, hclient⟩
    simp only [own, Finset.mem_insert, Finset.mem_singleton] at hin ⊢
    tauto
  have hclients : p.server.clients ⊆ (p.closed fd).server.openFds := by
    rw [hclosed, herased]
    exact Finset.subset_union_right
  refine ⟨hinit, hnodup, hnonneg, hclosed.trans herased, ?_, ?_, howns, ?_, session, ?_⟩
  · exact hother.mono_left (Finset.erase_subset _ _)
  · exact hothers.mono_left (Finset.erase_subset _ _)
  · exact (if_pos hfd).trans ((Finset.erase_eq_of_notMem hregistered).trans hinterest)
  · exact valid_openFds hvalid hclients

/-- Between calls the server runs or holds nothing. -/
def Sound (p : ServerProcess) : Prop := p.Running ∨ (p.initialized = false ∧ p.Stopped)

lemma Settles.sound {out : ControlPlaneStatus × ServerProcess} (h : Settles out) :
    out.2.Sound := by
  rw [Settles] at h
  split_ifs at h
  · exact Or.inl h
  · exact Or.inr h

lemma Sound.init (hp : p.Sound) {calls : InitCalls} (hlegal : p.LegalInit calls)
    (config : ControlPlaneConfig) (core : ControlPlaneCore) :
    (p.init config core calls).2.Sound := by
  unfold ServerProcess.init
  split_ifs with hinit hvalid
  · exact hp
  · rcases hp with hrunning | ⟨hstopped, hp⟩
    · exact absurd hrunning.initialized hinit
    · refine Settles.sound (Stopped.openListen hstopped ?_ ?_)
      · exact ⟨hp.listen_neg, hp.epoll_neg, hp.event_neg, hp.openFds_eq, hp.interest_eq⟩
      · exact ⟨hlegal.socket, hlegal.epollCreate, hlegal.eventfd⟩
  · exact hp

lemma Sound.runOnce (hp : p.Sound) {wait : WaitResult} (hlegal : p.Legal (.runOnce wait)) :
    (p.runOnce wait).2.Sound := by
  unfold ServerProcess.runOnce
  split_ifs with hinit
  · cases wait with
    | interrupted | failed => exact hp
    | ready events =>
      rcases hp with hp | ⟨hstopped, -⟩
      · have hwait := hlegal hinit
        exact Or.inl (hp.runEvents hinit hwait.nodup hwait.registered (hwait.calls hinit)).1
      · exact absurd (hstopped.symm.trans hinit) Bool.false_ne_true
  · exact hp

lemma Reachable.sound (h : Reachable p) : p.Sound := by
  induction h with
  | constructed others =>
    have hneg : (-1 : ℤ) < 0 := by decide
    exact Or.inr ⟨rfl, hneg, hneg, hneg, rfl, rfl⟩
  | @call p c hp hlegal ih =>
    cases c with
    | init config core calls => exact ih.init hlegal config core
    | runOnce wait => exact ih.runOnce hlegal
    | requestShutdown =>
      unfold ServerProcess.call ServerProcess.requestShutdown
      split_ifs
      · rcases ih with ⟨h1, h2, h3, h4, h5, h6, h7, h8, h9⟩ | ⟨hinit, h1, h2, h3, h4, h5⟩
        · exact Or.inl ⟨h1, h2, h3, h4, h5, h6, h7, h8, h9⟩
        · exact Or.inr ⟨hinit, h1, h2, h3, h4, h5⟩
      · exact ih
    | shutdown =>
      rcases ih with hrunning | ⟨hinit, hstopped⟩
      · exact Or.inr ⟨rfl, hrunning.shutdown⟩
      · exact Or.inr ⟨rfl, hstopped.shutdown hinit⟩
    | openOther fd =>
      rcases ih with hrunning | ⟨hinit, hstopped⟩
      · exact Or.inl (hrunning.openOther hlegal.1 hlegal.2)
      · refine Or.inr ⟨hinit, hstopped.listen_neg, hstopped.epoll_neg, hstopped.event_neg, ?_,
          hstopped.interest_eq⟩
        exact (if_pos hlegal.1).trans (congrArg _ hstopped.openFds_eq)
    | closeOther fd =>
      rcases ih with hrunning | ⟨hinit, hstopped⟩
      · exact Or.inl (hrunning.closeOther hlegal.1 hlegal.2)
      · refine Or.inr ⟨hinit, hstopped.listen_neg, hstopped.epoll_neg, hstopped.event_neg, ?_, ?_⟩
        · exact (if_pos hlegal.1).trans (congrArg (Finset.erase · fd) hstopped.openFds_eq)
        · refine (if_pos hlegal.1).trans ?_
          rw [hstopped.interest_eq, Finset.erase_empty]

/-- The descriptors that the server holds. -/
def held (p : ServerProcess) : Finset ℤ := p.own.filter (0 ≤ ·) ∪ p.server.clients

/-- The server neither leaks a descriptor nor closes one of the rest of the process, whatever its
system calls return and however its member functions are called one after another: the open
descriptors are always those of the others and those it holds; it holds none after a failed `init`
or a `shutdown`, and while it runs its three own ones and one for each connection, all different,
all but the epoll descriptor registered; and of the descriptors that `epoll_wait` reports,
`handle_client` is only ever given one that belongs to a connection. -/
theorem descriptors_accounted (h : Reachable p) :
    p.server.openFds = p.others ∪ p.held ∧ Disjoint p.others p.held ∧
    (p.initialized = false → p.held = ∅ ∧ p.interest = ∅) ∧
    (p.initialized = true → p.held.card = 3 + p.server.connectionCount ∧
      p.interest = {p.listenFd, p.eventFd} ∪ p.server.clients) ∧
    ∀ events, p.LegalWait events → ∀ hinit, p.Known hinit events := by
  rcases h.sound with hp | ⟨hinit, hp⟩
  · have hown : p.own.filter (0 ≤ ·) = p.own := Finset.filter_true_of_mem hp.own_nonneg
    have hcard : p.own.card = 3 := by
      have hlist : [p.listenFd, p.epollFd, p.eventFd].toFinset = p.own := by simp [own]
      rw [← hlist, List.toFinset_card_of_nodup hp.own_nodup]
      rfl
    obtain ⟨session, hvalid⟩ := hp.valid
    refine ⟨?_, ?_, fun hfalse => ?_, fun _ => ⟨?_, hp.interest_eq⟩, ?_⟩
    · rw [held, hown, hp.openFds_eq, Finset.union_assoc]
    · rw [held, hown]
      exact Finset.disjoint_union_right.mpr ⟨hp.others_own, hp.others_clients⟩
    · exact absurd (hfalse.symm.trans hp.initialized) Bool.false_ne_true
    · rw [held, hown, Finset.card_union_of_disjoint hp.own_clients, hcard,
        ControlPlaneServer.card_clients hvalid.distinct]
    · intro events hwait hinit
      exact (hp.runEvents hinit hwait.nodup hwait.registered (hwait.calls hinit)).2
  · have hclients := ControlPlaneServer.clients_of_count (p.idle hinit)
    have hheld : p.held = ∅ := by
      rw [held, hclients, Finset.union_empty, Finset.filter_eq_empty_iff]
      simp [own, hp.listen_neg, hp.epoll_neg, hp.event_neg]
    refine ⟨?_, ?_, fun _ => ⟨hheld, hp.interest_eq⟩, fun htrue => ?_, fun _ _ htrue => ?_⟩
    · rw [hheld, Finset.union_empty, hp.openFds_eq]
    · rw [hheld]
      exact Finset.disjoint_empty_right _
    · exact absurd (hinit.symm.trans htrue) Bool.false_ne_true
    · exact absurd (hinit.symm.trans htrue) Bool.false_ne_true

/-- The server after `init`, in a process with the standard descriptors. -/
def started : ServerProcess :=
  ((constructed {0, 1, 2}).init {} .fresh ⟨3, true, true, 4, 5, true, true⟩).2

lemma reachable_started : Reachable started := by
  refine .call (.init {} .fresh ⟨3, true, true, 4, 5, true, true⟩) (.constructed {0, 1, 2}) ?_
  constructor <;> decide

/-- A client connects. -/
def connects : ReadyEvent := ⟨3, 6, true, .wouldBlock, fun _ => true⟩

lemma legalWait_connects : started.LegalWait [connects] where
  nodup := List.nodup_singleton _
  registered event hmem := by
    rw [List.mem_singleton.mp hmem]
    decide
  signalled hmem := absurd hmem (by decide)
  reported hsignalled := absurd hsignalled (by decide)
  calls _ := by
    refine (if_neg (by decide)).mpr ((if_pos rfl).mpr ⟨fun _ => ?_, trivial⟩)
    decide

theorem descriptors_accounted_started :
    started.held.card = 3 ∧ started.server.openFds = {0, 1, 2} ∪ started.held ∧
      (started.call (.runOnce (.ready [connects]))).held.card = 4 ∧
      started.Known rfl [connects] := by
  obtain ⟨hopen, -, -, hrunning, hknown⟩ := descriptors_accounted reachable_started
  have hnext := descriptors_accounted
    (.call (.runOnce (.ready [connects])) reachable_started fun _ => legalWait_connects)
  exact ⟨(hrunning rfl).1, hopen, (hnext.2.2.2.1 rfl).1, hknown _ legalWait_connects rfl⟩

end ServerProcess

end ChronosX
