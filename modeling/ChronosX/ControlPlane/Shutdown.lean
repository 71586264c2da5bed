import ChronosX.ControlPlane.Descriptors

/-!
# Shutting the server down

`run` goes from one `run_once` to the next until `running` is false or the event descriptor is
ready. The event descriptor is written to once and never read, and the array of events has room for
every registered descriptor, so a request is seen by the next wait that returns events.
-/

namespace ChronosX

namespace ServerProcess

variable {p : ServerProcess}

/-! ### One iteration -/

/-- A batch ends the loop exactly if the event descriptor is in it. -/
lemma runEvents_status (h : p.initialized = true) (events : List ReadyEvent) :
    (p.runEvents h events).1 =
      if p.eventFd ∈ events.map ReadyEvent.fd then .shutdownRequested else .ok := by
  induction events generalizing p with
  | nil => rfl
  | cons event events ih =>
    unfold runEvents
    rw [List.map_cons]
    by_cases hevent : event.fd = p.eventFd
    · rw [if_pos hevent, if_pos (by rw [hevent]; exact List.mem_cons_self ..)]
    · have hmem : p.eventFd ∈ event.fd :: events.map ReadyEvent.fd ↔
          p.eventFd ∈ events.map ReadyEvent.fd := by
        rw [List.mem_cons]
        exact or_iff_right fun heq => hevent heq.symm
      rw [if_neg hevent]
      simp only [hmem]
      by_cases hlisten : event.fd = p.listenFd
      · rw [if_pos hlisten]
        exact ih (p := p.handleAccept h event.client event.added) h
      · rw [if_neg hlisten]
        exact ih (p := p.handleClient h event.fd event.recv event.sends) h

lemma runEvents_kept (h : p.initialized = true) (events : List ReadyEvent) :
    (p.runEvents h events).2.initialized = true ∧
      (p.runEvents h events).2.signalled = p.signalled := by
  induction events generalizing p with
  | nil => exact ⟨h, rfl⟩
  | cons event events ih =>
    unfold runEvents
    split_ifs
    · exact ⟨h, rfl⟩
    · exact ih (p := p.handleAccept h event.client event.added) h
    · exact ih (p := p.handleClient h event.fd event.recv event.sends) h

/-- There is always room for every registered descriptor in the array of events. -/
lemma Running.card_interest (hp : p.Running) : p.interest.card ≤ kMaxEpollEvents := by
  obtain ⟨session, hvalid⟩ := hp.valid
  have hcount : p.server.connectionCount ≤ kMaxControlConnections :=
    p.server.connectionCount_le.trans p.server.maxConnections_le
  rw [hp.interest_eq]
  calc ({p.listenFd, p.eventFd} ∪ p.server.clients).card
      ≤ ({p.listenFd, p.eventFd} : Finset ℤ).card + p.server.clients.card :=
        Finset.card_union_le _ _
    _ ≤ 2 + kMaxControlConnections := by
        rw [ControlPlaneServer.card_clients hvalid.distinct]
        exact Nat.add_le_add Finset.card_le_two hcount
    _ ≤ kMaxEpollEvents := by decide

lemma runOnce_kept (h : p.initialized = true) (wait : WaitResult) :
    (p.runOnce wait).2.initialized = true ∧ (p.runOnce wait).2.signalled = p.signalled := by
  unfold runOnce
  rw [dif_pos h]
  cases wait with
  | interrupted | failed => exact ⟨h, rfl⟩
  | ready events => exact runEvents_kept h events

/-- `run_once` asks for the end exactly after a request. -/
lemma Running.runOnce_status (hp : p.Running) {wait : WaitResult}
    (hlegal : p.Legal (.runOnce wait)) :
    (p.runOnce wait).1 = .shutdownRequested ↔
      (∃ events, wait = .ready events) ∧ p.signalled = true := by
  unfold runOnce
  rw [dif_pos hp.initialized]
  cases wait with
  | interrupted | failed => simp
  | ready events =>
    have hwait := hlegal hp.initialized
    have hiff : p.eventFd ∈ events.map ReadyEvent.fd ↔ p.signalled = true :=
      ⟨hwait.signalled, fun hsignalled => hwait.reported hsignalled hp.card_interest⟩
    dsimp only
    rw [runEvents_status]
    simp [hiff]

/-! ### The loop -/

/-- The step ends the loop: `running` is false, or there are events after a request. -/
def Ends (requested : Prop) : LoopStep → Prop
  | .iterate running wait => running = false ∨ ((∃ events, wait = .ready events) ∧ requested)
  | .request              => False

/-- The loop goes on after the first step of a run exactly as the steps behind it say. -/
lemma exists_ends_cons {step : LoopStep} {steps : List LoopStep} {requested : Prop} :
    (∃ front last rest, step :: steps = front ++ last :: rest ∧
      Ends (requested ∨ LoopStep.request ∈ front) last) ↔
    Ends requested step ∨ ∃ front last rest, steps = front ++ last :: rest ∧
      Ends ((requested ∨ step = .request) ∨ LoopStep.request ∈ front) last := by
  constructor
  · rintro ⟨front, last, rest, heq, hends⟩
    cases front with
    | nil =>
      obtain ⟨rfl, rfl⟩ := List.cons.inj heq
      refine Or.inl ?_
      simpa using hends
    | cons first front =>
      obtain ⟨rfl, rfl⟩ := List.cons.inj heq
      refine Or.inr ⟨front, last, rest, rfl, ?_⟩
      simpa only [List.mem_cons, or_assoc, eq_comm] using hends
  · rintro (hends | ⟨front, last, rest, rfl, hends⟩)
    · refine ⟨[], step, steps, rfl, ?_⟩
      simpa using hends
    · refine ⟨step :: front, last, rest, rfl, ?_⟩
      simpa only [List.mem_cons, or_assoc, eq_comm] using hends

lemma Reachable.runOnce (h : Reachable p) {wait : WaitResult} (hlegal : p.Legal (.runOnce wait)) :
    Reachable (p.runOnce wait).2 := .call (.runOnce wait) h hlegal

/-- `run` returns exactly when it should. For every order of its iterations with requests from
another thread: it has returned after these steps if and only if in one of its iterations `running`
was false, or `epoll_wait` returned events after a request to shut down; neither an interrupted nor
a failed wait ends it, and no request is lost. -/
theorem run_returns_iff (h : Reachable p) (hinit : p.initialized = true) {steps : List LoopStep}
    (hlegal : p.LegalSteps steps) :
    (p.run steps).1 = true ↔ ∃ front last rest, steps = front ++ last :: rest ∧
      Ends (p.signalled = true ∨ LoopStep.request ∈ front) last := by
  induction steps generalizing p with
  | nil => simp [run]
  | cons step steps ih =>
    have hp : p.Running := h.sound.resolve_right fun hstopped =>
      Bool.false_ne_true (hstopped.1.symm.trans hinit)
    rw [exists_ends_cons]
    cases step with
    | request =>
      have hevent : p.eventFd ≥ 0 := hp.own_nonneg p.eventFd (by simp [own])
      have hrequested : p.requestShutdown = { p with signalled := true } := if_pos hevent
      have hreachable : Reachable p.requestShutdown := .call .requestShutdown h trivial
      have hnext := ih hreachable (by rw [hrequested]; exact hinit) hlegal
      rw [run, hnext, hrequested]
      simp [Ends]
    | iterate running wait =>
      cases running with
      | false => simp [run, Ends]
      | true =>
        obtain ⟨hinit', hsignalled⟩ := runOnce_kept hinit wait
        have hstatus := hp.runOnce_status hlegal.1
        have hnext := ih (h.runOnce hlegal.1) hinit' hlegal.2
        rw [hsignalled] at hnext
        rw [run, if_pos rfl]
        dsimp only
        split_ifs with hended
        · simp [Ends, hstatus.mp hended]
        · rw [hnext]
          rw [hstatus] at hended
          simp [Ends, hended]

/-- The event descriptor is ready. -/
def woken : ReadyEvent := ⟨5, -1, false, .wouldBlock, fun _ => true⟩

/-- A request between an interrupted wait and the next one. -/
theorem run_returns_iff_woken :
    (started.run [.iterate true .interrupted, .request, .iterate true (.ready [woken])]).1 =
      true := by
  have hlegal : started.LegalSteps
      [.iterate true .interrupted, .request, .iterate true (.ready [woken])] := by
    refine ⟨trivial, fun _ => ?_, trivial⟩
    constructor
    · exact List.nodup_singleton _
    · intro event hmem
      rw [List.mem_singleton.mp hmem]
      decide
    · exact fun _ => rfl
    · exact fun _ _ => List.mem_singleton_self _
    · exact fun _ => (if_pos rfl).mpr trivial
  refine (run_returns_iff reachable_started rfl hlegal).mpr ?_
  exact ⟨[.iterate true .interrupted, .request], _, [], rfl, Or.inr ⟨⟨_, rfl⟩, Or.inr (by simp)⟩⟩

end ServerProcess

end ChronosX
