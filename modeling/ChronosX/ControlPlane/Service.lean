import ChronosX.ControlPlane.Answers
import ChronosX.ControlPlane.Delivery
import ChronosX.ControlPlane.Sending

/-!
# The server as a service

Any number of clients send requests to one server, and its events interleave in any order. Beside
the server a run keeps a log of all messages in the order in which they were dispatched, each with
its reply, and for each connection the bytes of replies that its socket has taken. In every
reachable state the core is what the messages of the log make of a fresh core one after another,
and each reply is the reply of the core at that point.
-/

namespace ChronosX

/-! ### The loop of `handle_client` -/

variable {core : ControlPlaneCore} {b : ConnectionBuffer} {n : ℕ}

/-- One round of the loop: the message is handled and its reply is sent, or the connection is
dropped because it cannot be. -/
lemma serveLoop_round (core : ControlPlaneCore) (handled : UInt64) (sends : ℕ → Bool)
    (h : takenLength b.readable = some n) :
    let message := b.readable.take n
    serveLoop core b handled sends =
      if sends 0 then
        let served := serveLoop (core.afterMessages [message]) (b.consume n) (handled + 1)
          fun m => sends (m + 1)
        { served with
          dispatched := message :: served.dispatched
          replies := core.answer message :: served.replies }
      else ⟨b.consume n, core.afterMessages [message], handled, [message], [core.answer message],
        false⟩ := by
  intro message
  have hcomplete : b.hasCompleteMessage = true := by
    rw [b.hasCompleteMessage_eq, h]
    rfl
  rw [serveLoop, if_pos hcomplete]
  dsimp only
  rw [if_neg (ConnectionBuffer.not_badLength hcomplete), ConnectionBuffer.nextMessageLength_eq h,
    if_pos (core.bytesWritten_pos _)]
  rfl

/-- The number of replies that were sent, of those to the first messages. -/
def sentCount (sends : ℕ → Bool) (messages : ℕ) : ℕ := (List.range messages).countP sends

lemma sentCount_succ (sends : ℕ → Bool) (messages : ℕ) :
    sentCount sends (messages + 1) =
      sentCount (fun m => sends (m + 1)) messages + if sends 0 then 1 else 0 := by
  rw [sentCount, List.range_succ_eq_map, List.countP_cons, List.countP_map]
  rfl

/-- What the loop has done: the messages are handled one after another, and only the last reply
can fail to be sent, which costs the connection. -/
structure Served.Handles (core : ControlPlaneCore) (handled : UInt64) (sends : ℕ → Bool)
    (served : Served) : Prop where
  core_eq : served.core = core.afterMessages served.dispatched
  replies_eq : served.replies = core.answers served.dispatched
  sent : ∀ i, i + 1 < served.dispatched.length → sends i = true
  sent_of_keep : served.keep = true → ∀ i < served.dispatched.length, sends i = true
  handled_eq : served.messagesHandled =
    handled + UInt64.ofNat (sentCount sends served.dispatched.length)

lemma serveLoop_handles (core : ControlPlaneCore) (b : ConnectionBuffer) (handled : UInt64)
    (sends : ℕ → Bool) :
    Served.Handles core handled sends (serveLoop core b handled sends) := by
  induction hbs : b.readable using cutMessages_induction generalizing core b handled sends with
  | none bs h =>
    subst hbs
    rw [serveLoop_none h]
    refine ⟨rfl, rfl, fun i hi => ?_, fun _ i hi => ?_, ?_⟩
    · exact absurd hi (Nat.not_lt_zero _)
    · exact absurd hi (Nat.not_lt_zero _)
    · exact (UInt64.add_zero handled).symm
  | some bs n h ih =>
    subst hbs
    rw [serveLoop_round core handled sends h]
    cases hsent : sends 0 with
    | false =>
      rw [if_neg Bool.false_ne_true]
      refine ⟨rfl, rfl, fun i hi => ?_, fun hkeep => (by cases hkeep), ?_⟩
      · exact absurd (Nat.lt_of_succ_lt_succ hi) (Nat.not_lt_zero _)
      · rw [List.length_singleton, sentCount_succ, hsent]
        exact (UInt64.add_zero handled).symm
    | true =>
      have hnext := ih (core.afterMessages [b.readable.take n]) (b.consume n) (handled + 1)
        (fun m => sends (m + 1)) (b.readable_consume n)
      rw [if_pos rfl]
      refine ⟨hnext.core_eq, congrArg _ hnext.replies_eq, fun i hi => ?_, fun hkeep i hi => ?_, ?_⟩
      · cases i with
        | zero => exact hsent
        | succ i => exact hnext.sent i (Nat.lt_of_succ_lt_succ hi)
      · cases i with
        | zero => exact hsent
        | succ i => exact hnext.sent_of_keep hkeep i (Nat.lt_of_succ_lt_succ hi)
      · dsimp only
        rw [hnext.handled_eq, List.length_cons, sentCount_succ, hsent, if_pos rfl,
          UInt64.ofNat_add, UInt64.add_assoc, UInt64.add_comm 1]
        rfl

/-- A chunk that does not fit handles nothing. -/
lemma receiveChunk_handles (core : ControlPlaneCore) (b : ConnectionBuffer) (handled : UInt64)
    (chunk : Chunk) (sends : ℕ → Bool) :
    Served.Handles core handled sends (receiveChunk core b handled chunk sends) := by
  rw [receiveChunk]
  dsimp only
  split_ifs
  · refine ⟨rfl, rfl, fun i hi => ?_, fun hkeep => (by cases hkeep), ?_⟩
    · exact absurd hi (Nat.not_lt_zero _)
    · exact (UInt64.add_zero handled).symm
  · exact serveLoop_handles core _ handled sends

/-- Whether or not the connection is kept, the messages come from the front of the cut. -/
lemma serveLoop_dispatched (core : ControlPlaneCore) (b : ConnectionBuffer) (handled : UInt64)
    (sends : ℕ → Bool) :
    (serveLoop core b handled sends).dispatched <+: (cutMessages b.readable).1 := by
  induction hbs : b.readable using cutMessages_induction generalizing core b handled sends with
  | none bs h =>
    subst hbs
    rw [serveLoop_none h]
    exact List.nil_prefix
  | some bs n h ih =>
    subst hbs
    rw [serveLoop_round core handled sends h, cutMessages_some h]
    split_ifs
    · rw [List.cons_prefix_cons]
      exact ⟨rfl, ih _ (b.consume n) _ _ (b.readable_consume n)⟩
    · rw [List.cons_prefix_cons]
      exact ⟨rfl, List.nil_prefix⟩

lemma receiveChunk_dispatched (core : ControlPlaneCore) (b : ConnectionBuffer) (handled : UInt64)
    (chunk : Chunk) (sends : ℕ → Bool) :
    (receiveChunk core b handled chunk sends).dispatched <+:
      (cutMessages (b.readable ++ chunk.bytes)).1 := by
  by_cases hfits : b.readable.length + chunk.bytes.length ≤ kControlReadBufferBytes
  · rw [b.length_readable] at hfits
    rw [← (b.readable_append hfits).2.2, receiveChunk]
    dsimp only
    split_ifs
    · exact List.nil_prefix
    · exact serveLoop_dispatched _ _ _ _
  · rw [(receiveChunk_dropped core handled (Nat.lt_of_not_le hfits) sends).2]
    exact List.nil_prefix

/-! ### The handlers -/

namespace ControlPlaneServer

variable (s : ControlPlaneServer)

lemma removeConnection_core (slot : ℕ) :
    (s.removeConnection slot).core = s.core ∧
      (s.removeConnection slot).messagesHandled = s.messagesHandled := by
  unfold removeConnection
  split_ifs <;> exact ⟨rfl, rfl⟩

lemma handleAccept_core (client : ℤ) (added : Bool) :
    (s.handleAccept client added).core = s.core ∧
      (s.handleAccept client added).messagesHandled = s.messagesHandled := by
  unfold handleAccept
  split_ifs <;> exact ⟨rfl, rfl⟩

/-- `handle_client` handles the messages it dispatches one after another, and gives to `send_all`
the reply to each. -/
lemma handleClient_handles (fd : ℤ) (recv : RecvResult) (sends : ℕ → Bool) :
    let out := s.handleClient fd recv sends
    out.1.core = s.core.afterMessages out.2.1 ∧ out.2.2 = s.core.answers out.2.1 ∧
      out.1.messagesHandled = s.messagesHandled + UInt64.ofNat (sentCount sends out.2.1.length) ∧
      ∀ i, i + 1 < out.2.1.length → sends i = true := by
  have hnothing : ∀ s' : ControlPlaneServer, s'.core = s.core ∧
      s'.messagesHandled = s.messagesHandled →
      s'.core = s.core.afterMessages [] ∧ [] = s.core.answers [] ∧
        s'.messagesHandled = s.messagesHandled + UInt64.ofNat (sentCount sends 0) ∧
        ∀ i, i + 1 < 0 → sends i = true := by
    intro s' hs'
    refine ⟨hs'.1, rfl, ?_, fun i hi => absurd hi (Nat.not_lt_zero _)⟩
    rw [hs'.2]
    exact (UInt64.add_zero _).symm
  intro out
  simp only [out, handleClient]
  by_cases hfound : s.findSlot fd = s.connectionCount
  · rw [dif_pos hfound]
    exact hnothing s ⟨rfl, rfl⟩
  · rw [dif_neg hfound]
    cases recv with
    | wouldBlock => exact hnothing s ⟨rfl, rfl⟩
    | closed => exact hnothing _ (s.removeConnection_core _)
    | failed => exact hnothing _ (s.removeConnection_core _)
    | data chunk =>
      obtain ⟨hcore, hreplies, hsent, -, hhandled⟩ := receiveChunk_handles s.core
        (s.buffers (s.slotOf (s.findSlot_lt hfound))) s.messagesHandled chunk sends
      dsimp only
      split_ifs
      · exact ⟨hcore, hreplies, hhandled, hsent⟩
      · rw [(removeConnection_core _ _).1, (removeConnection_core _ _).2]
        exact ⟨hcore, hreplies, hhandled, hsent⟩

end ControlPlaneServer

namespace ServerRun

variable {w : ServerRun}

/-- A removal leaves only connections that were there. -/
lemma connected_of_removeConnection {s : ControlPlaneServer} {slot : Fin kMaxControlConnections}
    (hslot : s.Connected slot) (hfd : 0 ≤ s.clientFds slot) {i : Fin kMaxControlConnections}
    (hi : (s.removeConnection slot).Connected i) :
    ∃ j, s.Connected j ∧ s.clientFds j = (s.removeConnection slot).clientFds i := by
  obtain ⟨-, source, hmoved⟩ := s.removeConnection_remains hslot hfd
  obtain ⟨hsource, -, hfds, -⟩ := hmoved i hi
  exact ⟨source i, hsource, hfds.symm⟩

/-- An event on a descriptor makes no new connection, and if it keeps that of the descriptor then
every reply has been sent. -/
lemma connected_of_ready (h : Valid w) (fd : ℤ) (recv : RecvResult) (sends : ℕ → Bool) :
    (∀ fd', (w.step (.ready fd recv sends)).IsConnected fd' → w.IsConnected fd') ∧
      ((w.step (.ready fd recv sends)).IsConnected fd →
        ∀ i < (w.server.handleClient fd recv sends).2.1.length, sends i = true) := by
  unfold step ControlPlaneServer.handleClient
  dsimp only
  by_cases hfound : w.server.findSlot fd = w.server.connectionCount
  · rw [dif_pos hfound]
    exact ⟨fun fd' hfd' => hfd', fun _ i hi => absurd hi (Nat.not_lt_zero _)⟩
  rw [dif_neg hfound]
  have hslot : w.server.Connected (w.server.slotOf (w.server.findSlot_lt hfound)) :=
    w.server.findSlot_lt hfound
  have hnonneg := (h.holds _ hslot).nonneg
  cases recv with
  | wouldBlock => exact ⟨fun fd' hfd' => hfd', fun _ i hi => absurd hi (Nat.not_lt_zero _)⟩
  | closed | failed =>
    refine ⟨?_, fun _ i hi => absurd hi (Nat.not_lt_zero _)⟩
    rintro fd' ⟨i, hi, rfl⟩
    exact connected_of_removeConnection hslot hnonneg hi
  | data chunk =>
    let slot := w.server.slotOf (w.server.findSlot_lt hfound)
    let served := receiveChunk w.server.core (w.server.buffers slot) w.server.messagesHandled chunk
      sends
    let kept : ControlPlaneServer := { w.server with
      buffers := Function.update w.server.buffers slot served.buffer
      core := served.core
      messagesHandled := served.messagesHandled }
    have hkept : kept.Connected slot := hslot
    have hdistinct : kept.Distinct := h.distinct
    dsimp only
    split_ifs with hkeep
    · refine ⟨fun fd' hfd' => hfd', fun _ => ?_⟩
      exact (receiveChunk_handles _ _ _ chunk sends).sent_of_keep hkeep
    · refine ⟨?_, ?_⟩
      · rintro fd' ⟨i, hi, rfl⟩
        exact connected_of_removeConnection hkept hnonneg hi
      · rintro ⟨i, hi, heq⟩
        have hne := removeConnection_ne hdistinct hkept hnonneg hi
        exact absurd (heq.trans (w.server.clientFds_findSlot hfound).symm) hne

/-- An accept makes no other connection. -/
lemma connected_of_accept {client : ℤ} {added : Bool} {fd : ℤ}
    (h : (w.step (.accept client added)).IsConnected fd) (hfd : fd ≠ client) :
    w.IsConnected fd := by
  obtain ⟨i, hi, rfl⟩ := h
  rw [step] at hi hfd ⊢
  unfold ControlPlaneServer.handleAccept at hi hfd ⊢
  split_ifs at hi hfd ⊢ with hnegative hfull hadded
  · exact ⟨i, hi, rfl⟩
  · exact ⟨i, hi, rfl⟩
  · exact ⟨i, hi, rfl⟩
  · dsimp only at hfd ⊢
    have hne : i ≠ ⟨w.server.connectionCount,
        (Nat.lt_of_not_ge hfull).trans_le w.server.maxConnections_le⟩ := by
      rintro rfl
      exact hfd (Function.update_self _ _ _)
    rw [Function.update_of_ne hne]
    refine ⟨i, Nat.lt_of_le_of_ne (Nat.le_of_lt_succ hi) ?_, rfl⟩
    exact fun heq => hne (Fin.ext heq)

/-- Only a connection dispatches messages. -/
lemma connected_of_dispatched {fd : ℤ} {recv : RecvResult} {sends : ℕ → Bool}
    (h : (w.server.handleClient fd recv sends).2.1 ≠ []) : w.IsConnected fd := by
  by_cases hfound : w.server.findSlot fd = w.server.connectionCount
  · unfold ControlPlaneServer.handleClient at h
    rw [dif_pos hfound] at h
    exact absurd rfl h
  · exact ⟨w.server.slotOf (w.server.findSlot_lt hfound), w.server.findSlot_lt hfound,
      w.server.clientFds_findSlot hfound⟩

/-- A session goes on with the messages that `handle_client` dispatches. -/
lemma dispatched_continued (s : ControlPlaneServer) (session : Session) (fd : ℤ)
    (recv : RecvResult) (sends : ℕ → Bool) :
    (continued session recv (s.handleClient fd recv sends).2.1).dispatched =
      session.dispatched ++ (s.handleClient fd recv sends).2.1 := by
  cases recv with
  | data chunk => rfl
  | wouldBlock | closed | failed =>
    unfold ControlPlaneServer.handleClient
    dsimp only
    split_ifs <;> exact (List.append_nil _).symm

/-- Connected or not, a descriptor has dispatched messages from the front of those in its chunks. -/
lemma Reachable.dispatched_prefix (h : Reachable w) (fd : ℤ) :
    (w.session fd).dispatched <+: (reassemble (w.session fd).received).1 := by
  induction h with
  | start => exact List.nil_prefix
  | @step w event hw hlegal ih =>
    cases event with
    | accept client added =>
      rw [ServerRun.step]
      dsimp only
      by_cases hfd : fd = client
      · rw [hfd, Function.update_self]
        exact List.nil_prefix
      · rw [Function.update_of_ne hfd]
        exact ih
    | ready fd' recv sends =>
      rw [ServerRun.step]
      dsimp only
      by_cases hfd : fd = fd'
      case neg =>
        rw [Function.update_of_ne hfd]
        exact ih
      subst hfd
      rw [Function.update_self]
      cases recv with
      | wouldBlock | closed | failed => exact ih
      | data chunk =>
        rw [continued, reassemble_append]
        dsimp only
        by_cases hfound : w.server.findSlot fd = w.server.connectionCount
        · unfold ControlPlaneServer.handleClient
          rw [dif_pos hfound, List.append_nil]
          exact ih.trans (List.prefix_append _ _)
        · have hslot : w.server.Connected (w.server.slotOf (w.server.findSlot_lt hfound)) :=
            w.server.findSlot_lt hfound
          have hfd := w.server.clientFds_findSlot hfound
          have hreassembled := (hw.valid.holds _ hslot).reassembled
          have hdata := w.server.handleClient_data hw.valid.distinct hslot chunk sends
          rw [hfd] at hreassembled hdata
          rw [hdata, ← hreassembled, List.prefix_append_right_inj]
          exact receiveChunk_dispatched _ _ _ _ _

end ServerRun

/-! ### Runs -/

/-- A message that was dispatched: the connection it came from, the reply given to `send_all`,
whether that has sent the reply, and the number of bytes of the reply that the socket has taken. -/
structure LogEntry where
  fd : ℤ
  message : List Byte
  reply : List Byte
  sent : Bool
  taken : ℕ

/-- The entries of messages that are dispatched one after another and of the replies given to
`send_all`; `outcomes i` is what the `i`-th call of it comes to. -/
def logEntries (fd : ℤ) :
    (outcomes : ℕ → Bool × ℕ) → (messages replies : List (List Byte)) → List LogEntry
  | outcomes, message :: messages, reply :: replies =>
    ⟨fd, message, reply, (outcomes 0).1, (outcomes 0).2⟩ ::
      logEntries fd (fun i => outcomes (i + 1)) messages replies
  | _, _, _                                         => []

section

variable (fd : ℤ) (outcomes : ℕ → Bool × ℕ) {messages replies : List (List Byte)} {e : LogEntry}

lemma logEntries_nil (replies : List (List Byte)) : logEntries fd outcomes [] replies = [] := by
  rw [logEntries]
  nofun

lemma fd_of_mem_logEntries (h : e ∈ logEntries fd outcomes messages replies) : e.fd = fd := by
  induction messages generalizing outcomes replies with
  | nil =>
    rw [logEntries_nil] at h
    cases h
  | cons message messages ih =>
    cases replies with
    | nil => cases h
    | cons reply replies =>
      rcases List.mem_cons.mp h with rfl | h
      · rfl
      · exact ih _ h

lemma sent_getElem?_logEntries {i : ℕ}
    (h : (logEntries fd outcomes messages replies)[i]? = some e) :
    e.sent = (outcomes i).1 ∧ i < messages.length := by
  induction messages generalizing outcomes replies i with
  | nil =>
    rw [logEntries_nil] at h
    cases h
  | cons message messages ih =>
    cases replies with
    | nil => cases h
    | cons reply replies =>
      cases i with
      | zero =>
        obtain rfl := Option.some.inj h
        exact ⟨rfl, Nat.zero_lt_succ _⟩
      | succ i =>
        obtain ⟨hsent, hlt⟩ := ih (fun i => outcomes (i + 1)) h
        exact ⟨hsent, Nat.succ_lt_succ hlt⟩

lemma sent_of_mem_logEntries (hsent : ∀ i < messages.length, (outcomes i).1 = true)
    (h : e ∈ logEntries fd outcomes messages replies) : e.sent = true := by
  obtain ⟨i, hi⟩ := List.mem_iff_getElem?.mp h
  obtain ⟨heq, hlt⟩ := sent_getElem?_logEntries _ _ hi
  rw [heq]
  exact hsent i hlt

/-- Every message has its reply. -/
lemma logEntries_lists (h : replies.length = messages.length) :
    (logEntries fd outcomes messages replies).map (·.message) = messages ∧
      (logEntries fd outcomes messages replies).map (·.reply) = replies ∧
      (logEntries fd outcomes messages replies).countP (·.sent) =
        sentCount (fun i => (outcomes i).1) messages.length := by
  induction messages generalizing outcomes replies with
  | nil =>
    rw [logEntries_nil, List.eq_nil_of_length_eq_zero h]
    exact ⟨rfl, rfl, rfl⟩
  | cons message messages ih =>
    cases replies with
    | nil => cases h
    | cons reply replies =>
      obtain ⟨hmessages, hreplies, hcount⟩ := ih (fun i => outcomes (i + 1)) (Nat.succ.inj h)
      rw [logEntries, List.map_cons, List.map_cons, List.countP_cons, hmessages, hreplies, hcount,
        List.length_cons, sentCount_succ]
      exact ⟨rfl, rfl, rfl⟩

lemma sent_of_mem_dropLast_logEntries (hlength : replies.length = messages.length)
    (hsent : ∀ i, i + 1 < messages.length → (outcomes i).1 = true)
    (h : e ∈ (logEntries fd outcomes messages replies).dropLast) : e.sent = true := by
  obtain ⟨i, hi⟩ := List.mem_iff_getElem?.mp h
  have hlt := (List.getElem?_eq_some_iff.mp hi).1
  have hentries := congrArg List.length (logEntries_lists fd outcomes hlength).1
  rw [List.length_map] at hentries
  rw [List.length_dropLast, hentries] at hlt
  rw [List.getElem?_dropLast, hentries, if_pos hlt] at hi
  rw [(sent_getElem?_logEntries _ _ hi).1]
  exact hsent i (Nat.add_lt_of_lt_sub hlt)

end

/-- A server with the last session of each descriptor, the log of all messages, and the length of
the log when each descriptor was last accepted. -/
structure Service where
  run : ServerRun
  log : List LogEntry
  since : ℤ → ℕ

/-- An event of the server, with what each call of `send_all` comes to. -/
inductive ServiceEvent where
  | accept (client : ℤ) (added : Bool)
  | ready (fd : ℤ) (recv : RecvResult) (outcomes : ℕ → Bool × ℕ)

namespace Service

variable (w : Service)

/-- The entries that an event adds to the log. -/
def entriesOf (fd : ℤ) (recv : RecvResult) (outcomes : ℕ → Bool × ℕ) : List LogEntry :=
  let out := w.run.server.handleClient fd recv fun i => (outcomes i).1
  logEntries fd outcomes out.2.1 out.2.2

def step : ServiceEvent → Service
  | .accept client added =>
    { w with
      run := w.run.step (.accept client added)
      since := Function.update w.since client w.log.length }
  | .ready fd recv outcomes =>
    { w with
      run := w.run.step (.ready fd recv fun i => (outcomes i).1)
      log := w.log ++ w.entriesOf fd recv outcomes }

/-- `accept4` returns no descriptor that is open, and the outcomes are those of `send_all` for some
results of `send`. -/
def Legal : ServiceEvent → Prop
  | .accept client _        => 0 ≤ client → client ∉ w.run.server.openFds
  | .ready fd recv outcomes => ∀ e ∈ w.entriesOf fd recv outcomes,
    ∃ results, sendAll e.reply results = some (e.sent, e.taken)

inductive Reachable : Service → Prop
  | start (maxConnections : ℕ) (h : maxConnections ≤ kMaxControlConnections)
      (openFds : Finset ℤ) :
      Reachable ⟨⟨.start maxConnections h .fresh openFds, fun _ => {}⟩, [], fun _ => 0⟩
  | step {w : Service} (event : ServiceEvent) (hw : Reachable w) (hlegal : w.Legal event) :
      Reachable (w.step event)

/-- The entries of a connection since it was accepted. -/
def exchanged (fd : ℤ) : List LogEntry := (w.log.drop (w.since fd)).filter (·.fd = fd)

/-- The bytes of replies that the socket of a connection has taken since it was accepted. -/
def wire (fd : ℤ) : List Byte := (w.exchanged fd).flatMap fun e => e.reply.take e.taken

/-- The core after the first messages of the log. -/
def coreAt (k : ℕ) : ControlPlaneCore :=
  ControlPlaneCore.fresh.afterMessages ((w.log.take k).map (·.message))

/-- The new entries hold the messages that `handle_client` dispatches and the replies it sends. -/
lemma entriesOf_lists (fd : ℤ) (recv : RecvResult) (outcomes : ℕ → Bool × ℕ) :
    let out := w.run.server.handleClient fd recv fun i => (outcomes i).1
    (w.entriesOf fd recv outcomes).map (·.message) = out.2.1 ∧
      (w.entriesOf fd recv outcomes).map (·.reply) = out.2.2 ∧
      (w.entriesOf fd recv outcomes).countP (·.sent) =
        sentCount (fun i => (outcomes i).1) out.2.1.length := by
  obtain ⟨-, hanswers, -⟩ := w.run.server.handleClient_handles fd recv fun i => (outcomes i).1
  apply logEntries_lists
  rw [hanswers, ControlPlaneCore.length_answers]

variable {w}

lemma Reachable.run (h : Reachable w) : ServerRun.Reachable w.run := by
  induction h with
  | start maxConnections hmax openFds => exact .start maxConnections hmax .fresh openFds
  | step event _ hlegal ih =>
    cases event with
    | accept client added => exact .step (.accept client added) ih hlegal
    | ready fd recv outcomes =>
      exact .step (.ready fd recv fun i => (outcomes i).1) ih trivial

/-! ### A client with one request -/

/-- A client that has just been accepted. -/
def accepted : Service := ⟨ServerRun.accepted, [], Function.update (fun _ => 0) 5 0⟩

/-- The client has sent a chunk, and `send` takes the reply whole. -/
def asked (chunk : Chunk) : Service :=
  accepted.step (.ready 5 (.data chunk) fun _ =>
    (true, (ControlPlaneCore.fresh.answer chunk.bytes).length))

lemma reachable_accepted : Reachable accepted :=
  .step (.accept 5 true) (.start 16 (Nat.le_refl _) ∅) fun _ => Finset.notMem_empty 5

section

variable {chunk : Chunk} (h : messageFormat.IsFrame chunk.bytes)
include h

lemma cutMessages_chunk : cutMessages chunk.bytes = ([chunk.bytes], []) := by
  have htaken := takenLength_frame h (chunk.length_le.trans (by decide)) []
  rw [List.append_nil] at htaken
  rw [cutMessages_some htaken, List.drop_length, List.take_length, cutMessages_none rfl]

lemma handleClient_chunk :
    let out := accepted.run.server.handleClient 5 (.data chunk) fun _ => true
    out.2.1 = [chunk.bytes] ∧ out.1.Connected 0 ∧ out.1.clientFds 0 = 5 := by
  have hvalid := ServerRun.reachable_accepted.valid
  have hslot : ServerRun.accepted.server.Connected 0 := by decide
  have hempty : (ServerRun.accepted.server.buffers 0).readable = [] := rfl
  have hfits : (ServerRun.accepted.server.buffers 0).readable.length + chunk.bytes.length ≤
      kControlReadBufferBytes := by
    rw [hempty]
    exact (Nat.zero_add _).trans_le (chunk.length_le.trans (by decide))
  have hfollows := receiveChunk_follows ServerRun.accepted.server.core
    (hvalid.holds 0 hslot).overflowed ServerRun.accepted.server.messagesHandled hfits fun _ => true
  have hkeep := hfollows.keep fun _ => rfl
  have hcut := hfollows.of_keep hkeep
  have hdata := ServerRun.accepted.server.handleClient_data hvalid.distinct hslot chunk
    fun _ => true
  dsimp only at hdata
  rw [if_pos hkeep] at hdata
  rw [hempty, List.nil_append, cutMessages_chunk h] at hcut
  intro out
  have hout : out = _ := hdata
  rw [hout]
  exact ⟨congrArg Prod.fst hcut, hslot, rfl⟩

lemma log_asked :
    (asked chunk).log = [⟨5, chunk.bytes, ControlPlaneCore.fresh.answer chunk.bytes, true,
      (ControlPlaneCore.fresh.answer chunk.bytes).length⟩] := by
  have hdispatched := (handleClient_chunk h).1
  have hreplies := (accepted.run.server.handleClient_handles 5 (.data chunk) fun _ => true).2.1
  rw [hdispatched] at hreplies
  have hlog : (asked chunk).log = logEntries 5
      (fun _ => (true, (ControlPlaneCore.fresh.answer chunk.bytes).length)) _ _ := List.nil_append _
  rw [hlog, hdispatched, hreplies]
  rfl

lemma isConnected_asked : (asked chunk).run.IsConnected 5 := ⟨0, (handleClient_chunk h).2⟩

lemma reachable_asked : Reachable (asked chunk) := by
  refine .step _ reachable_accepted ?_
  intro e he
  have hlog : e ∈ (asked chunk).log := he
  rw [log_asked h, List.mem_singleton] at hlog
  subst hlog
  exact ⟨_, sendAll_once (ControlPlaneCore.fresh.length_answer_pos chunk.bytes)⟩

end

lemma isFrame_pingChunk : messageFormat.IsFrame ServerRun.pingChunk.bytes := by
  have hencoded : ServerRun.IsEncoded (ServerRun.pingWith []) :=
    ServerRun.isEncoded_pingWith (Nat.zero_le _)
  exact hencoded.isFrame.1

/-! ### One message after another -/

/-- The core, the replies and the counter of messages follow the log. -/
structure Linear (w : Service) : Prop where
  core_eq : w.run.server.core = ControlPlaneCore.fresh.afterMessages (w.log.map (·.message))
  replies_eq : w.log.map (·.reply) = ControlPlaneCore.fresh.answers (w.log.map (·.message))
  handled_eq : w.run.server.messagesHandled = UInt64.ofNat (w.log.countP (·.sent))
  sent_iff : ∀ e ∈ w.log, e.sent = true ↔ e.reply.take e.taken = e.reply

lemma Linear.ready (h : Linear w) {fd : ℤ} {recv : RecvResult} {outcomes : ℕ → Bool × ℕ}
    (hlegal : w.Legal (.ready fd recv outcomes)) : Linear (w.step (.ready fd recv outcomes)) := by
  obtain ⟨hcore, hanswers, hhandled, -⟩ :=
    w.run.server.handleClient_handles fd recv fun i => (outcomes i).1
  obtain ⟨hmessages, hreplies, hcount⟩ := w.entriesOf_lists fd recv outcomes
  have hserver : (w.step (.ready fd recv outcomes)).run.server =
      (w.run.server.handleClient fd recv fun i => (outcomes i).1).1 := rfl
  constructor
  · rw [hserver, hcore, step, List.map_append, hmessages, ControlPlaneCore.afterMessages_append,
      h.core_eq]
  · rw [step, List.map_append, List.map_append, hmessages, hreplies, hanswers,
      ControlPlaneCore.answers_append, h.replies_eq, h.core_eq]
  · rw [hserver, hhandled, step, List.countP_append, hcount, UInt64.ofNat_add, h.handled_eq]
  · intro e he
    rcases List.mem_append.mp he with he | he
    · exact h.sent_iff e he
    · obtain ⟨results, hresults⟩ := hlegal e he
      exact sendAll_spec hresults

lemma Reachable.linear (h : Reachable w) : Linear w := by
  induction h with
  | start maxConnections hmax openFds => exact ⟨rfl, rfl, rfl, fun e he => (by cases he)⟩
  | @step w event _ hlegal ih =>
    cases event with
    | accept client added =>
      obtain ⟨hcore, hhandled⟩ := w.run.server.handleAccept_core client added
      exact ⟨hcore.trans ih.core_eq, ih.replies_eq, hhandled.trans ih.handled_eq, ih.sent_iff⟩
    | ready fd recv outcomes => exact ih.ready hlegal

lemma Linear.reply_eq (h : Linear w) {k : ℕ} {e : LogEntry} (he : w.log[k]? = some e) :
    e.reply = (w.coreAt k).answer e.message := by
  have hmessage : (w.log.map (·.message))[k]? = some e.message := by
    rw [List.getElem?_map, he]
    rfl
  have hreply := ControlPlaneCore.fresh.getElem?_answers hmessage
  rw [← h.replies_eq, List.getElem?_map, he, ← List.map_take] at hreply
  exact Option.some.inj hreply

/-- The server takes the requests of all its clients one after another, in the order of the log:
its core is what they make of a fresh core, so its rules are those of the rule list after them, and
the published snapshot holds them; it counts the messages whose reply was sent; and each reply is
the reply of the core at its point of the log, decodes, and carries the sequence number of its
request. -/
theorem service_linearizable (h : Reachable w) :
    w.run.server.core = w.coreAt w.log.length ∧
    w.run.server.core.rules =
      (w.log.map (·.message)).foldl (ruleListStep kDefaultMaxRules) [] ∧
    w.run.server.core.currentRules = w.run.server.core.rules ∧
    w.run.server.messagesHandled = UInt64.ofNat (w.log.countP (·.sent)) ∧
    ∀ k e, w.log[k]? = some e →
      e.reply = (w.coreAt k).answer e.message ∧ (decodeMessage e.reply).status = .ok ∧
      (decodeMessage e.reply).message.header.sequence = ControlCore.replySequence e.message := by
  obtain ⟨hcore, -, hhandled, -⟩ := h.linear
  refine ⟨?_, ?_, ?_, hhandled, ?_⟩
  · rw [coreAt, List.take_length, hcore]
  · rw [hcore, ControlPlaneCore.afterMessages_rules]
    rfl
  · rw [hcore, ControlPlaneCore.afterMessages_currentRules]
  · intro k e he
    have hanswer := h.linear.reply_eq he
    refine ⟨hanswer, ?_, ?_⟩
    · rw [hanswer, ControlPlaneCore.decodeMessage_answer]
    · rw [hanswer, ControlPlaneCore.decodeMessage_answer]
      rfl

theorem service_linearizable_ping :
    (asked ServerRun.pingChunk).run.server.messagesHandled = 1 ∧
      (asked ServerRun.pingChunk).run.server.core.rules = [] ∧
      ∃ e, (asked ServerRun.pingChunk).log = [e] ∧ (decodeMessage e.reply).status = .ok := by
  have hlog := log_asked isFrame_pingChunk
  obtain ⟨-, hrules, -, hhandled, hreplies⟩ :=
    service_linearizable (reachable_asked isFrame_pingChunk)
  rw [hlog] at hrules hhandled hreplies ⊢
  refine ⟨hhandled, ?_, _, rfl, (hreplies 0 _ rfl).2.1⟩
  rw [hrules]
  decide +kernel

/-! ### Replies of one connection -/

lemma exchanged_ready (hsince : ∀ fd, w.since fd ≤ w.log.length) (fd fd' : ℤ) (recv : RecvResult)
    (outcomes : ℕ → Bool × ℕ) :
    (w.step (.ready fd recv outcomes)).exchanged fd' =
      w.exchanged fd' ++ if fd = fd' then w.entriesOf fd recv outcomes else [] := by
  rw [exchanged, step, List.drop_append_of_le_length (hsince fd'), List.filter_append]
  congr 1
  split_ifs with hfd
  · rw [List.filter_eq_self]
    intro e he
    rw [fd_of_mem_logEntries _ _ he, hfd]
    exact decide_eq_true rfl
  · rw [List.filter_eq_nil_iff]
    intro e he
    rw [fd_of_mem_logEntries _ _ he, decide_eq_true_eq]
    exact hfd

lemma exchanged_accept (client : ℤ) (added : Bool) (fd : ℤ) :
    (w.step (.accept client added)).exchanged fd = if fd = client then [] else w.exchanged fd := by
  rw [exchanged, step]
  dsimp only
  split_ifs with hfd
  · rw [hfd, Function.update_self, List.drop_length, List.filter_nil]
  · rw [Function.update_of_ne hfd, exchanged]

lemma connected_of_entriesOf {fd : ℤ} {recv : RecvResult} {outcomes : ℕ → Bool × ℕ}
    (h : w.entriesOf fd recv outcomes ≠ []) : w.run.IsConnected fd := by
  apply ServerRun.connected_of_dispatched
  intro hnil
  apply h
  rw [entriesOf, hnil, logEntries_nil]

/-- Only the last reply of a connection can be cut short, and none while it is connected. -/
structure Orderly (w : Service) : Prop where
  since_le : ∀ fd, w.since fd ≤ w.log.length
  sent_of_connected : ∀ fd, w.run.IsConnected fd → ∀ e ∈ w.exchanged fd, e.sent = true
  sent_of_before : ∀ fd, ∀ e ∈ (w.exchanged fd).dropLast, e.sent = true
  messages_eq : ∀ fd, (w.exchanged fd).map (·.message) = (w.run.session fd).dispatched

lemma Orderly.accept (h : Orderly w) (client : ℤ) (added : Bool) :
    Orderly (w.step (.accept client added)) := by
  constructor
  · intro fd
    rw [step]
    dsimp only
    by_cases hfd : fd = client
    · rw [hfd, Function.update_self]
    · rw [Function.update_of_ne hfd]
      exact h.since_le fd
  · intro fd hconnected e he
    rw [exchanged_accept] at he
    split_ifs at he with hfd
    · cases he
    · exact h.sent_of_connected fd (ServerRun.connected_of_accept hconnected hfd) e he
  · intro fd e he
    rw [exchanged_accept] at he
    split_ifs at he with hfd
    · cases he
    · exact h.sent_of_before fd e he
  · intro fd
    rw [exchanged_accept, step, ServerRun.step]
    dsimp only
    split_ifs with hfd
    · rw [hfd, Function.update_self, List.map_nil]
    · rw [Function.update_of_ne hfd]
      exact h.messages_eq fd

lemma Orderly.ready (h : Orderly w) (hvalid : ServerRun.Valid w.run) (fd : ℤ) (recv : RecvResult)
    (outcomes : ℕ → Bool × ℕ) : Orderly (w.step (.ready fd recv outcomes)) := by
  obtain ⟨hold, hkept⟩ := ServerRun.connected_of_ready hvalid fd recv fun i => (outcomes i).1
  obtain ⟨-, hanswers, -, hsent⟩ :=
    w.run.server.handleClient_handles fd recv fun i => (outcomes i).1
  constructor
  · intro fd'
    rw [step, List.length_append]
    exact (h.since_le fd').trans (Nat.le_add_right _ _)
  · intro fd' hconnected e he
    rw [exchanged_ready h.since_le] at he
    rcases List.mem_append.mp he with hbefore | hnew
    · exact h.sent_of_connected fd' (hold fd' hconnected) e hbefore
    · split_ifs at hnew with hfd
      · subst hfd
        exact sent_of_mem_logEntries _ _ (hkept hconnected) hnew
      · cases hnew
  · intro fd' e he
    rw [exchanged_ready h.since_le] at he
    split_ifs at he with hfd
    · subst hfd
      rw [List.dropLast_append] at he
      split_ifs at he with hnone
      · exact h.sent_of_before fd e he
      rcases List.mem_append.mp he with he | he
      · -- There are new messages, so the connection was there and all replies before were sent.
        have hnew : w.entriesOf fd recv outcomes ≠ [] :=
          fun hnil => hnone (List.isEmpty_iff.mpr hnil)
        exact h.sent_of_connected fd (connected_of_entriesOf hnew) e he
      · refine sent_of_mem_dropLast_logEntries _ _ ?_ hsent he
        rw [hanswers, ControlPlaneCore.length_answers]
    · rw [List.append_nil] at he
      exact h.sent_of_before fd' e he
  · intro fd'
    rw [exchanged_ready h.since_le, List.map_append, h.messages_eq, step, ServerRun.step]
    dsimp only
    split_ifs with hfd
    · subst hfd
      rw [Function.update_self, (w.entriesOf_lists fd recv outcomes).1,
        ServerRun.dispatched_continued]
    · rw [Function.update_of_ne (Ne.symm hfd), List.map_nil, List.append_nil]

lemma Reachable.orderly (h : Reachable w) : Orderly w := by
  induction h with
  | start maxConnections hmax openFds =>
    refine ⟨fun _ => Nat.le_refl _, fun _ _ e he => ?_, fun _ e he => ?_, fun _ => rfl⟩
    · cases he
    · cases he
  | @step w event hw hlegal ih =>
    cases event with
    | accept client added => exact ih.accept client added
    | ready fd recv outcomes => exact ih.ready hw.run.valid fd recv outcomes

/-- What the socket has taken of entries of which at most the last was cut short. -/
lemma flatMap_taken_prefix {entries : List LogEntry}
    (h : ∀ e ∈ entries.dropLast, e.reply.take e.taken = e.reply) :
    entries.flatMap (fun e => e.reply.take e.taken) <+: (entries.map (·.reply)).flatten := by
  induction entries with
  | nil => exact List.prefix_refl _
  | cons e entries ih =>
    rw [List.flatMap_cons, List.map_cons, List.flatten_cons]
    cases entries with
    | nil =>
      rw [List.flatMap_nil, List.map_nil, List.flatten_nil, List.append_nil, List.append_nil]
      exact List.take_prefix _ _
    | cons next entries =>
      rw [List.dropLast_cons_cons] at h
      rw [h e (List.mem_cons_self ..), List.prefix_append_right_inj]
      exact ih fun e' he' => h e' (List.mem_cons_of_mem _ he')

lemma flatMap_taken {entries : List LogEntry}
    (h : ∀ e ∈ entries, e.reply.take e.taken = e.reply) :
    entries.flatMap (fun e => e.reply.take e.taken) = (entries.map (·.reply)).flatten := by
  rw [List.flatMap, List.map_congr_left h]

/-- Whatever the other connections do, the replies on a connection are those to the messages
reassembled from its chunks, in their order: the client has received the first bytes of the replies
laid end to end, and all of them while it is connected. -/
theorem replies_in_order (h : Reachable w) (fd : ℤ) :
    (w.exchanged fd).map (·.message) = (w.run.session fd).dispatched ∧
    w.wire fd <+: ((w.exchanged fd).map (·.reply)).flatten ∧
    (w.run.IsConnected fd →
      w.wire fd = ((w.exchanged fd).map (·.reply)).flatten ∧
      (w.run.session fd).dispatched = (reassemble (w.run.session fd).received).1) := by
  obtain ⟨-, hconnected, hbefore, hmessages⟩ := h.orderly
  have htaken : ∀ e ∈ w.exchanged fd, e.sent = true → e.reply.take e.taken = e.reply := by
    intro e he
    have hlog := List.mem_of_mem_drop (List.mem_of_mem_filter he)
    exact (h.linear.sent_iff e hlog).mp
  refine ⟨hmessages fd, flatMap_taken_prefix ?_, fun hfd => ⟨flatMap_taken ?_, ?_⟩⟩
  · intro e he
    exact htaken e (List.mem_of_mem_dropLast he) (hbefore fd e he)
  · intro e he
    exact htaken e he (hconnected fd hfd e he)
  · obtain ⟨slot, hslot, rfl⟩ := hfd
    exact congrArg Prod.fst (h.run.valid.holds slot hslot).reassembled

theorem replies_in_order_ping :
    (asked ServerRun.pingChunk).run.IsConnected 5 ∧
      (asked ServerRun.pingChunk).wire 5 =
        (((asked ServerRun.pingChunk).exchanged 5).map (·.reply)).flatten ∧
      ((asked ServerRun.pingChunk).exchanged 5).map (·.message) =
        ((asked ServerRun.pingChunk).run.session 5).dispatched := by
  have hconnected := isConnected_asked isFrame_pingChunk
  obtain ⟨hmessages, -, hwire⟩ := replies_in_order (reachable_asked isFrame_pingChunk) 5
  exact ⟨hconnected, (hwire hconnected).1, hmessages⟩

end Service

end ChronosX
