import ChronosX.ControlPlane.Server

/-!
# Progress of the message loop

The guard of the loop in `handle_client` and the length of the next message come from two functions
that read the same untrusted field. Since they agree on every buffer, the branch of the loop that
drops the connection on a bad length is never taken, and each iteration takes at least a header. To
count the iterations, `serveWithin` is the loop without that branch, given up after a number of them.
-/

namespace ChronosX

/-! ### Counting iterations -/

/-- The message loop of `handle_client` without its defensive branch, or `none` if it goes on after
the given number of iterations. -/
def serveWithin (iterations : ℕ) (core : ControlPlaneCore) (buffer : ConnectionBuffer)
    (messagesHandled : UInt64) (sends : ℕ → Bool) : Option Served :=
  if buffer.hasCompleteMessage then
    match iterations with
    | 0              => none
    | iterations + 1 =>
      let msgLen := buffer.nextMessageLength
      let msgData := buffer.readable.take msgLen
      let (result, response, core) :=
        core.handleRequest msgData (List.replicate kControlResponseBufferBytes 0)
      let buffer := buffer.consume msgLen
      let reply := response.take result.bytesWritten
      if result.bytesWritten > 0 then
        if sends 0 then do
          let served ← serveWithin iterations core buffer (messagesHandled + 1) fun n => sends (n + 1)
          return { served with
            dispatched := msgData :: served.dispatched
            replies := reply :: served.replies }
        else some ⟨buffer, core, messagesHandled, [msgData], [reply], false⟩
      else do
        let served ← serveWithin iterations core buffer (messagesHandled + 1) sends
        return { served with dispatched := msgData :: served.dispatched }
  else some ⟨buffer, core, messagesHandled, [], [], true⟩

/-- With an iteration for each 24 bytes the loop ends, as the loop of the server does. -/
lemma serveWithin_eq {iterations : ℕ} (core : ControlPlaneCore) {b : ConnectionBuffer}
    (h : b.readableBytes < 24 * (iterations + 1)) (handled : UInt64) (sends : ℕ → Bool) :
    serveWithin iterations core b handled sends = some (serveLoop core b handled sends) := by
  induction iterations generalizing core b handled sends with
  | zero =>
    have hcomplete : ¬ b.hasCompleteMessage = true := by
      intro hcomplete
      obtain ⟨hge, hle⟩ := ConnectionBuffer.nextMessageLength_bounds hcomplete
      omega
    rw [serveWithin, serveLoop, if_neg hcomplete, if_neg hcomplete]
  | succ iterations ih =>
    rw [serveWithin, serveLoop]
    by_cases hcomplete : b.hasCompleteMessage = true
    · obtain ⟨hge, hle⟩ := ConnectionBuffer.nextMessageLength_bounds hcomplete
      have hrest : (b.consume b.nextMessageLength).readableBytes < 24 * (iterations + 1) := by
        rw [b.readableBytes_consume]
        omega
      rw [if_pos hcomplete, if_pos hcomplete]
      dsimp only
      rw [if_neg (ConnectionBuffer.not_badLength hcomplete)]
      simp only [ih _ hrest]
      split_ifs <;> rfl
    · rw [if_neg hcomplete, if_neg hcomplete]

/-- A loop that ends within some iterations dispatches no more messages. -/
lemma length_dispatched_le {iterations : ℕ} {core : ControlPlaneCore} {b : ConnectionBuffer}
    {handled : UInt64} {sends : ℕ → Bool} {served : Served}
    (h : serveWithin iterations core b handled sends = some served) :
    served.dispatched.length ≤ iterations := by
  induction iterations generalizing core b handled sends served with
  | zero =>
    rw [serveWithin] at h
    split_ifs at h
    obtain rfl := Option.some.inj h
    exact Nat.zero_le _
  | succ iterations ih =>
    rw [serveWithin] at h
    dsimp only at h
    split_ifs at h
    · -- the reply is sent
      obtain ⟨rest, hrest, hserved⟩ := Option.bind_eq_some_iff.mp h
      obtain rfl := Option.some.inj hserved
      exact Nat.succ_le_succ (ih hrest)
    · -- the reply cannot be sent
      obtain rfl := Option.some.inj h
      exact Nat.succ_le_succ (Nat.zero_le _)
    · -- there is no reply
      obtain ⟨rest, hrest, hserved⟩ := Option.bind_eq_some_iff.mp h
      obtain rfl := Option.some.inj hserved
      exact Nat.succ_le_succ (ih hrest)
    · obtain rfl := Option.some.inj h
      exact Nat.zero_le _

/-! ### Progress -/

/-- A complete message lies within the buffer and has a header, so the defensive branch is not
taken; `consume` removes that message from the front and nothing else; and the loop ends within an
iteration for each 24 bytes of the buffer, the same with and without the defensive branch. -/
theorem dispatch_progresses (b : ConnectionBuffer) :
    (b.hasCompleteMessage = true →
      (24 ≤ b.nextMessageLength ∧ b.nextMessageLength ≤ b.readableBytes) ∧
      ¬ (b.nextMessageLength = 0 ∨ b.nextMessageLength > b.readableBytes) ∧
      b.readable = b.readable.take b.nextMessageLength ++ (b.consume b.nextMessageLength).readable ∧
      (b.consume b.nextMessageLength).readableBytes + b.nextMessageLength = b.readableBytes) ∧
    ∀ (core : ControlPlaneCore) (handled : UInt64) (sends : ℕ → Bool),
      serveWithin (b.readableBytes / 24) core b handled sends
        = some (serveLoop core b handled sends) ∧
      (serveLoop core b handled sends).dispatched.length ≤ b.readableBytes / 24 := by
  constructor
  · intro hcomplete
    have hbounds := ConnectionBuffer.nextMessageLength_bounds hcomplete
    refine ⟨hbounds, ConnectionBuffer.not_badLength hcomplete, ?_, ?_⟩
    · rw [b.readable_consume, List.take_append_drop]
    · rw [b.readableBytes_consume, Nat.sub_add_cancel hbounds.2]
  · intro core handled sends
    have hends := serveWithin_eq core (Nat.lt_mul_div_succ b.readableBytes (by decide : 0 < 24))
      handled sends
    exact ⟨hends, length_dispatched_le hends⟩

/-- The first of two empty messages and two further bytes. -/
theorem dispatch_progresses_two :
    let b := (ConnectionBuffer.empty.append (List.replicate 50 0)).2
    b.hasCompleteMessage = true ∧ 24 ≤ b.nextMessageLength ∧
      b.nextMessageLength ≤ b.readableBytes ∧
      (b.consume b.nextMessageLength).readableBytes + b.nextMessageLength = 50 := by
  intro b
  have hcomplete : b.hasCompleteMessage = true := by decide +kernel
  obtain ⟨hbounds, -, -, hlength⟩ := (dispatch_progresses b).1 hcomplete
  exact ⟨hcomplete, hbounds.1, hbounds.2, hlength⟩

end ChronosX
