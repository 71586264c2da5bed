import ChronosX.ControlPlane.Server
import Mathlib.Data.List.Induction

/-!
# Reassembly of a stream

What `handle_client` makes of the bytes of one connection. As long as the connection is kept, the
messages it dispatches and the bytes it leaves in the buffer depend on the readable bytes alone
(`serveLoop_follows`), so that those of a stream depend on its chunks alone (`reassemble`).
-/

namespace ChronosX

/-! ### Messages in a list of bytes -/

/-- The length of the message that the loop of `handle_client` takes from the front, if any. -/
def takenLength (bs : List Byte) : Option ℕ :=
  if bs.length < kProtocolHeaderBytes then none
  else if (readU32Be bs 8).toNat > kMaxControlPayloadBytes then some bs.length
  else if bs.length ≥ kProtocolHeaderBytes + (readU32Be bs 8).toNat then
    some (kProtocolHeaderBytes + (readU32Be bs 8).toNat)
  else none

lemma takenLength_le {bs : List Byte} {n : ℕ} (h : takenLength bs = some n) :
    0 < n ∧ n ≤ bs.length := by
  unfold takenLength at h
  split_ifs at h with hheader hlarge hcomplete
  · cases h
    exact ⟨Nat.zero_lt_of_lt (Nat.le_of_not_lt hheader), Nat.le_refl _⟩
  · cases h
    exact ⟨Nat.add_pos_left (by decide) _, hcomplete⟩

/-- The messages that the loop takes from these bytes, and what it leaves. -/
def cutMessages (bs : List Byte) : List (List Byte) × List Byte :=
  match _ : takenLength bs with
  | none   => ([], bs)
  | some n =>
    let (messages, rest) := cutMessages (bs.drop n)
    (bs.take n :: messages, rest)
termination_by bs.length
decreasing_by
  obtain ⟨hpos, hle⟩ := takenLength_le ‹_›
  rw [List.length_drop]
  omega

variable {bs : List Byte} {n : ℕ}

lemma cutMessages_none (h : takenLength bs = none) : cutMessages bs = ([], bs) := by
  rw [cutMessages]
  split
  · rfl
  case h_2 heq =>
    rw [h] at heq
    cases heq

lemma cutMessages_some (h : takenLength bs = some n) :
    cutMessages bs =
      (bs.take n :: (cutMessages (bs.drop n)).1, (cutMessages (bs.drop n)).2) := by
  rw [cutMessages]
  split
  case h_1 heq =>
    rw [h] at heq
    cases heq
  case h_2 heq =>
    rw [h] at heq
    cases heq
    rfl

/-- Induction along the messages that the loop takes. -/
@[elab_as_elim]
lemma cutMessages_induction {P : List Byte → Prop}
    (none : ∀ bs, takenLength bs = none → P bs)
    (some : ∀ bs n, takenLength bs = some n → P (bs.drop n) → P bs) (bs : List Byte) : P bs := by
  induction hlength : bs.length using Nat.strong_induction_on generalizing bs with
  | _ length ih =>
    subst hlength
    cases h : takenLength bs with
    | none => exact none bs h
    | some n =>
      obtain ⟨hpos, hle⟩ := takenLength_le h
      refine some bs n h (ih _ ?_ _ rfl)
      rw [List.length_drop]
      omega

/-- Nothing is lost or made up. -/
lemma cutMessages_flatten (bs : List Byte) :
    (cutMessages bs).1.flatten ++ (cutMessages bs).2 = bs := by
  induction bs using cutMessages_induction with
  | none bs h => simp [cutMessages_none h]
  | some bs n h ih =>
    rw [cutMessages_some h, List.flatten_cons, List.append_assoc, ih, List.take_append_drop]

/-- Nothing can be taken from what the loop leaves. -/
lemma takenLength_cutMessages (bs : List Byte) : takenLength (cutMessages bs).2 = none := by
  induction bs using cutMessages_induction with
  | none bs h => rwa [cutMessages_none h]
  | some bs n h ih => rwa [cutMessages_some h]

/-! ### The loop -/

namespace ConnectionBuffer

lemma hasCompleteMessage_eq (b : ConnectionBuffer) :
    b.hasCompleteMessage = (takenLength b.readable).isSome := by
  unfold hasCompleteMessage takenLength payloadLength
  rw [b.length_readable]
  split_ifs with hheader hlarge hcomplete
  · rfl
  · rfl
  · exact decide_eq_true hcomplete
  · exact decide_eq_false hcomplete

lemma nextMessageLength_eq {b : ConnectionBuffer} {n : ℕ} (h : takenLength b.readable = some n) :
    b.nextMessageLength = n := by
  unfold takenLength at h
  unfold nextMessageLength payloadLength
  rw [b.length_readable] at h
  split_ifs at h ⊢ with hheader hlarge hcomplete
  · exact Option.some.inj h
  · exact Option.some.inj h

end ConnectionBuffer

variable {core : ControlPlaneCore} {b : ConnectionBuffer} {handled : UInt64} {sends : ℕ → Bool}

lemma serveLoop_none (h : takenLength b.readable = none) :
    serveLoop core b handled sends = ⟨b, core, handled, [], [], true⟩ := by
  have hcomplete : b.hasCompleteMessage = false := by
    rw [b.hasCompleteMessage_eq, h]
    rfl
  rw [serveLoop, hcomplete]
  rfl

/-- One round of the loop: the message is dispatched and consumed, and then the connection is
dropped because its reply cannot be sent, or the loop goes on. -/
lemma serveLoop_some (core : ControlPlaneCore) (handled : UInt64) (sends : ℕ → Bool)
    (h : takenLength b.readable = some n) :
    ∃ (core' : ControlPlaneCore) (sends' : ℕ → Bool) (replies : List (List Byte)),
      ((∃ m, sends m = false) ∧ serveLoop core b handled sends =
        ⟨b.consume n, core', handled, [b.readable.take n], replies, false⟩) ∨
      ((∀ m, sends' m = false → ∃ m, sends m = false) ∧ serveLoop core b handled sends =
        { serveLoop core' (b.consume n) (handled + 1) sends' with
          dispatched :=
            b.readable.take n :: (serveLoop core' (b.consume n) (handled + 1) sends').dispatched
          replies }) := by
  have hcomplete : b.hasCompleteMessage = true := by
    rw [b.hasCompleteMessage_eq, h]
    rfl
  rw [serveLoop, if_pos hcomplete]
  dsimp only
  rw [if_neg (ConnectionBuffer.not_badLength hcomplete), ConnectionBuffer.nextMessageLength_eq h]
  generalize core.handleRequest (b.readable.take n)
    (List.replicate kControlResponseBufferBytes 0) = outcome
  by_cases hreply : outcome.1.bytesWritten > 0
  · simp only [if_pos hreply]
    cases hsent : sends 0 with
    | true =>
      exact ⟨outcome.2.2, fun m => sends (m + 1), _, Or.inr ⟨fun m hm => ⟨m + 1, hm⟩, rfl⟩⟩
    | false => exact ⟨outcome.2.2, sends, _, Or.inl ⟨⟨0, hsent⟩, rfl⟩⟩
  · simp only [if_neg hreply]
    exact ⟨outcome.2.2, sends, _, Or.inr ⟨fun m hm => ⟨m, hm⟩, rfl⟩⟩

/-- What the loop leaves of the bytes it started with. -/
structure Served.Follows (bs : List Byte) (sends : ℕ → Bool) (served : Served) : Prop where
  flatten : served.dispatched.flatten ++ served.buffer.readable = bs
  overflowed : served.buffer.overflowed = false
  of_keep : served.keep = true → (served.dispatched, served.buffer.readable) = cutMessages bs
  keep : (∀ m, sends m = true) → served.keep = true

/-- The loop dispatches bytes from the front of the buffer in order, and while it keeps the
connection it follows the cut of the readable bytes. -/
lemma serveLoop_follows (core : ControlPlaneCore) {b : ConnectionBuffer}
    (hb : b.overflowed = false) (handled : UInt64) (sends : ℕ → Bool) :
    Served.Follows b.readable sends (serveLoop core b handled sends) := by
  induction hbs : b.readable using cutMessages_induction generalizing core b handled sends with
  | none bs h =>
    subst hbs
    rw [serveLoop_none h]
    exact ⟨rfl, hb, fun _ => (cutMessages_none h).symm, fun _ => rfl⟩
  | some bs n h ih =>
    subst hbs
    have hb' : (b.consume n).overflowed = false := by rw [b.overflowed_consume, hb]
    have hsplit : b.readable.take n ++ b.readable.drop n = b.readable := List.take_append_drop _ _
    obtain ⟨core', sends', replies, ⟨⟨m, hm⟩, heq⟩ | ⟨hsends, heq⟩⟩ :=
      serveLoop_some core handled sends h
    · rw [heq]
      refine ⟨?_, hb', fun hkeep => (by cases hkeep), fun hall => ?_⟩
      · rw [List.flatten_singleton, b.readable_consume, hsplit]
      · rw [hall m] at hm
        cases hm
    · have hnext := ih core' hb' (handled + 1) sends' (b.readable_consume n)
      rw [heq]
      refine ⟨?_, hnext.overflowed, ?_, ?_⟩
      · rw [List.flatten_cons, List.append_assoc, hnext.flatten, hsplit]
      · intro hkeep
        rw [cutMessages_some h, ← hnext.of_keep hkeep]
      · intro hall
        apply hnext.keep
        intro m
        by_contra hm
        obtain ⟨m', hm'⟩ := hsends m (Bool.not_eq_true _ ▸ hm)
        rw [hall m'] at hm'
        cases hm'

/-! ### A chunk -/

/-- A chunk that fits is cut together with what was in the buffer. -/
lemma receiveChunk_follows (core : ControlPlaneCore) (hb : b.overflowed = false)
    (handled : UInt64) {chunk : Chunk}
    (hfits : b.readable.length + chunk.bytes.length ≤ kControlReadBufferBytes)
    (sends : ℕ → Bool) :
    Served.Follows (b.readable ++ chunk.bytes) sends
      (receiveChunk core b handled chunk sends) := by
  rw [b.length_readable] at hfits
  obtain ⟨happended, hoverflowed, hreadable⟩ := b.readable_append hfits
  rw [receiveChunk]
  dsimp only
  rw [if_neg (by rw [happended, hoverflowed, hb]; simp), ← hreadable]
  exact serveLoop_follows core (by rw [hoverflowed, hb]) handled sends

/-- A chunk that does not fit costs the connection. -/
lemma receiveChunk_dropped (core : ControlPlaneCore) (handled : UInt64) {chunk : Chunk}
    (hlarge : kControlReadBufferBytes < b.readable.length + chunk.bytes.length)
    (sends : ℕ → Bool) :
    (receiveChunk core b handled chunk sends).keep = false ∧
      (receiveChunk core b handled chunk sends).dispatched = [] := by
  rw [b.length_readable] at hlarge
  obtain ⟨-, hoverflowed⟩ := b.append_of_lt hlarge
  rw [receiveChunk]
  dsimp only
  rw [if_pos (Or.inr hoverflowed)]
  exact ⟨rfl, rfl⟩

/-- A connection that is kept had room for the chunk. -/
lemma receiveChunk_fits {core : ControlPlaneCore} {handled : UInt64} {chunk : Chunk}
    {sends : ℕ → Bool} (hkeep : (receiveChunk core b handled chunk sends).keep = true) :
    b.readable.length + chunk.bytes.length ≤ kControlReadBufferBytes := by
  by_contra hlarge
  rw [(receiveChunk_dropped core handled (Nat.lt_of_not_le hlarge) sends).1] at hkeep
  cases hkeep

/-! ### A stream in chunks -/

/-- The messages in a stream that arrives in these chunks, and the bytes left of it. -/
def reassemble (chunks : List Chunk) : List (List Byte) × List Byte :=
  chunks.foldl (fun (messages, rest) chunk =>
    let (next, rest) := cutMessages (rest ++ chunk.bytes)
    (messages ++ next, rest)) ([], [])

lemma reassemble_append (chunks : List Chunk) (chunk : Chunk) :
    reassemble (chunks ++ [chunk]) =
      ((reassemble chunks).1 ++ (cutMessages ((reassemble chunks).2 ++ chunk.bytes)).1,
        (cutMessages ((reassemble chunks).2 ++ chunk.bytes)).2) := by
  rw [reassemble, List.foldl_append]
  rfl

/-- The bytes of some chunks. -/
def streamOf (chunks : List Chunk) : List Byte := (chunks.map Chunk.bytes).flatten

lemma streamOf_singleton (chunk : Chunk) : streamOf [chunk] = chunk.bytes := by
  simp [streamOf]

lemma streamOf_append (chunks chunks' : List Chunk) :
    streamOf (chunks ++ chunks') = streamOf chunks ++ streamOf chunks' := by
  rw [streamOf, List.map_append, List.flatten_append]
  rfl

/-- The messages and the rest make up the stream. -/
lemma reassemble_flatten (chunks : List Chunk) :
    (reassemble chunks).1.flatten ++ (reassemble chunks).2 = streamOf chunks := by
  induction chunks using List.reverseRecOn with
  | nil => rfl
  | append_singleton chunks chunk ih =>
    rw [reassemble_append, List.flatten_append, List.append_assoc, cutMessages_flatten,
      ← List.append_assoc, ih, streamOf_append, streamOf_singleton]

end ChronosX
