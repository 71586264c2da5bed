import ChronosX.ControlPlane.Connections
import ChronosX.Library.Framing

/-!
# Delivery of messages

What a client's messages come to when they arrive in chunks on one connection, all replies being
sent. Messages are cut from the stream by their length fields, whatever the chunks are. The
connection lives as long as the bytes of an unfinished message and the next chunk fit the buffer
together: always for messages of at most 4096 bytes, and never to the end of a message that is
longer than the buffer.
-/

namespace ChronosX

open FrameFormat

/-! ### The format of messages -/

lemma readU32Be_append {bs : List Byte} {offset : ℕ} (h : offset + 4 ≤ bs.length)
    (more : List Byte) : readU32Be (bs ++ more) offset = readU32Be bs offset := by
  have hget : ∀ i, i < bs.length → (bs ++ more).getD i 0 = bs.getD i 0 := by
    intro i hi
    rw [List.getD_eq_getElem?_getD, List.getD_eq_getElem?_getD, List.getElem?_append_left hi]
  rw [readU32Be, readU32Be, hget _ (by omega), hget _ (by omega), hget _ (by omega),
    hget _ (by omega)]

/-- Messages, delimited by their length field: the header says the length of the payload. -/
def messageFormat : FrameFormat Byte where
  total bs :=
    if bs.length < kProtocolHeaderBytes then none
    else some (kProtocolHeaderBytes + (readU32Be bs 8).toNat)
  total_append := by
    intro bs n h more
    have hheader : ¬ bs.length < kProtocolHeaderBytes := by
      intro hshort
      rw [if_pos hshort] at h
      cases h
    have hfield : 8 + 4 ≤ bs.length := le_trans (by decide) (Nat.le_of_not_lt hheader)
    rw [if_neg hheader] at h
    rw [readU32Be_append hfield, if_neg, h]
    rw [List.length_append]
    omega

/-- The longest message that the protocol allows. -/
def maxMessageBytes : ℕ := kProtocolHeaderBytes + kMaxControlPayloadBytes

lemma messageFormat_total_eq {bs : List Byte} (h : ¬ bs.length < kProtocolHeaderBytes) :
    messageFormat.total bs = some (kProtocolHeaderBytes + (readU32Be bs 8).toNat) := if_neg h

lemma messageFormat_total {bs : List Byte} {n : ℕ} (h : messageFormat.total bs = some n) :
    kProtocolHeaderBytes ≤ bs.length ∧ n = kProtocolHeaderBytes + (readU32Be bs 8).toNat := by
  simp only [messageFormat] at h
  split_ifs at h with hheader
  exact ⟨Nat.le_of_not_lt hheader, (Option.some.inj h).symm⟩

/-- A legal message at the front is taken. -/
lemma takenLength_frame {f : List Byte} (hf : messageFormat.IsFrame f)
    (hlimit : f.length ≤ maxMessageBytes) (bs : List Byte) :
    takenLength (f ++ bs) = some f.length := by
  obtain ⟨hheader, hlength⟩ := messageFormat_total (hf.total_append bs)
  rw [takenLength, if_neg (Nat.not_lt_of_le hheader), if_neg, if_pos, ← hlength]
  · rw [← hlength, List.length_append]
    exact Nat.le_add_right _ _
  · rw [maxMessageBytes] at hlimit
    omega

/-- Nothing is taken from an unfinished legal message. -/
lemma takenLength_incomplete {bs : List Byte} (h : messageFormat.Incomplete bs)
    (hlimit : messageFormat.Within maxMessageBytes bs) : takenLength bs = none := by
  rw [takenLength]
  split_ifs with hheader hlarge hcomplete
  · rfl
  all_goals
    have htotal := messageFormat_total_eq hheader
  · have hle := hlimit _ htotal
    rw [maxMessageBytes] at hle
    omega
  · exact absurd (h _ htotal) (Nat.not_lt_of_le hcomplete)
  · rfl

/-- The loop cuts legal messages as the format does. -/
lemma cutMessages_of_cuts {bs r : List Byte} {frames : List (List Byte)}
    (h : messageFormat.Cuts bs frames r) (hframes : ∀ f ∈ frames, f.length ≤ maxMessageBytes)
    (hr : messageFormat.Within maxMessageBytes r) : cutMessages bs = (frames, r) := by
  induction h with
  | rest hincomplete => exact cutMessages_none (takenLength_incomplete hincomplete hr)
  | @frame f bs r frames hf _ ih =>
    have htaken := takenLength_frame hf (hframes f (by simp)) bs
    rw [cutMessages_some htaken, List.drop_left, List.take_left,
      ih (fun g hg => hframes g (by simp [hg])) hr]

/-! ### Streams of legal messages -/

lemma streamOf_front {front chunks : List Chunk} (h : front <+: chunks) :
    streamOf front <+: streamOf chunks := by
  obtain ⟨more, rfl⟩ := h
  rw [streamOf_append]
  exact List.prefix_append _ _

section Stream

variable {frames : List (List Byte)} {p : List Byte}
  (hframes : ∀ f ∈ frames, messageFormat.IsFrame f ∧ f.length ≤ maxMessageBytes)
  (hp : messageFormat.Incomplete p) (hlimit : messageFormat.Within maxMessageBytes p)
include hframes hp hlimit

/-- What has arrived of a stream of legal messages is reassembled as the format cuts it. -/
lemma reassemble_of_front {chunks : List Chunk} (h : streamOf chunks <+: frames.flatten ++ p) :
    messageFormat.Cuts (streamOf chunks) (reassemble chunks).1 (reassemble chunks).2 ∧
      (reassemble chunks).1 <+: frames ∧
      (∃ g ∈ frames ++ [p], (reassemble chunks).2 <+: g) ∧
      (reassemble chunks).2.length =
        unfinished (frames.map List.length) (streamOf chunks).length := by
  induction chunks using List.reverseRecOn with
  | nil =>
    obtain ⟨frames', r, hcuts, hfront, hr, hlength⟩ :=
      exists_cuts_of_front (fun f hf => (hframes f hf).1) hp h
    obtain ⟨rfl, rfl⟩ := hcuts.unique (.rest (hp.of_front List.nil_prefix))
    exact ⟨hcuts, hfront, hr, hlength⟩
  | append_singleton chunks chunk ih =>
    obtain ⟨frames', r, hcuts, hfront, ⟨g, hg, hr⟩, hlength⟩ :=
      exists_cuts_of_front (fun f hf => (hframes f hf).1) hp h
    rw [streamOf_append] at h hcuts
    obtain ⟨hbefore, -⟩ := ih ((List.prefix_append _ _).trans h)
    -- The cut goes on from what was left before the chunk.
    obtain ⟨next, rfl, hnext⟩ := hbefore.split hcuts
    have hlegal : ∀ f ∈ next, f.length ≤ maxMessageBytes := by
      intro f hf
      exact (hframes f (hfront.subset (List.mem_append_right _ hf))).2
    have hwithin : messageFormat.Within maxMessageBytes g := within_of_mem hframes hlimit g hg
    rw [streamOf_singleton] at hnext
    rw [reassemble_append, cutMessages_of_cuts hnext hlegal (hwithin.of_front hr),
      streamOf_append]
    rw [streamOf_append] at hlength
    exact ⟨hcuts, hfront, ⟨g, hg, hr⟩, hlength⟩

/-- The same for what has arrived after some of the chunks. -/
lemma reassemble_of_chunks {chunks : List Chunk} (hstream : streamOf chunks = frames.flatten ++ p)
    {front : List Chunk} (hfront : front <+: chunks) :
    messageFormat.Cuts (streamOf front) (reassemble front).1 (reassemble front).2 ∧
      (reassemble front).1 <+: frames ∧
      (∃ g ∈ frames ++ [p], (reassemble front).2 <+: g) ∧
      (reassemble front).2.length =
        unfinished (frames.map List.length) (streamOf front).length := by
  have harrived := streamOf_front hfront
  rw [hstream] at harrived
  exact reassemble_of_front hframes hp hlimit harrived

end Stream

/-! ### Chunks of one client -/

namespace ServerRun

/-- The chunks arrive on the descriptor one after another, and all replies are sent. -/
def receive (w : ServerRun) (fd : ℤ) (chunks : List Chunk) : ServerRun :=
  chunks.foldl (fun w chunk => w.step (.ready fd (.data chunk) fun _ => true)) w

def IsConnected (w : ServerRun) (fd : ℤ) : Prop :=
  ∃ slot, w.server.Connected slot ∧ w.server.clientFds slot = fd

lemma receive_append (w : ServerRun) (fd : ℤ) (chunks : List Chunk) (chunk : Chunk) :
    w.receive fd (chunks ++ [chunk]) =
      (w.receive fd chunks).step (.ready fd (.data chunk) fun _ => true) := by
  rw [receive, List.foldl_append]
  rfl

lemma reachable_receive {w : ServerRun} (h : Reachable w) (fd : ℤ) (chunks : List Chunk) :
    Reachable (w.receive fd chunks) := by
  induction chunks using List.reverseRecOn with
  | nil => exact h
  | append_singleton chunks chunk ih =>
    rw [receive_append]
    exact .step _ ih trivial

/-- A removed connection is gone. -/
lemma removeConnection_ne {s : ControlPlaneServer} {slot : Fin kMaxControlConnections}
    (hdistinct : s.Distinct) (hslot : s.Connected slot) (hfd : 0 ≤ s.clientFds slot)
    {i : Fin kMaxControlConnections} (hi : (s.removeConnection slot).Connected i) :
    (s.removeConnection slot).clientFds i ≠ s.clientFds slot := by
  obtain ⟨-, source, hmoved⟩ := s.removeConnection_remains hslot hfd
  obtain ⟨hsource, hne, hfds, -⟩ := hmoved i hi
  rw [hfds]
  exact fun heq => hne (hdistinct _ _ hsource hslot heq)

/-- A chunk on a connection: the connection is kept exactly if the chunk fits. -/
lemma step_data {w : ServerRun} (h : Valid w) {fd : ℤ} (hfd : w.IsConnected fd) (chunk : Chunk) :
    let next := w.step (.ready fd (.data chunk) fun _ => true)
    let rest := (reassemble (w.session fd).received).2
    (next.session fd).received = (w.session fd).received ++ [chunk] ∧
      (next.IsConnected fd ↔ rest.length + chunk.bytes.length ≤ kControlReadBufferBytes) := by
  obtain ⟨slot, hslot, rfl⟩ := hfd
  obtain ⟨hnonneg, -, hoverflowed, hreassembled⟩ := h.holds slot hslot
  have hrest : (w.server.buffers slot).readable =
      (reassemble (w.session (w.server.clientFds slot)).received).2 :=
    congrArg Prod.snd hreassembled
  intro next rest
  let served := receiveChunk w.server.core (w.server.buffers slot) w.server.messagesHandled chunk
    fun _ => true
  let kept : ControlPlaneServer := { w.server with
    buffers := Function.update w.server.buffers slot served.buffer
    core := served.core
    messagesHandled := served.messagesHandled }
  have hnext : next = ⟨if served.keep then kept else kept.removeConnection slot,
      Function.update w.session (w.server.clientFds slot)
        (continued (w.session (w.server.clientFds slot)) (.data chunk) served.dispatched)⟩ := by
    simp only [next, step, w.server.handleClient_data h.distinct hslot]
    rfl
  refine ⟨?_, ?_, ?_⟩
  · rw [hnext]
    simp only [Function.update_self, continued]
  · intro hconnected
    by_contra hlarge
    have hdropped : served.keep = false := by
      refine (receiveChunk_dropped _ _ ?_ _).1
      rw [hrest]
      exact Nat.lt_of_not_le hlarge
    rw [hnext, if_neg (by rw [hdropped]; decide)] at hconnected
    obtain ⟨i, hi, heq⟩ := hconnected
    have hdistinct : kept.Distinct := h.distinct
    exact removeConnection_ne hdistinct hslot hnonneg hi heq
  · intro hfits
    have hkeep : served.keep = true := by
      refine (receiveChunk_follows _ hoverflowed _ ?_ _).keep fun _ => rfl
      rw [hrest]
      exact hfits
    rw [hnext, if_pos hkeep]
    exact ⟨slot, hslot, rfl⟩

/-- A connection that has received nothing yet. -/
structure Fresh (w : ServerRun) (fd : ℤ) : Prop where
  reachable : Reachable w
  isConnected : w.IsConnected fd
  session_eq : w.session fd = {}

variable {w : ServerRun} {fd : ℤ}

/-- While the connection lives it has received the chunks. -/
lemma Fresh.received (h : w.Fresh fd) {chunks : List Chunk}
    (hall : ∀ front, front <+: chunks → (w.receive fd front).IsConnected fd) :
    ((w.receive fd chunks).session fd).received = chunks := by
  induction chunks using List.reverseRecOn with
  | nil =>
    rw [receive, List.foldl_nil, h.session_eq]
  | append_singleton chunks chunk ih =>
    have hbefore := ih fun front hfront => hall front (hfront.trans (List.prefix_append _ _))
    have hstep := step_data (reachable_receive h.reachable fd chunks).valid
      (hall chunks (List.prefix_append _ _)) chunk
    rw [receive_append, hstep.1, hbefore]

/-- The connection lives exactly as long as each chunk fits the buffer together with what is left
of those before it. -/
lemma Fresh.isConnected_iff (h : w.Fresh fd) (chunks : List Chunk) :
    (∀ front, front <+: chunks → (w.receive fd front).IsConnected fd) ↔
      ∀ front chunk, front ++ [chunk] <+: chunks →
        (reassemble front).2.length + chunk.bytes.length ≤ kControlReadBufferBytes := by
  have hstep : ∀ front chunk, (∀ front', front' <+: front → (w.receive fd front').IsConnected fd) →
      ((w.receive fd (front ++ [chunk])).IsConnected fd ↔
        (reassemble front).2.length + chunk.bytes.length ≤ kControlReadBufferBytes) := by
    intro front chunk hall
    have hiff := (step_data (reachable_receive h.reachable fd front).valid
      (hall front (List.prefix_refl _)) chunk).2
    rwa [h.received hall, ← receive_append] at hiff
  constructor
  · intro hall front chunk hfront
    refine (hstep front chunk fun front' hfront' => ?_).mp (hall _ hfront)
    exact hall front' (hfront'.trans ((List.prefix_append _ _).trans hfront))
  · intro hfits
    induction chunks using List.reverseRecOn with
    | nil =>
      intro front hfront
      rw [List.prefix_nil.mp hfront]
      exact h.isConnected
    | append_singleton chunks chunk ih =>
      have hall := ih fun front chunk' hfront =>
        hfits front chunk' (hfront.trans (List.prefix_append _ _))
      intro front hfront
      rcases List.prefix_concat_iff.mp hfront with rfl | hfront
      · exact (hstep chunks chunk hall).mpr (hfits chunks chunk (List.prefix_refl _))
      · exact hall front hfront

/-- While the connection lives, its messages and its buffer are those of the chunks reassembled. -/
lemma Fresh.reassembled (h : w.Fresh fd) {chunks : List Chunk}
    (hall : ∀ front, front <+: chunks → (w.receive fd front).IsConnected fd) :
    ∃ slot, (w.receive fd chunks).server.Connected slot ∧
      (w.receive fd chunks).server.clientFds slot = fd ∧
      (((w.receive fd chunks).session fd).dispatched,
        ((w.receive fd chunks).server.buffers slot).readable) = reassemble chunks := by
  obtain ⟨slot, hslot, hfd⟩ := hall chunks (List.prefix_refl _)
  have hholds := (reachable_receive h.reachable fd chunks).valid.holds slot hslot
  have hreassembled := hholds.reassembled
  rw [hfd, h.received hall] at hreassembled
  exact ⟨slot, hslot, hfd, hreassembled⟩

/-! ### Short messages -/

/-- An unfinished message within the limit is shorter than the limit. -/
lemma length_lt_of_incomplete {r : List Byte} {limit : ℕ} (hr : messageFormat.Incomplete r)
    (hwithin : messageFormat.Within limit r) (hlimit : kProtocolHeaderBytes ≤ limit) :
    r.length < limit := by
  by_cases hheader : r.length < kProtocolHeaderBytes
  · exact hheader.trans_le hlimit
  · have htotal := messageFormat_total_eq hheader
    exact (hr _ htotal).trans_le (hwithin _ htotal)

/-- Reassembly does not depend on the chunks: for frames of at most 4096 bytes, whatever their
other fields, the connection is never dropped, and after each chunk the complete frames of the
bytes so far have been dispatched, in order, and the rest is in the buffer. -/
theorem frames_dispatched_in_order (h : w.Fresh fd) {frames : List (List Byte)} {p : List Byte}
    (hframes : ∀ f ∈ frames, messageFormat.IsFrame f ∧ f.length ≤ 4096)
    (hp : messageFormat.Incomplete p) (hlimit : messageFormat.Within 4096 p)
    {chunks : List Chunk} (hstream : streamOf chunks = frames.flatten ++ p) :
    ∀ front, front <+: chunks →
      ∃ slot, (w.receive fd front).server.Connected slot ∧
        (w.receive fd front).server.clientFds slot = fd ∧
        messageFormat.Cuts (streamOf front) ((w.receive fd front).session fd).dispatched
          ((w.receive fd front).server.buffers slot).readable ∧
        ((w.receive fd front).session fd).dispatched <+: frames := by
  have hframes' : ∀ f ∈ frames, messageFormat.IsFrame f ∧ f.length ≤ maxMessageBytes :=
    fun f hf => ⟨(hframes f hf).1, (hframes f hf).2.trans (by decide)⟩
  have hlimit' : messageFormat.Within maxMessageBytes p := hlimit.mono (by decide)
  have hall : ∀ front, front <+: chunks → (w.receive fd front).IsConnected fd := by
    rw [h.isConnected_iff]
    intro front chunk hfront
    obtain ⟨hcuts, -, ⟨g, hg, hr⟩, -⟩ := reassemble_of_chunks hframes' hp hlimit' hstream
      ((List.prefix_append _ _).trans hfront)
    have hrest : (reassemble front).2.length < 4096 :=
      length_lt_of_incomplete hcuts.incomplete ((within_of_mem hframes hlimit g hg).of_front hr)
        (by decide)
    have hchunk : chunk.bytes.length ≤ 4096 := chunk.length_le
    rw [kControlReadBufferBytes]
    omega
  intro front hfront
  obtain ⟨slot, hslot, hfd, hreassembled⟩ := h.reassembled fun front' hfront' =>
    hall front' (hfront'.trans hfront)
  obtain ⟨hcuts, hframe, -⟩ := reassemble_of_chunks hframes' hp hlimit' hstream hfront
  rw [← hreassembled] at hcuts hframe
  exact ⟨slot, hslot, hfd, hcuts, hframe⟩

lemma fresh_accepted : accepted.Fresh 5 where
  reachable := reachable_accepted
  isConnected := ⟨0, by decide, rfl⟩
  session_eq := rfl

/-- A chunk of 25 zero bytes. -/
def zeros : Chunk := ⟨List.replicate 25 0, by simp, by simp [kReadBufBytes]⟩

/-- Two frames without magic, version and CRC and two bytes of the next one, cut behind the first
byte of the second frame. -/
theorem frames_dispatched_in_order_zeros :
    ∃ slot, ((accepted.receive 5 [zeros, zeros]).session 5).dispatched =
        [List.replicate 24 0, List.replicate 24 0] ∧
      ((accepted.receive 5 [zeros, zeros]).server.buffers slot).readable = [0, 0] := by
  have hframes : ∀ f ∈ [List.replicate 24 0, List.replicate 24 0],
      messageFormat.IsFrame f ∧ f.length ≤ 4096 := by
    intro f hf
    have heq : f = List.replicate 24 0 := by simpa using hf
    rw [heq]
    exact ⟨rfl, by decide⟩
  have hp : messageFormat.Incomplete [0, 0] := incomplete_of_total_none rfl
  have hstream : streamOf [zeros, zeros] =
      [List.replicate 24 0, List.replicate 24 0].flatten ++ [0, 0] := by decide
  obtain ⟨slot, -, -, hcuts, -⟩ := frames_dispatched_in_order fresh_accepted hframes hp
    (within_of_total_none rfl) hstream [zeros, zeros] (List.prefix_refl _)
  have hwhole := Cuts.flatten (fun f hf => (hframes f hf).1) (Cuts.rest hp)
  rw [hstream] at hcuts
  rw [List.append_nil] at hwhole
  exact ⟨slot, hcuts.unique hwhole⟩

/-! ### Messages of any length -/

/-- The bytes are a message that `encode_message` has written. -/
def IsEncoded (m : List Byte) : Prop :=
  ∃ (header : MessageHeader) (payload output : List Byte),
    (encodeMessage header payload output).1.status = .ok ∧
      m = (encodeMessage header payload output).2.take
        (encodeMessage header payload output).1.bytesWritten

lemma IsEncoded.isFrame {m : List Byte} (h : IsEncoded m) :
    messageFormat.IsFrame m ∧ m.length ≤ maxMessageBytes := by
  obtain ⟨header, payload, output, hok, rfl⟩ := h
  obtain ⟨hpayload, -, hencoded⟩ := encodeMessage_ok hok
  have hlength := (header.sealed payload).length_message payload
  have hfield : readU32Be ((header.sealed payload).message payload) 8 =
      (header.sealed payload).payloadLength :=
    congrArg MessageHeader.payloadLength (readHeader_message (header.sealed payload) payload)
  rw [hencoded, List.take_left' hlength]
  refine ⟨?_, ?_⟩
  · rw [IsFrame, hlength, ← sealed_payloadLength header hpayload, ← hfield]
    apply messageFormat_total_eq
    rw [hlength]
    exact Nat.not_lt_of_le (Nat.le_add_right _ _)
  · rw [hlength, maxMessageBytes]
    exact Nat.add_le_add_left hpayload _

/-- The bytes of the message that is under way and the next chunk always fit the buffer together. -/
def FitsBuffer (messages : List (List Byte)) (chunks : List Chunk) : Prop :=
  ∀ front chunk, front ++ [chunk] <+: chunks →
    unfinished (messages.map List.length) (streamOf front).length + chunk.bytes.length ≤
      kControlReadBufferBytes

section

variable {messages : List (List Byte)} {chunks : List Chunk}
  (hstream : streamOf chunks = messages.flatten)
include hstream

/-- Messages of at most 4097 bytes fit, however they are cut. -/
lemma fitsBuffer_of_short (h : ∀ m ∈ messages, m.length ≤ 4097) : FitsBuffer messages chunks := by
  intro front chunk hfront
  have harrived : (streamOf front).length ≤ (messages.map List.length).sum := by
    rw [← List.length_flatten, ← hstream]
    obtain ⟨rest, rfl⟩ := (List.prefix_append front [chunk]).trans hfront
    rw [streamOf_append, List.length_append]
    exact Nat.le_add_right _ _
  have hshort : ∀ length ∈ messages.map List.length, length ≤ 4096 + 1 := by
    intro length hlength
    obtain ⟨m, hm, rfl⟩ := List.mem_map.mp hlength
    exact h m hm
  have hunfinished := unfinished_le hshort harrived
  have hchunk : chunk.bytes.length ≤ 4096 := chunk.length_le
  rw [kControlReadBufferBytes]
  omega

omit hstream in
/-- Some chunk brings the byte with the given number. -/
lemma exists_chunk_crossing {n : ℕ} (hpos : 0 < n) (h : n ≤ (streamOf chunks).length) :
    ∃ front chunk, front ++ [chunk] <+: chunks ∧ (streamOf front).length < n ∧
      n ≤ (streamOf front).length + chunk.bytes.length := by
  induction chunks using List.reverseRecOn with
  | nil => exact absurd h (Nat.not_le.mpr hpos)
  | append_singleton chunks chunk ih =>
    by_cases hbefore : n ≤ (streamOf chunks).length
    · obtain ⟨front, chunk', hfront, hcrossing⟩ := ih hbefore
      exact ⟨front, chunk', hfront.trans (List.prefix_append _ _), hcrossing⟩
    · rw [streamOf_append, List.length_append, streamOf_singleton] at h
      exact ⟨chunks, chunk, List.prefix_refl _, Nat.not_le.mp hbefore, h⟩

/-- A message of more than 8192 bytes does not fit, however it is cut: the chunk with its last byte
comes when all the other bytes are in the buffer. -/
lemma not_fitsBuffer_of_long {m : List Byte} (hm : m ∈ messages)
    (h : kControlReadBufferBytes < m.length) : ¬ FitsBuffer messages chunks := by
  intro hfits
  obtain ⟨before, after, rfl⟩ := List.append_of_mem hm
  have htotal : (before.map List.length).sum + m.length ≤ (streamOf chunks).length := by
    rw [hstream, List.length_flatten, List.map_append, List.sum_append, List.map_cons,
      List.sum_cons]
    omega
  obtain ⟨front, chunk, hfront, hlt, hle⟩ := exists_chunk_crossing (by omega) htotal
  have hchunk : chunk.bytes.length ≤ 4096 := chunk.length_le
  rw [kControlReadBufferBytes] at h
  obtain ⟨k, hk⟩ : ∃ k, (streamOf front).length = (before.map List.length).sum + k :=
    Nat.exists_eq_add_of_le (by omega)
  have hunfinished := hfits front chunk hfront
  rw [hk, List.map_append, List.map_cons, unfinished_of_lt _ _ (by omega),
    kControlReadBufferBytes] at hunfinished
  omega

end

/-- The messages of a client are all dispatched in order, on a connection that is never dropped,
exactly when the bytes of the message that is under way and the next chunk always fit the buffer
together. They do when no message has more than 4097 bytes, and they do not when a message has more
than 8192. -/
theorem messages_delivered_iff (h : w.Fresh fd) {messages : List (List Byte)}
    (hmessages : ∀ m ∈ messages, IsEncoded m) {chunks : List Chunk}
    (hstream : streamOf chunks = messages.flatten) :
    (((∀ front, front <+: chunks → (w.receive fd front).IsConnected fd) ∧
        ((w.receive fd chunks).session fd).dispatched = messages) ↔ FitsBuffer messages chunks) ∧
    ((∀ m ∈ messages, m.length ≤ 4097) → FitsBuffer messages chunks) ∧
    ∀ m ∈ messages, 8192 < m.length → ¬ FitsBuffer messages chunks := by
  refine ⟨?_, fitsBuffer_of_short hstream,
    fun m hm hlong => not_fitsBuffer_of_long hstream hm hlong⟩
  have hframes : ∀ m ∈ messages, messageFormat.IsFrame m ∧ m.length ≤ maxMessageBytes :=
    fun m hm => (hmessages m hm).isFrame
  have hp : messageFormat.Incomplete [] := incomplete_of_total_none rfl
  have hlimit : messageFormat.Within maxMessageBytes [] := within_of_total_none rfl
  have hstream' : streamOf chunks = messages.flatten ++ [] := by rw [List.append_nil, hstream]
  have hlengths : (∀ front, front <+: chunks → (w.receive fd front).IsConnected fd) ↔
      FitsBuffer messages chunks := by
    rw [h.isConnected_iff]
    refine forall₃_congr fun front chunk hfront => ?_
    have harrived := (List.prefix_append front [chunk]).trans hfront
    rw [(reassemble_of_chunks hframes hp hlimit hstream' harrived).2.2.2]
  rw [← hlengths]
  refine ⟨fun hdelivered => hdelivered.1, fun hall => ⟨hall, ?_⟩⟩
  -- All of the stream has arrived, and it is cut into the messages.
  obtain ⟨slot, -, -, hreassembled⟩ := h.reassembled hall
  have hcuts := (reassemble_of_chunks hframes hp hlimit hstream' (List.prefix_refl _)).1
  have hwhole := Cuts.flatten (fun m hm => (hframes m hm).1) (Cuts.rest hp)
  rw [hstream] at hcuts
  rw [List.append_nil, List.append_nil] at hwhole
  exact (congrArg Prod.fst hreassembled).trans (hcuts.unique hwhole).1

/-- A ping with a payload. -/
def pingWith (payload : List Byte) : List Byte :=
  (({} : MessageHeader).sealed payload).message payload

lemma isEncoded_pingWith {payload : List Byte}
    (h : payload.length ≤ kMaxControlPayloadBytes) : IsEncoded (pingWith payload) := by
  have hencoded := encodeMessage_eq {} h
    (List.length_replicate (a := (0 : Byte)) (n := kProtocolHeaderBytes + payload.length)).ge
  refine ⟨{}, payload, List.replicate (kProtocolHeaderBytes + payload.length) 0, ?_, ?_⟩
  · rw [hencoded]
  · rw [hencoded]
    exact (List.take_left' (MessageHeader.length_message _ _)).symm

lemma length_pingWith (payload : List Byte) :
    (pingWith payload).length = kProtocolHeaderBytes + payload.length :=
  MessageHeader.length_message _ _

/-- A ping in one chunk. -/
def pingChunk : Chunk where
  bytes := pingWith []
  length_pos := by simp [length_pingWith, kProtocolHeaderBytes]
  length_le := by simp [length_pingWith, kProtocolHeaderBytes, kReadBufBytes]

/-- A ping and the first ten bytes of another one, and the rest of it. -/
def twoPings : List Chunk :=
  [⟨pingWith [] ++ (pingWith []).take 10, by decide, by decide⟩,
    ⟨(pingWith []).drop 10, by decide, by decide⟩]

theorem messages_delivered_iff_twoPings :
    ((accepted.receive 5 twoPings).session 5).dispatched = [pingWith [], pingWith []] := by
  have hping : ∀ m ∈ [pingWith [], pingWith []], m = pingWith [] := by simp
  have hstream : streamOf twoPings = [pingWith [], pingWith []].flatten := by
    simp only [streamOf, twoPings, List.map_cons, List.map_nil, List.flatten_cons,
      List.flatten_nil, List.append_nil, List.append_assoc, List.take_append_drop]
  have hmessages : ∀ m ∈ [pingWith [], pingWith []], IsEncoded m := by
    intro m hm
    rw [hping m hm]
    exact isEncoded_pingWith (Nat.zero_le _)
  obtain ⟨hiff, hshort, -⟩ := messages_delivered_iff fresh_accepted hmessages hstream
  refine (hiff.mpr (hshort fun m hm => ?_)).2
  rw [hping m hm, length_pingWith]
  decide

/-- A ping whose payload is as long as the buffer. -/
def longPing : List Byte := pingWith (List.replicate 8192 0)

lemma length_longPing : longPing.length = 8216 := by
  rw [longPing, length_pingWith, List.length_replicate]
  rfl

/-- Its first 4096 bytes, the next 4096, and the rest. -/
def longChunks : List Chunk :=
  [⟨longPing.take 4096, by rw [List.length_take, length_longPing]; decide,
      List.length_take_le _ _⟩,
    ⟨(longPing.drop 4096).take 4096,
      by rw [List.length_take, List.length_drop, length_longPing]; decide,
      List.length_take_le _ _⟩,
    ⟨longPing.drop 8192, by rw [List.length_drop, length_longPing]; decide,
      by rw [List.length_drop, length_longPing]; decide⟩]

lemma streamOf_longChunks : streamOf longChunks = longPing := by
  have hrest : (longPing.drop 4096).take 4096 ++ longPing.drop 8192 = longPing.drop 4096 := by
    have hdrop : longPing.drop 8192 = (longPing.drop 4096).drop 4096 := by rw [List.drop_drop]
    rw [hdrop, List.take_append_drop]
  simp only [streamOf, longChunks, List.map_cons, List.map_nil, List.flatten_cons,
    List.flatten_nil, List.append_nil, hrest, List.take_append_drop]

/-- A message that is longer than the buffer is not delivered. -/
theorem long_message_dropped :
    IsEncoded longPing ∧ streamOf longChunks = [longPing].flatten ∧
      ¬ ((∀ front, front <+: longChunks → (accepted.receive 5 front).IsConnected 5) ∧
        ((accepted.receive 5 longChunks).session 5).dispatched = [longPing]) := by
  have hencoded : IsEncoded longPing := by
    apply isEncoded_pingWith
    rw [List.length_replicate]
    decide
  refine ⟨hencoded, by rw [streamOf_longChunks, List.flatten_singleton], ?_⟩
  rintro ⟨hall, -⟩
  rw [fresh_accepted.isConnected_iff] at hall
  -- The last chunk arrives when the buffer is full.
  have hfits := hall (longChunks.take 2) _ (List.prefix_refl longChunks)
  have hstream : streamOf longChunks = [longPing].flatten ++ [] := by
    rw [List.flatten_singleton, List.append_nil, streamOf_longChunks]
  have hframes : ∀ f ∈ [longPing], messageFormat.IsFrame f ∧ f.length ≤ maxMessageBytes := by
    intro f hf
    rw [List.mem_singleton.mp hf]
    exact hencoded.isFrame
  have hrest := (reassemble_of_chunks hframes (incomplete_of_total_none rfl)
    (within_of_total_none rfl) hstream (List.take_prefix 2 _)).2.2.2
  rw [hrest] at hfits
  simp only [streamOf, longChunks, List.take_succ_cons, List.take_zero, List.map_cons, List.map_nil,
    List.flatten_cons, List.flatten_nil, List.append_nil, List.length_append, List.length_take,
    List.length_drop, length_longPing, unfinished, kControlReadBufferBytes] at hfits
  rw [if_neg (by decide)] at hfits
  exact absurd hfits (by decide)

end ServerRun

end ChronosX
