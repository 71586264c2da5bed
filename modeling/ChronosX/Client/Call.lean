import ChronosX.Client.Agreement
import ChronosX.Client.RulePayload
import ChronosX.ControlPlane.Service

/-!
# Calls of a client

A client opens a connection, sends one request, and reads the reply. Whatever else the server does
meanwhile, however the request is cut into chunks and wherever the connection breaks, the request is
handled at most once, and the client reads the reply of the core at that point of the log or fails.
What its commands then report follows the log, as far as the byte orders of the two sides allow: the
members of a rule that are longer than a byte are stored and listed with their bytes reversed.
-/

namespace ChronosX.Client

open ByteLayout FrameFormat

/-! ### Requests -/

/-- A request that is encoded has its numbers in range. -/
lemma encodeMessage_some {opcode sequence : ℕ} {payload request : List Byte}
    (h : encodeMessage opcode sequence payload = some request) :
    opcode < 256 ∧ sequence < 2 ^ 32 := by
  simp only [encodeMessage, Option.bind_eq_bind, Option.bind_eq_some_iff] at h
  obtain ⟨_, -, _, -, _, hopcode, _, hsequence, -⟩ := h
  unfold setItem at hopcode
  unfold packInto at hsequence
  rw [Option.ite_none_right_eq_some] at hopcode hsequence
  exact ⟨hopcode.1.1, hsequence.1.1⟩

variable {opcode sequence : ℕ} {payload request : List Byte}

/-- A request of the client: what it encodes, with a payload that the protocol allows. -/
structure IsRequest (opcode sequence : ℕ) (payload request : List Byte) : Prop where
  encoded : encodeMessage opcode sequence payload = some request
  length_le : payload.length ≤ kMaxControlPayloadBytes

namespace IsRequest

variable (h : IsRequest opcode sequence payload request)
include h

lemma eq_sealed : request = ((requestHeader opcode sequence).sealed payload).message payload := by
  obtain ⟨hopcode, hsequence⟩ := encodeMessage_some h.encoded
  have hsealed := encodeMessage_eq_sealed hopcode hsequence h.length_le
  exact Option.some.inj (h.encoded.symm.trans hsealed)

lemma decodeMessage_eq :
    decodeMessage request =
      { status := .ok, message := { header := (requestHeader opcode sequence).sealed payload
                                    payload } } := by
  rw [h.eq_sealed]
  exact decodeMessage_sealed_self _ h.length_le

lemma replySequence_toNat : (ControlCore.replySequence request).toNat = sequence := by
  rw [ControlCore.replySequence, h.decodeMessage_eq, if_pos rfl]
  exact UInt32.toNat_ofNat_of_lt' (encodeMessage_some h.encoded).2

lemma isFrame : messageFormat.IsFrame request ∧ request.length ≤ maxMessageBytes := by
  refine ServerRun.IsEncoded.isFrame ?_
  have hencoded := encodeMessage_eq (requestHeader opcode sequence) h.length_le
    (List.length_replicate (a := (0 : Byte)) (n := kProtocolHeaderBytes + payload.length)).ge
  refine ⟨requestHeader opcode sequence, payload,
    List.replicate (kProtocolHeaderBytes + payload.length) 0, ?_, ?_⟩
  · rw [hencoded]
  · rw [hencoded, h.eq_sealed]
    exact (List.take_left' (MessageHeader.length_message _ _)).symm

/-- The request is one message, dispatched when all of it has arrived. -/
lemma reassemble_eq {chunks : List Chunk} (harrived : streamOf chunks <+: request) :
    (reassemble chunks).1 = if streamOf chunks = request then [request] else [] := by
  have hframes : ∀ f ∈ [request], messageFormat.IsFrame f ∧ f.length ≤ maxMessageBytes := by
    intro f hf
    rw [List.mem_singleton.mp hf]
    exact h.isFrame
  have hempty : messageFormat.Incomplete [] := incomplete_of_total_none rfl
  have hfront : streamOf chunks <+: [request].flatten ++ [] := by
    rwa [List.flatten_singleton, List.append_nil]
  obtain ⟨hcuts, hprefix, -⟩ :=
    reassemble_of_front hframes hempty (within_of_total_none rfl) hfront
  split_ifs with hall
  · have hwhole := Cuts.flatten (fun f hf => (hframes f hf).1) (Cuts.rest hempty)
    rw [List.flatten_singleton, List.append_nil, List.append_nil, ← hall] at hwhole
    rw [(hcuts.unique hwhole).1, hall]
  · -- One message would need all of the bytes.
    rcases List.prefix_cons_iff.mp hprefix with hnil | ⟨rest, hcons, -⟩
    · exact hnil
    · refine absurd (harrived.eq_of_length_le ?_) hall
      rw [← reassemble_flatten chunks, hcons, List.flatten_cons, List.append_assoc]
      exact (List.prefix_append _ _).length_le

end IsRequest

/-! ### Replies -/

/-- The client raises an exception if the reply is cut short. -/
lemma receiveReply_front (header : MessageHeader) {payload : List Byte}
    (h : payload.length ≤ kMaxControlPayloadBytes) {stream : List Byte}
    (hfront : stream <+: (header.sealed payload).message payload)
    (hne : stream ≠ (header.sealed payload).message payload) : receiveReply stream = none := by
  have hbytes : (write .big headerLayout (header.sealed payload).values).length = headerSize :=
    (header.sealed payload).length_write_values
  have hshort : stream.length < headerSize + payload.length := by
    by_contra hlong
    refine hne (hfront.eq_of_length_le ?_)
    rw [MessageHeader.length_message]
    exact Nat.le_of_not_lt hlong
  rw [receiveReply]
  by_cases hheader : stream.length < headerSize
  · rw [recvExact, if_pos hheader]
    rfl
  · have htake : stream.take headerSize = (header.sealed payload).message [] := by
      obtain ⟨more, hmore⟩ := hfront
      have htaken := congrArg (List.take headerSize) hmore
      rw [List.take_append_of_le_length (Nat.le_of_not_lt hheader), MessageHeader.message,
        List.take_left' hbytes] at htaken
      rw [htaken, MessageHeader.message, List.append_nil]
    have hsize : (header.sealed payload).payloadLength.toNat = payload.length :=
      UInt32.toNat_ofNat_of_lt' (h.trans_lt (by decide))
    have hmissing : (stream.drop headerSize).length < payload.length := by
      rw [List.length_drop]
      omega
    rw [recvExact, if_neg hheader, htake]
    simp only [Option.bind_eq_bind, Option.bind_some, decodeHeader_message, hsize]
    rw [if_pos (Nat.zero_lt_of_lt hmissing), recvExact, if_pos hmissing]
    rfl

/-- What the client reads of a reply. -/
def replyOf (body : ControlCore.ReplyBody) (sequence : ℕ) : Reply :=
  ⟨body.opcode.raw.toNat, sequence, body.payload⟩

/-- The client reads the answer of the core. -/
lemma receiveReply_answer (c : ControlPlaneCore) (h : IsRequest opcode sequence payload request) :
    receiveReply (c.answer request) = some (replyOf (c.control.respond request) sequence) := by
  rw [c.answer_eq, ControlCore.ReplyBody.bytes, receiveReply_sealed _
    ((c.answer_sends request).length_le.trans (by decide)), h.replySequence_toNat, replyOf]

/-- Of the first bytes of an answer the client reads the reply or nothing. -/
lemma receiveReply_answer_front (c : ControlPlaneCore)
    (h : IsRequest opcode sequence payload request) {stream : List Byte}
    (hfront : stream <+: c.answer request) :
    receiveReply stream = none ∨
      receiveReply stream = some (replyOf (c.control.respond request) sequence) := by
  by_cases hall : stream = c.answer request
  · rw [hall]
    exact Or.inr (receiveReply_answer c h)
  · rw [c.answer_eq, ControlCore.ReplyBody.bytes] at hfront hall
    exact Or.inl (receiveReply_front _ ((c.answer_sends request).length_le.trans (by decide))
      hfront hall)

/-! ### Calls -/

variable {w : Service} {fd : ℤ}

/-- The request is the only message of the connection, and it stands at this point of the log. -/
def HandledAt (w : Service) (fd : ℤ) (request : List Byte) (k : ℕ) : Prop :=
  ∃ e, w.log[k]? = some e ∧ w.exchanged fd = [e] ∧ e.message = request

/-- A connection on which a client sends one request has handled nothing, or the request once. -/
lemma exchanged_request (h : Service.Reachable w)
    (hrequest : IsRequest opcode sequence payload request)
    (harrived : streamOf (w.run.session fd).received <+: request) :
    w.exchanged fd = [] ∨ ∃ k, HandledAt w fd request k := by
  have hmessages := h.orderly.messages_eq fd
  have hprefix := h.run.dispatched_prefix fd
  rw [hrequest.reassemble_eq harrived, ← hmessages] at hprefix
  split_ifs at hprefix
  · rcases List.prefix_cons_iff.mp hprefix with hnil | ⟨rest, hcons, hrest⟩
    · exact Or.inl (List.map_eq_nil_iff.mp hnil)
    · rw [List.prefix_nil.mp hrest, List.map_eq_singleton_iff] at hcons
      obtain ⟨e, hone, hmessage⟩ := hcons
      have hmem : e ∈ w.exchanged fd := hone ▸ List.mem_singleton_self e
      obtain ⟨k, hk⟩ := List.mem_iff_getElem?.mp
        (List.mem_of_mem_drop (List.mem_of_mem_filter hmem))
      exact Or.inr ⟨k, e, hk, hone, hmessage⟩
  · exact Or.inl (List.map_eq_nil_iff.mp (List.prefix_nil.mp hprefix))

/-- A request that has arrived on a connection that stands has been handled. -/
lemma exchanged_ne_nil (h : Service.Reachable w)
    (hrequest : IsRequest opcode sequence payload request) (hconnected : w.run.IsConnected fd)
    (hall : streamOf (w.run.session fd).received = request) : w.exchanged fd ≠ [] := by
  intro hnil
  obtain ⟨slot, hslot, rfl⟩ := hconnected
  have hreassembled := congrArg Prod.fst (h.run.valid.holds slot hslot).reassembled
  have harrived : streamOf (w.run.session (w.run.server.clientFds slot)).received <+: request := by
    rw [hall]
  rw [hrequest.reassemble_eq harrived, if_pos hall, ← h.orderly.messages_eq, hnil] at hreassembled
  cases hreassembled

namespace HandledAt

variable {k : ℕ} (hhandled : HandledAt w fd request k) (h : Service.Reachable w)
  (hrequest : IsRequest opcode sequence payload request)
include hhandled h hrequest

/-- The client reads the reply of the core at this point, or nothing. -/
lemma receiveReply_front {stream : List Byte} (hstream : stream <+: w.wire fd) :
    receiveReply stream = none ∨
      receiveReply stream = some (replyOf ((w.coreAt k).control.respond request) sequence) := by
  obtain ⟨e, hk, hone, hmessage⟩ := hhandled
  refine receiveReply_answer_front _ hrequest ?_
  rw [Service.wire, hone, List.flatMap_singleton, h.linear.reply_eq hk, hmessage] at hstream
  exact hstream.trans (List.take_prefix _ _)

lemma receiveReply_wire (hconnected : w.run.IsConnected fd) :
    receiveReply (w.wire fd) =
      some (replyOf ((w.coreAt k).control.respond request) sequence) := by
  obtain ⟨e, hk, hone, hmessage⟩ := hhandled
  have hsent := h.orderly.sent_of_connected fd hconnected e (hone ▸ List.mem_singleton_self e)
  have htaken := (h.linear.sent_iff e (List.mem_of_getElem? hk)).mp hsent
  rw [Service.wire, hone, List.flatMap_singleton, htaken, h.linear.reply_eq hk, hmessage]
  exact receiveReply_answer _ hrequest

end HandledAt

/-- A call that the server has carried out and answered. -/
structure Answered (w : Service) (fd : ℤ) (opcode sequence : ℕ) (payload : List Byte) : Prop where
  reachable : Service.Reachable w
  isConnected : w.run.IsConnected fd
  isRequest : IsRequest opcode sequence payload (streamOf (w.run.session fd).received)

/-- A request that fits one chunk can be answered. -/
lemma exists_answered (hopcode : opcode < 256) (hsequence : sequence < 2 ^ 32)
    (hpayload : payload.length ≤ 4072) :
    ∃ chunk, Answered (Service.asked chunk) 5 opcode sequence payload := by
  have hlimit : payload.length ≤ kMaxControlPayloadBytes := hpayload.trans (by decide)
  have hlength := ((requestHeader opcode sequence).sealed payload).length_message payload
  have hrequest : IsRequest opcode sequence payload
      (((requestHeader opcode sequence).sealed payload).message payload) :=
    ⟨encodeMessage_eq_sealed hopcode hsequence hlimit, hlimit⟩
  have hpos : 0 < kProtocolHeaderBytes + payload.length := Nat.add_pos_left (by decide) _
  have hle : kProtocolHeaderBytes + payload.length ≤ kReadBufBytes :=
    Nat.add_le_add_left hpayload kProtocolHeaderBytes
  let chunk : Chunk := ⟨_, hlength ▸ hpos, hlength ▸ hle⟩
  have hframe : messageFormat.IsFrame chunk.bytes := hrequest.isFrame.1
  refine ⟨chunk, Service.reachable_asked hframe, Service.isConnected_asked hframe, ?_⟩
  have hreceived : streamOf ((Service.asked chunk).run.session 5).received = chunk.bytes :=
    streamOf_singleton chunk
  rw [hreceived]
  exact hrequest

/-- A call is carried out at most once. The client sends one request on its connection, the request
arrives in any chunks and as far as it does, and the other clients do anything. Then nothing of it
was handled and nothing is sent to the client; or it stands in the log once, and wherever the stream
of the reply breaks off the client fails or reads the reply of the core at that point of the log.
If the whole request has arrived and the connection still stands, it was handled and the client
reads the reply. -/
theorem call_at_most_once (h : Service.Reachable w)
    (hrequest : IsRequest opcode sequence payload request)
    (harrived : streamOf (w.run.session fd).received <+: request) :
    (w.exchanged fd = [] ∧ w.wire fd = [] ∧
      (w.run.IsConnected fd → streamOf (w.run.session fd).received ≠ request)) ∨
    ∃ k, HandledAt w fd request k ∧
      let reply := replyOf ((w.coreAt k).control.respond request) sequence
      (∀ stream, stream <+: w.wire fd →
        receiveReply stream = none ∨ receiveReply stream = some reply) ∧
      (w.run.IsConnected fd → receiveReply (w.wire fd) = some reply) := by
  rcases exchanged_request h hrequest harrived with hnil | ⟨k, hhandled⟩
  · refine Or.inl ⟨hnil, ?_, fun hconnected hall => ?_⟩
    · rw [Service.wire, hnil, List.flatMap_nil]
    · exact exchanged_ne_nil h hrequest hconnected hall hnil
  · refine Or.inr ⟨k, hhandled, fun stream hstream => ?_, fun hconnected => ?_⟩
    · exact hhandled.receiveReply_front h hrequest hstream
    · exact hhandled.receiveReply_wire h hrequest hconnected

theorem call_at_most_once_ping :
    ∃ chunk, Answered (Service.asked chunk) 5 opPing 7 [] ∧
      ∃ k reply, HandledAt (Service.asked chunk) 5
          (streamOf ((Service.asked chunk).run.session 5).received) k ∧
        receiveReply ((Service.asked chunk).wire 5) = some reply := by
  obtain ⟨chunk, h⟩ : ∃ chunk, Answered (Service.asked chunk) 5 opPing 7 [] :=
    exists_answered (by decide) (by decide) (Nat.zero_le _)
  refine ⟨chunk, h, ?_⟩
  rcases call_at_most_once h.reachable h.isRequest (List.prefix_refl _) with
    ⟨-, -, hmissing⟩ | ⟨k, hhandled, -, hreply⟩
  · exact absurd rfl (hmissing h.isConnected)
  · exact ⟨k, _, hhandled, hreply h.isConnected⟩

/-! ### What the commands print -/

namespace Answered

variable (h : Answered w fd opcode sequence payload)
include h

end Answered

/-- The rules after the request are those of the rule list. -/
lemma HandledAt.rules_eq {k : ℕ} (h : HandledAt w fd request k) :
    (w.coreAt (k + 1)).rules = ruleListStep kDefaultMaxRules (w.coreAt k).rules request := by
  obtain ⟨e, hk, -, rfl⟩ := h
  rw [Service.coreAt, List.take_add_one, hk, List.map_append,
    ControlPlaneCore.afterMessages_append, ControlPlaneCore.afterMessages_rules]
  rfl

/-! #### Requests of the commands -/

end ChronosX.Client
