import ChronosX.Client.Framing
import ChronosX.Protocol.RoundTrip

/-!
# The two framings agree

`chronos_client.py` and `protocol.hpp` frame messages on their own. The client's buffer, filled
field by field, is the header that `encode_message` of the server would send with the timestamp
zero, so both sides send sealed messages, and each accepts what the other sends.
-/

namespace ChronosX.Client

open ByteLayout

/-! ### Filling the buffer -/

variable {acc buf : List Byte}

/-- A field behind what has been written so far. -/
lemma packInto_next {width value offset : ℕ} (hoffset : acc.length = offset)
    (hvalue : value < 256 ^ width) (hroom : offset + width ≤ buf.length) :
    packInto width (overwrite buf 0 acc) offset value =
      some (overwrite buf 0 (acc ++ encode .big width value)) := by
  subst hoffset
  have hlength : (overwrite buf 0 acc).length = buf.length := length_overwrite (by omega)
  rw [packInto, if_pos ⟨hvalue, by rwa [hlength]⟩, overwrite_zero_overwrite]

/-- A byte behind what has been written so far. -/
lemma setItem_next {value offset : ℕ} (hoffset : acc.length = offset) (hvalue : value < 256)
    (hroom : offset < buf.length) :
    setItem (overwrite buf 0 acc) offset value =
      some (overwrite buf 0 (acc ++ encode .big 1 value)) := by
  subst hoffset
  have hlength : (overwrite buf 0 acc).length = buf.length := length_overwrite (by omega)
  have hbyte : encode .big 1 value = [UInt8.ofNat value] := by simp [encode, digits]
  rw [setItem, if_pos ⟨hvalue, by rwa [hlength]⟩, set_eq_overwrite (by rwa [hlength]),
    overwrite_zero_overwrite, hbyte]

/-- The header of a request, before it is sealed. -/
def requestHeader (opcode sequence : ℕ) : MessageHeader where
  opcode := ⟨UInt8.ofNat opcode⟩
  sequence := UInt32.ofNat sequence

/-- The buffer with every field but the CRC is the header that the server computes the CRC of. -/
lemma buffer_eq {opcode sequence : ℕ} {payload : List Byte} (hopcode : opcode < 256)
    (hsequence : sequence < 2 ^ 32) (hpayload : payload.length ≤ kMaxControlPayloadBytes) :
    overwrite (List.replicate headerSize 0) 0
      (encode .big 2 protocolMagic ++ encode .big 1 protocolVersion ++ encode .big 1 opcode ++
        encode .big 4 sequence ++ encode .big 4 payload.length ++ encode .big 4 0) =
      ((requestHeader opcode sequence).normalized payload).message [] := by
  have hop : (UInt8.ofNat opcode).toNat = opcode := UInt8.toNat_ofNat_of_lt' hopcode
  have hseq : (UInt32.ofNat sequence).toNat = sequence := UInt32.toNat_ofNat_of_lt' hsequence
  have hsize : (UInt32.ofNat payload.length).toNat = payload.length :=
    UInt32.toNat_ofNat_of_lt' (hpayload.trans_lt (by decide))
  have hzero : encode .big 8 0 = List.replicate 8 0 := by decide
  rw [overwrite_zero]
  simp [MessageHeader.message, MessageHeader.values, MessageHeader.normalized, requestHeader,
    headerLayout, write, hop, hseq, hsize, hzero, headerSize, protocolMagic, protocolVersion,
    kProtocolMagic, kProtocolVersion]

/-- The client sends sealed messages. -/
lemma encodeMessage_eq_sealed {opcode sequence : ℕ} {payload : List Byte} (hopcode : opcode < 256)
    (hsequence : sequence < 2 ^ 32) (hpayload : payload.length ≤ kMaxControlPayloadBytes) :
    encodeMessage opcode sequence payload =
      some (((requestHeader opcode sequence).sealed payload).message payload) := by
  have hsize : payload.length < 256 ^ 4 := hpayload.trans_lt (by decide)
  have hstart : List.replicate headerSize (0 : Byte) =
      overwrite (List.replicate headerSize 0) 0 [] := by
    rw [overwrite_zero]
    rfl
  have hbuffer := buffer_eq hopcode hsequence hpayload
  have hcrc : computeCrc32 (((requestHeader opcode sequence).normalized payload).message [] ++
      payload) = ((requestHeader opcode sequence).sealed payload).crc32.toNat := by
    rw [computeCrc32_eq, MessageHeader.message, List.append_nil]
    rfl
  have hseal : packInto 4 (((requestHeader opcode sequence).normalized payload).message []) 12
      ((requestHeader opcode sequence).sealed payload).crc32.toNat =
        some (((requestHeader opcode sequence).sealed payload).message []) := by
    rw [packInto, if_pos ⟨toNat_lt_four _, by rw [MessageHeader.length_message]; decide⟩,
      overwrite_message]
    rfl
  rw [encodeMessage]
  simp only [Option.bind_eq_bind]
  rw [hstart, packInto_next List.length_nil (by decide) (by decide), Option.bind_some,
    setItem_next (by simp) (by decide) (by decide), Option.bind_some,
    setItem_next (by simp) hopcode (by decide), Option.bind_some,
    packInto_next (by simp) hsequence (by decide), Option.bind_some,
    packInto_next (by simp) hsize (by decide), Option.bind_some,
    packInto_next (by simp) (by decide) (by decide), Option.bind_some, List.nil_append, hbuffer,
    hcrc, hseal, Option.bind_some]
  simp [MessageHeader.message]

/-! ### Agreement -/

/-- A request of the client is accepted by the server with the same opcode, sequence number and
payload, and the client reads every field of a message that the server writes, from the whole
message or from its header alone, and accepts its CRC. -/
theorem framing_agrees :
    (∀ (opcode sequence : ℕ) (payload : List Byte), opcode < 256 → sequence < 2 ^ 32 →
      payload.length ≤ 65536 →
        ∃ (bytes : List Byte) (decoded : DecodedMessage),
          encodeMessage opcode sequence payload = some bytes ∧
            decodeMessage bytes = { status := .ok, message := decoded } ∧
            decoded.header.opcode.raw.toNat = opcode ∧
            decoded.header.sequence.toNat = sequence ∧
            decoded.payload = payload) ∧
    ∀ (header : MessageHeader) (payload output : List Byte),
      (ChronosX.encodeMessage header payload output).1.status = .ok →
        let (result, written) := ChronosX.encodeMessage header payload output
        let message := written.take result.bytesWritten
        let read : Header :=
          { magic := kProtocolMagic.toNat
            version := kProtocolVersion.toNat
            opcode := header.opcode.raw.toNat
            sequence := header.sequence.toNat
            payloadLength := payload.length
            crc := (crc32 (writeU32Be message 12 0)).toNat }
        decodeHeader message = some read ∧
          decodeHeader (message.take headerSize) = some read ∧
          message.drop headerSize = payload ∧
          verifyMessageCrc (message.take headerSize) (message.drop headerSize) = some true := by
  refine ⟨?_, ?_⟩
  · intro opcode sequence payload hopcode hsequence hpayload
    have hdecode := decodeMessage_sealed_self (requestHeader opcode sequence) hpayload
    refine ⟨_, _, encodeMessage_eq_sealed hopcode hsequence hpayload, hdecode, ?_, ?_, rfl⟩
    · exact UInt8.toNat_ofNat_of_lt' hopcode
    · exact UInt32.toNat_ofNat_of_lt' hsequence
  · intro header payload output hok
    obtain ⟨hpayload, -, hencode⟩ := encodeMessage_ok hok
    have hlength : ((header.sealed payload).message payload).length =
        kProtocolHeaderBytes + payload.length := MessageHeader.length_message _ _
    have hfront : ((header.sealed payload).message payload).take headerSize =
        (header.sealed payload).message [] := by
      rw [MessageHeader.message, MessageHeader.message, List.append_nil]
      exact List.take_left' (header.sealed payload).length_write_values
    have hback : ((header.sealed payload).message payload).drop headerSize = payload :=
      List.drop_left' (header.sealed payload).length_write_values
    have hzeroed : writeU32Be ((header.sealed payload).message payload) 12 0 =
        (header.normalized payload).message payload := writeU32Be_message _ _ _
    have hread : ∀ body, decodeHeader ((header.sealed payload).message body) =
        some ⟨kProtocolMagic.toNat, kProtocolVersion.toNat, header.opcode.raw.toNat,
          header.sequence.toNat, payload.length,
          (crc32 ((header.normalized payload).message payload)).toNat⟩ := by
      intro body
      rw [decodeHeader_message, sealed_payloadLength header hpayload]
      rfl
    rw [hencode]
    simp only [List.take_left' hlength, hfront, hback, hzeroed, hread, true_and]
    exact verifyMessageCrc_sealed header payload

/-- A request with the largest opcode and sequence number, and a response of the server. -/
theorem framing_agrees_request :
    (∃ (bytes : List Byte) (decoded : DecodedMessage),
      encodeMessage 255 (2 ^ 32 - 1) [1, 2] = some bytes ∧
        decodeMessage bytes = { status := .ok, message := decoded } ∧
        decoded.payload = [1, 2]) ∧
    (ChronosX.encodeMessage { opcode := .pong } [7] (List.replicate 25 0)).1.status = .ok ∧
    ((ChronosX.encodeMessage { opcode := .pong } [7] (List.replicate 25 0)).2.take 25).drop 24 =
      [7] := by
  obtain ⟨bytes, decoded, hencode, hdecode, -, -, hpayload⟩ :=
    framing_agrees.1 255 (2 ^ 32 - 1) [1, 2] (by decide) (by decide) (by decide)
  have hok : (ChronosX.encodeMessage { opcode := .pong } [7] (List.replicate 25 0)).1.status = .ok :=
    rfl
  obtain ⟨-, -, hbody, -⟩ := framing_agrees.2 { opcode := .pong } [7] (List.replicate 25 0) hok
  exact ⟨⟨bytes, decoded, hencode, hdecode, hpayload⟩, hok, hbody⟩

end ChronosX.Client
