import ChronosX.Protocol.Codec

/-!
# The message codec round trip

`decode_message` accepts exactly the sealed messages: the bytes of a header with the magic, the
version, the length of the payload and the CRC that `encode_message` puts in it, and the payload,
with anything behind. Both directions of the round trip follow.
-/

namespace ChronosX

open ByteLayout

/-! ### Fields that are read -/

lemma take_drop_succ {bytes : List Byte} {offset : ℕ} (width : ℕ) (h : offset < bytes.length) :
    (bytes.drop offset).take (width + 1) =
      bytes.getD offset 0 :: (bytes.drop (offset + 1)).take width := by
  rw [List.drop_eq_getElem_cons h, List.take_succ_cons]
  simp [h]

/-- Two bytes are read in big-endian order. -/
lemma readU16Be_eq {bytes : List Byte} {offset : ℕ} (h : offset + 2 ≤ bytes.length) :
    (readU16Be bytes offset).toNat = decode .big ((bytes.drop offset).take 2) := by
  rw [readU16Be, toNat_two_bytes, take_drop_succ _ (by omega), take_drop_succ _ (by omega)]
  simp

lemma readU32Be_eq {bytes : List Byte} {offset : ℕ} (h : offset + 4 ≤ bytes.length) :
    (readU32Be bytes offset).toNat = decode .big ((bytes.drop offset).take 4) := by
  rw [readU32Be, toNat_four_bytes, take_drop_succ _ (by omega), take_drop_succ _ (by omega),
    take_drop_succ _ (by omega), take_drop_succ _ (by omega)]
  simp

lemma readU64Be_eq {bytes : List Byte} {offset : ℕ} (h : offset + 8 ≤ bytes.length) :
    (readU64Be bytes offset).toNat = decode .big ((bytes.drop offset).take 8) := by
  have hlow : ((bytes.drop (offset + 4)).take 4).length = 4 :=
    List.length_take_of_le (by rw [List.length_drop]; omega)
  have hsplit : (bytes.drop offset).take 8 =
      (bytes.drop offset).take 4 ++ (bytes.drop (offset + 4)).take 4 := by
    rw [← List.drop_drop, ← List.take_add]
  rw [hsplit, decode_big_append, hlow, readU64Be, toNat_two_words, readU32Be_eq (by omega),
    readU32Be_eq (by omega)]

/-! ### The header that is read -/

/-- The header is read as a record. -/
lemma values_readHeader {input : List Byte} (h : kProtocolHeaderBytes ≤ input.length) :
    (readHeader input).values = ByteLayout.read .big headerLayout input := by
  have hlength : 24 ≤ input.length := h
  have hbyte : ∀ offset, offset + 1 ≤ 24 →
      (input.getD offset 0).toNat = decode .big ((input.drop offset).take 1) := by
    intro offset hoffset
    rw [take_drop_succ 0 (by omega)]
    simp [decode, value]
  simp only [MessageHeader.values, readHeader, headerLayout, ByteLayout.read, List.drop_drop]
  rw [readU16Be_eq (by omega), hbyte 2 (by omega), hbyte 3 (by omega), readU32Be_eq (by omega),
    readU32Be_eq (by omega), readU32Be_eq (by omega), readU64Be_eq (by omega)]
  rfl

lemma values_injective : Function.Injective MessageHeader.values := by
  intro header header' h
  simp only [MessageHeader.values, List.cons.injEq, and_true, UInt16.toNat_inj, UInt8.toNat_inj,
    UInt32.toNat_inj, UInt64.toNat_inj] at h
  obtain ⟨hmagic, hversion, hopcode, hsequence, hlength, hcrc, htimestamp⟩ := h
  cases header with | mk magic version opcode
  cases header' with | mk magic' version' opcode'
  cases opcode
  cases opcode'
  simp_all

/-- The header is read back from a message. -/
lemma readHeader_message (header : MessageHeader) (payload : List Byte) :
    readHeader (header.message payload) = header := by
  apply values_injective
  rw [values_readHeader (by simp), MessageHeader.message, read_write header.fits_values,
    rereadAll_self .big header.fits_values]

/-- The first bytes are those of the header that is read from them. -/
lemma message_readHeader {input : List Byte} (h : kProtocolHeaderBytes ≤ input.length) :
    (readHeader input).message (input.drop kProtocolHeaderBytes) = input := by
  have hpad : Item.pad ∉ headerLayout := by decide
  rw [MessageHeader.message, values_readHeader h, write_read .big hpad h]
  exact List.take_append_drop _ _

/-! ### Accepted messages -/

lemma crc32Update_append (crc : UInt32) (bytes bytes' : List Byte) :
    crc32Update crc (bytes ++ bytes') = crc32Update (crc32Update crc bytes) bytes' :=
  List.foldl_append

/-- The checksum of a message, as `decode_message` computes it from the header and then from a
payload that is not empty. -/
lemma crc32_message (header : MessageHeader) {payloadLength : UInt32} {payload : List Byte}
    (h : payload.length ≤ payloadLength.toNat) :
    (if payloadLength > 0 then
        crc32Update (crc32Update 0xFFFFFFFF (header.message [])) payload
      else crc32Update 0xFFFFFFFF (header.message [])) ^^^ 0xFFFFFFFF =
      crc32 (header.message payload) := by
  have happend : header.message payload = header.message [] ++ payload := by
    rw [MessageHeader.message, MessageHeader.message, List.append_nil]
  rw [crc32, happend, crc32Update_append]
  split
  · rfl
  case isFalse hzero =>
    have hempty : payload = [] := by
      apply List.eq_nil_of_length_eq_zero
      rw [gt_iff_lt, UInt32.lt_iff_toNat_lt, not_lt] at hzero
      exact Nat.le_zero.mp (h.trans hzero)
    rw [hempty]
    rfl

/-- What `decode_message` checks, once there are bytes for a header. -/
lemma decodeMessage_message (header : MessageHeader) (body : List Byte) :
    decodeMessage (header.message body) =
      if header.magic ≠ kProtocolMagic then { status := .invalidMagic }
      else if header.version ≠ kProtocolVersion then { status := .invalidVersion }
      else if header.payloadLength.toNat > kMaxControlPayloadBytes then
        { status := .payloadTooLarge }
      else if body.length < header.payloadLength.toNat then { status := .truncatedPayload }
      else
        let payload := body.take header.payloadLength.toNat
        if crc32 (({ header with crc32 := 0 } : MessageHeader).message payload) ≠ header.crc32 then
          { status := .crcMismatch }
        else { status := .ok, message := { header, payload } } := by
  have hfront : (header.message body).take kProtocolHeaderBytes = header.message [] := by
    rw [MessageHeader.message, MessageHeader.message, List.append_nil]
    exact List.take_left' header.length_write_values
  have hbody : (header.message body).drop kProtocolHeaderBytes = body :=
    List.drop_left' header.length_write_values
  have hcrc := crc32_message { header with crc32 := 0 }
    (List.length_take_le header.payloadLength.toNat body)
  have hlong : ¬ kProtocolHeaderBytes + body.length < kProtocolHeaderBytes := by omega
  rw [decodeMessage]
  simp only [readHeader_message, header.length_message, if_neg hlong, hfront, hbody,
    writeU32Be_message, hcrc, Nat.add_lt_add_iff_left]

lemma sealed_payloadLength (header : MessageHeader) {payload : List Byte}
    (h : payload.length ≤ kMaxControlPayloadBytes) :
    (header.sealed payload).payloadLength.toNat = payload.length :=
  UInt32.toNat_ofNat_of_lt' (h.trans_lt (by decide))

/-- A sealed message is accepted, whatever follows it. -/
lemma decodeMessage_sealed (header : MessageHeader) {payload : List Byte}
    (h : payload.length ≤ kMaxControlPayloadBytes) (rest : List Byte) :
    decodeMessage ((header.sealed payload).message payload ++ rest) =
      { status := .ok, message := { header := header.sealed payload, payload } } := by
  have hbody : (header.sealed payload).message payload ++ rest =
      (header.sealed payload).message (payload ++ rest) := List.append_assoc _ _ _
  have htake : (payload ++ rest).take (header.sealed payload).payloadLength.toNat = payload :=
    List.take_left' (sealed_payloadLength header h).symm
  have hlength := sealed_payloadLength header h
  rw [hbody, decodeMessage_message, if_neg (by simp [MessageHeader.sealed, MessageHeader.normalized]),
    if_neg (by simp [MessageHeader.sealed, MessageHeader.normalized]), if_neg (by omega),
    if_neg (by rw [List.length_append]; omega), htake]
  exact if_neg (not_not.mpr rfl)

/-- A sealed message by itself. -/
lemma decodeMessage_sealed_self (header : MessageHeader) {payload : List Byte}
    (h : payload.length ≤ kMaxControlPayloadBytes) :
    decodeMessage ((header.sealed payload).message payload) =
      { status := .ok, message := { header := header.sealed payload, payload } } := by
  have hdecoded := decodeMessage_sealed header h []
  rwa [List.append_nil] at hdecoded

/-- Only sealed messages are accepted. -/
lemma decodeMessage_ok {input : List Byte} (h : (decodeMessage input).status = .ok) :
    ∃ (header : MessageHeader) (payload rest : List Byte),
      payload.length ≤ kMaxControlPayloadBytes ∧ header.sealed payload = header ∧
        input = header.message payload ++ rest ∧
        (decodeMessage input).message = { header, payload } := by
  have hlong : kProtocolHeaderBytes ≤ input.length := by
    by_contra hshort
    rw [decodeMessage, if_pos (Nat.lt_of_not_le hshort)] at h
    cases h
  obtain ⟨header, body, rfl⟩ : ∃ (header : MessageHeader) (body : List Byte),
      input = header.message body := ⟨_, _, (message_readHeader hlong).symm⟩
  rw [decodeMessage_message] at h ⊢
  split_ifs at h ⊢ with hmagic hversion hsize hbody
  simp only at h ⊢
  split_ifs at h ⊢ with hcrc
  rw [not_not] at hmagic hversion hcrc
  have hlength : (body.take header.payloadLength.toNat).length = header.payloadLength.toNat :=
    List.length_take_of_le (Nat.le_of_not_lt hbody)
  have hnormal : header.normalized (body.take header.payloadLength.toNat) =
      { header with crc32 := 0 } := by
    rw [MessageHeader.normalized, hlength, UInt32.ofNat_toNat, ← hmagic, ← hversion]
  refine ⟨header, body.take header.payloadLength.toNat, body.drop header.payloadLength.toNat,
    ?_, ?_, ?_, rfl⟩
  · rw [hlength]
    exact Nat.le_of_not_lt hsize
  · rw [MessageHeader.sealed, hnormal, hcrc]
  · rw [MessageHeader.message, MessageHeader.message, List.append_assoc, List.take_append_drop]

/-! ### The round trip -/

/-- A message that fits is written in full. -/
lemma encodeMessage_eq (header : MessageHeader) {payload output : List Byte}
    (hpayload : payload.length ≤ kMaxControlPayloadBytes)
    (hroom : kProtocolHeaderBytes + payload.length ≤ output.length) :
    encodeMessage header payload output =
      ({ status := .ok, bytesWritten := kProtocolHeaderBytes + payload.length },
        (header.sealed payload).message payload ++
          output.drop (kProtocolHeaderBytes + payload.length)) := by
  refine (encodeMessage_ok ?_).2.2
  rw [encodeMessage, if_neg (Nat.not_lt_of_le hpayload), if_neg (Nat.not_lt_of_le hroom)]

/-- A message that does not fit leaves the output as it is. -/
lemma encodeMessage_failed {header : MessageHeader} {payload output : List Byte}
    (h : (encodeMessage header payload output).1.status ≠ .ok) :
    (encodeMessage header payload output).2 = output := by
  by_cases hsize : payload.length > kMaxControlPayloadBytes
  · rw [encodeMessage, if_pos hsize]
  by_cases hroom : output.length < kProtocolHeaderBytes + payload.length
  · rw [encodeMessage, if_neg hsize, if_pos hroom]
  · rw [encodeMessage_eq header (Nat.le_of_not_lt hsize) (Nat.le_of_not_lt hroom)] at h
    exact absurd rfl h

/-- Encoding and decoding are inverse to each other on sealed messages, and sealed messages are
all that is written or accepted. -/
theorem encodeMessage_decodeMessage_roundTrip :
    (∀ (header : MessageHeader) (payload output : List Byte),
      payload.length ≤ kMaxControlPayloadBytes →
      kProtocolHeaderBytes + payload.length ≤ output.length →
        let size := kProtocolHeaderBytes + payload.length
        let (result, written) := encodeMessage header payload output
        result = { status := .ok, bytesWritten := size } ∧
          written.length = output.length ∧
          written.drop size = output.drop size ∧
          ∀ rest : List Byte, ∃ decoded : DecodedMessage,
            decodeMessage (written.take size ++ rest) = { status := .ok, message := decoded } ∧
              decoded.header.opcode = header.opcode ∧
              decoded.header.sequence = header.sequence ∧
              decoded.header.timestampNs = header.timestampNs ∧
              decoded.payload = payload ∧
              decoded.header.magic = kProtocolMagic ∧
              decoded.header.version = kProtocolVersion ∧
              decoded.header.payloadLength.toNat = payload.length) ∧
    (∀ (input : List Byte) (decoded : DecodedMessage),
      decodeMessage input = { status := .ok, message := decoded } →
        let size := kProtocolHeaderBytes + decoded.header.payloadLength.toNat
        size ≤ input.length ∧
          ∀ output : List Byte, size ≤ output.length →
            let (result, written) := encodeMessage decoded.header decoded.payload output
            result = { status := .ok, bytesWritten := size } ∧
              written.take size = input.take size) ∧
    ∀ (header : MessageHeader) (payload output : List Byte),
      (encodeMessage header payload output).1.status ≠ .ok →
        (encodeMessage header payload output).2 = output := by
  refine ⟨?_, ?_, ?_⟩
  · intro header payload output hpayload hroom
    have hlength : ((header.sealed payload).message payload).length =
        kProtocolHeaderBytes + payload.length := MessageHeader.length_message _ _
    rw [encodeMessage_eq header hpayload hroom]
    refine ⟨rfl, ?_, List.drop_left' hlength, ?_⟩
    · rw [List.length_append, hlength, List.length_drop, Nat.add_sub_cancel' hroom]
    · intro rest
      rw [List.take_left' hlength, decodeMessage_sealed header hpayload]
      exact ⟨_, rfl, rfl, rfl, rfl, rfl, rfl, rfl, sealed_payloadLength header hpayload⟩
  · intro input decoded hdecoded
    obtain ⟨header, payload, rest, hpayload, hsealed, rfl, hmessage⟩ :=
      decodeMessage_ok (by rw [hdecoded] : (decodeMessage input).status = .ok)
    rw [hdecoded] at hmessage
    subst hmessage
    have hlength : header.payloadLength.toNat = payload.length := by
      rw [← hsealed]
      exact sealed_payloadLength header hpayload
    have hmessage : (header.message payload).length = kProtocolHeaderBytes + payload.length :=
      header.length_message payload
    dsimp only
    rw [hlength]
    refine ⟨?_, ?_⟩
    · rw [List.length_append, hmessage]
      exact Nat.le_add_right _ _
    · intro output hroom
      rw [encodeMessage_eq header hpayload hroom, hsealed]
      refine ⟨rfl, ?_⟩
      rw [List.take_left' hmessage, List.take_left' hmessage]
  · intro header payload output
    exact encodeMessage_failed

/-- A request with junk in its header, sent from a buffer that is longer than the message, and a
buffer too short for any message. -/
theorem roundTrip_junkHeader :
    ∃ decoded : DecodedMessage,
      decodeMessage ((encodeMessage { magic := 7, opcode := .addRule, sequence := 3 } [1, 2]
        (List.replicate 30 0)).2.take 26 ++ [9]) = { status := .ok, message := decoded } ∧
      decoded.payload = [1, 2] ∧
      kProtocolHeaderBytes + decoded.header.payloadLength.toNat ≤ 27 ∧
      (encodeMessage {} [] []).2 = [] := by
  obtain ⟨-, hlength, -, hdecode⟩ := encodeMessage_decodeMessage_roundTrip.1
    { magic := 7, opcode := .addRule, sequence := 3 } [1, 2] (List.replicate 30 0)
    (by decide) (by decide)
  obtain ⟨decoded, hdecoded, -, -, -, hpayload, -⟩ := hdecode [9]
  obtain ⟨hinput, -⟩ := encodeMessage_decodeMessage_roundTrip.2.1 _ decoded hdecoded
  refine ⟨decoded, hdecoded, hpayload, ?_, encodeMessage_decodeMessage_roundTrip.2.2 _ _ _ (by decide)⟩
  refine hinput.trans ?_
  rw [List.length_append, List.length_take, hlength]
  decide

end ChronosX
