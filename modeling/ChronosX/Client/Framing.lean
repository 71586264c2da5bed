import ChronosX.Client.Basic
import ChronosX.Protocol.Codec

/-!
# Messages from the server to the client

The client's CRC is the server's, and the client reads the opcode, the sequence number and the
payload of every message `encode_message` writes.
-/

namespace ChronosX.Client

open ByteLayout

/-! ### CRC-32 -/

lemma crc32TableLoop_toNat (count : ℕ) (crc : UInt32) :
    crc32TableLoop count crc.toNat = (ChronosX.crc32TableLoop count crc).toNat := by
  induction count generalizing crc with
  | zero => rfl
  | succ count ih =>
    have hbit : crc.toNat &&& 1 ≠ 0 ↔ crc &&& 1 ≠ 0 := by
      rw [ne_eq, ne_eq, ← UInt32.toNat_inj, UInt32.toNat_and]
      rfl
    have hshift : (crc >>> 1).toNat = crc.toNat >>> 1 := rfl
    rw [crc32TableLoop, ChronosX.crc32TableLoop]
    by_cases h : crc &&& 1 ≠ 0
    · rw [if_pos (hbit.mpr h), if_pos h, ← ih, UInt32.toNat_xor, hshift]
      rfl
    · rw [if_neg (mt hbit.mp h), if_neg h, ← ih, hshift]

lemma crcTable_toNat (i : UInt8) : crcTable i.toNat = (kCrc32Table i).toNat := by
  have hloop := crc32TableLoop_toNat 8 i.toUInt32
  have hmask := Nat.and_two_pow_sub_one_of_lt_two_pow (kCrc32Table i).toNat_lt
  rw [UInt8.toNat_toUInt32] at hloop
  rw [crcTable, hloop]
  exact hmask

/-- One byte changes the two checksums alike. -/
lemma crc_step (crc : UInt32) (byte : Byte) :
    crcTable ((crc.toNat ^^^ byte.toNat) &&& 0xFF) ^^^ (crc.toNat >>> 8) =
      ((crc >>> 8) ^^^ kCrc32Table ((crc ^^^ byte.toUInt32) &&& 0xFF).toUInt8).toNat := by
  have hindex : (crc.toNat ^^^ byte.toNat) &&& 0xFF =
      ((crc ^^^ byte.toUInt32) &&& 0xFF).toUInt8.toNat := by
    rw [u32_byte, UInt8.toNat_ofNat', UInt32.toNat_xor, UInt8.toNat_toUInt32]
    exact Nat.and_two_pow_sub_one_eq_mod _ 8
  rw [hindex, crcTable_toNat, UInt32.toNat_xor, Nat.xor_comm]
  rfl

lemma computeCrc32_eq (data : List Byte) : computeCrc32 data = (crc32 data).toNat := by
  have hfold : ∀ crc : UInt32,
      data.foldl (fun crc byte => crcTable ((crc ^^^ byte.toNat) &&& 0xFF) ^^^ (crc >>> 8))
        crc.toNat = (crc32Update crc data).toNat := by
    induction data with
    | nil => exact fun _ => rfl
    | cons byte data ih =>
      intro crc
      rw [List.foldl_cons, crc_step, ih]
      rfl
  rw [computeCrc32, crc32, UInt32.toNat_xor, ← hfold]
  rfl

/-! ### Reading a message -/

lemma unpackOne_middle {width n : ℕ} (h : n < 256 ^ width) (before after : List Byte) :
    unpackOne width (before ++ encode .big width n ++ after) before.length = some n := by
  have hlength : ¬ (before ++ encode .big width n ++ after).length < before.length + width := by
    rw [List.length_append, List.length_append, length_encode]
    omega
  rw [unpackOne, if_neg hlength, List.append_assoc, List.drop_left,
    List.take_left' (length_encode _ _ _), decode_encode _ h]

lemma unpackOne_crc32 (header : MessageHeader) (payload : List Byte) :
    unpackOne 4 (header.message payload) 12 = some header.crc32.toNat := by
  have h := unpackOne_middle (toNat_lt_four header.crc32)
    (write .big (headerLayout.take 5) (header.values.take 5))
    (encode .big 8 header.timestampNs.toNat ++ payload)
  simpa [MessageHeader.message, MessageHeader.values, headerLayout, write] using h

/-- The client reads the fields of the header. -/
lemma decodeHeader_message (header : MessageHeader) (payload : List Byte) :
    decodeHeader (header.message payload) =
      some ⟨header.magic.toNat, header.version.toNat, header.opcode.raw.toNat,
        header.sequence.toNat, header.payloadLength.toNat, header.crc32.toNat⟩ := by
  have hmagic : unpackOne 2 (header.message payload) 0 = some header.magic.toNat := by
    have h := unpackOne_middle (toNat_lt_two header.magic) []
      (write .big (headerLayout.drop 1) (header.values.drop 1) ++ payload)
    simpa [MessageHeader.message, MessageHeader.values, headerLayout, write] using h
  have hsequence : unpackOne 4 (header.message payload) 4 = some header.sequence.toNat := by
    have h := unpackOne_middle (toNat_lt_four header.sequence)
      (write .big (headerLayout.take 3) (header.values.take 3))
      (write .big (headerLayout.drop 4) (header.values.drop 4) ++ payload)
    simpa [MessageHeader.message, MessageHeader.values, headerLayout, write] using h
  have hlength : unpackOne 4 (header.message payload) 8 = some header.payloadLength.toNat := by
    have h := unpackOne_middle (toNat_lt_four header.payloadLength)
      (write .big (headerLayout.take 4) (header.values.take 4))
      (write .big (headerLayout.drop 5) (header.values.drop 5) ++ payload)
    simpa [MessageHeader.message, MessageHeader.values, headerLayout, write] using h
  have hversion : (header.message payload)[2]? = some header.version := by
    simp [MessageHeader.message, MessageHeader.values, headerLayout, write, encode, digits]
  have hopcode : (header.message payload)[3]? = some header.opcode.raw := by
    simp [MessageHeader.message, MessageHeader.values, headerLayout, write, encode, digits]
  have hbound : ¬ (header.message payload).length < headerSize := by
    rw [header.length_message]
    exact Nat.not_lt.mpr (Nat.le_add_right _ _)
  rw [decodeHeader, if_neg hbound, hmagic, hversion, hopcode, hsequence, hlength,
    unpackOne_crc32]
  rfl

/-- The client accepts the CRC of a message from the server. -/
lemma verifyMessageCrc_sealed (header : MessageHeader) (payload : List Byte) :
    verifyMessageCrc ((header.sealed payload).message []) payload = some true := by
  have hlength : ((header.sealed payload).message []).length = headerSize :=
    MessageHeader.length_message _ _
  -- With its CRC field zeroed the message is the one the server computed the CRC of.
  have hzeroed : packInto 4 ((header.sealed payload).message []) 12 0 =
      some ((header.normalized payload).message []) := by
    rw [packInto, if_pos ⟨by decide, by rw [hlength]; decide⟩]
    exact congrArg some (overwrite_message (header.sealed payload) [] 0)
  have hcrc : computeCrc32 ((header.normalized payload).message [] ++ payload) =
      (header.sealed payload).crc32.toNat := by
    rw [computeCrc32_eq, MessageHeader.message, List.append_nil]
    rfl
  rw [verifyMessageCrc, if_neg (not_not.mpr hlength), unpackOne_crc32, hzeroed]
  exact congrArg some (beq_iff_eq.mpr hcrc)

/-- The client reads a message from the server. -/
lemma receiveReply_sealed (header : MessageHeader) {payload : List Byte}
    (h : payload.length ≤ kMaxControlPayloadBytes) :
    receiveReply ((header.sealed payload).message payload) =
      some ⟨header.opcode.raw.toNat, header.sequence.toNat, payload⟩ := by
  have hbytes : (write .big headerLayout (header.sealed payload).values).length = headerSize :=
    (header.sealed payload).length_write_values
  have hheader : recvExact ((header.sealed payload).message payload) headerSize =
      some ((header.sealed payload).message [], payload) := by
    have hbound : ¬ ((header.sealed payload).message payload).length < headerSize := by
      rw [MessageHeader.length_message]
      exact Nat.not_lt.mpr (Nat.le_add_right _ _)
    rw [recvExact, if_neg hbound, MessageHeader.message, MessageHeader.message, List.append_nil,
      List.take_left' hbytes, List.drop_left' hbytes]
  have hsize : (header.sealed payload).payloadLength.toNat = payload.length :=
    UInt32.toNat_ofNat_of_lt' (h.trans_lt (by decide))
  have hpayload : recvExact payload payload.length = some (payload, []) := by
    rw [recvExact, if_neg (Nat.lt_irrefl _), List.take_length, List.drop_length]
  rw [receiveReply, hheader]
  simp only [Option.bind_eq_bind, Option.bind_some, decodeHeader_message, hsize]
  by_cases hempty : payload.length > 0
  · rw [if_pos hempty, hpayload]
    simp only [Option.bind_some, verifyMessageCrc_sealed]
    rfl
  · obtain rfl : payload = [] := List.eq_nil_of_length_eq_zero (Nat.eq_zero_of_not_pos hempty)
    rw [if_neg hempty, verifyMessageCrc_sealed]
    rfl

end ChronosX.Client
