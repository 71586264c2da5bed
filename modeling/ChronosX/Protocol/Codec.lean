import ChronosX.Protocol.Basic

/-!
# Encoded messages

What `encode_message` leaves in its output is the record of the normalized header, with the CRC of
the message in it, and the payload.
-/

namespace ChronosX

open ByteLayout

/-! ### Fields -/

lemma writeU16Be_eq {bytes : List Byte} {offset : ℕ} (h : offset + 2 ≤ bytes.length)
    (value : UInt16) :
    writeU16Be bytes offset value = overwrite bytes offset (encode .big 2 value.toNat) := by
  rw [encode_big_u16]
  exact set_set_eq_overwrite h _ _

lemma writeU32Be_eq {bytes : List Byte} {offset : ℕ} (h : offset + 4 ≤ bytes.length)
    (value : UInt32) :
    writeU32Be bytes offset value = overwrite bytes offset (encode .big 4 value.toNat) := by
  have hlength : ∀ b b' : Byte, (overwrite bytes offset [b, b']).length = bytes.length :=
    fun b b' => length_overwrite (by simp only [List.length_cons, List.length_nil]; omega)
  have hpair := set_set_eq_overwrite (by omega : offset + 2 ≤ bytes.length)
    ((value >>> 24) &&& 0xFF).toUInt8 ((value >>> 16) &&& 0xFF).toUInt8
  rw [encode_big_u32, writeU32Be, hpair, set_set_eq_overwrite (by rw [hlength]; omega)]
  exact overwrite_overwrite (by omega) _ _

lemma writeU64Be_eq {bytes : List Byte} {offset : ℕ} (h : offset + 8 ≤ bytes.length)
    (value : UInt64) :
    writeU64Be bytes offset value = overwrite bytes offset (encode .big 8 value.toNat) := by
  have hlength : ∀ n, (overwrite bytes offset (encode .big 4 n)).length = bytes.length :=
    fun n => length_overwrite (by rw [length_encode]; omega)
  have hfirst := writeU32Be_eq (by omega : offset + 4 ≤ bytes.length)
    ((value >>> 32) &&& 0xFFFFFFFF).toUInt32
  have hjoin := overwrite_overwrite (by omega : offset ≤ bytes.length)
    (encode .big 4 ((value >>> 32) &&& 0xFFFFFFFF).toUInt32.toNat)
    (encode .big 4 (value &&& 0xFFFFFFFF).toUInt32.toNat)
  rw [length_encode] at hjoin
  rw [writeU64Be, hfirst, writeU32Be_eq (by rw [hlength]; omega), hjoin, encode_big_u64]

/-! ### The header -/

def headerLayout : List Item :=
  [.field 2, .field 1, .field 1, .field 4, .field 4, .field 4, .field 8]

namespace MessageHeader

variable (header : MessageHeader)

/-- The values of the fields in the order of the layout. -/
def values : List ℕ :=
  [header.magic.toNat, header.version.toNat, header.opcode.raw.toNat, header.sequence.toNat,
    header.payloadLength.toNat, header.crc32.toNat, header.timestampNs.toNat]

/-- The header that `encode_message` writes before it knows the CRC. -/
def normalized (payload : List Byte) : MessageHeader :=
  { header with
    magic := kProtocolMagic
    version := kProtocolVersion
    payloadLength := UInt32.ofNat payload.length
    crc32 := 0 }

/-- A message: the bytes of the header and the payload. -/
def message (payload : List Byte) : List Byte := write .big headerLayout header.values ++ payload

/-- The header that `encode_message` sends. -/
def sealed (payload : List Byte) : MessageHeader :=
  { header.normalized payload with
    crc32 := ChronosX.crc32 ((header.normalized payload).message payload) }

lemma fits_values : fits headerLayout header.values = true := by
  simp only [headerLayout, values, fits, toNat_lt_one, toNat_lt_two, toNat_lt_four,
    toNat_lt_eight, decide_true, Bool.and_true]

@[simp] lemma length_write_values :
    (write .big headerLayout header.values).length = kProtocolHeaderBytes :=
  length_write header.fits_values

end MessageHeader

/-- The header function writes the record of the header, with no CRC, at the front. -/
lemma writeHeaderWithoutCrc_eq (header : MessageHeader) {output : List Byte}
    (h : kProtocolHeaderBytes ≤ output.length) :
    writeHeaderWithoutCrc header output =
      ({ header with crc32 := 0 } : MessageHeader).message (output.drop kProtocolHeaderBytes) := by
  have hlength : ∀ acc : List Byte, acc.length ≤ 24 →
      (overwrite output 0 acc).length = output.length :=
    fun acc hacc => length_overwrite (by rw [Nat.zero_add]; exact hacc.trans h)
  -- `acc` is the part of the header written so far, and the next field extends it.
  have byte : ∀ (acc : List Byte) (offset : ℕ) (b : Byte), acc.length = offset → offset < 24 →
      (overwrite output 0 acc).set offset b =
        overwrite output 0 (acc ++ encode .big 1 b.toNat) := by
    rintro acc _ b rfl hacc
    have hb : encode .big 1 b.toNat = [b] := by simp [encode, digits]
    rw [set_eq_overwrite (by rw [hlength acc hacc.le]; exact hacc.trans_le h),
      overwrite_zero_overwrite, hb]
  have word : ∀ (acc : List Byte) (offset : ℕ) (v : UInt32), acc.length = offset →
      offset + 4 ≤ 24 → writeU32Be (overwrite output 0 acc) offset v =
        overwrite output 0 (acc ++ encode .big 4 v.toNat) := by
    rintro acc _ v rfl hacc
    rw [writeU32Be_eq (by rw [hlength acc (by omega)]; exact hacc.trans h),
      overwrite_zero_overwrite]
  have long : ∀ (acc : List Byte) (offset : ℕ) (v : UInt64), acc.length = offset →
      offset + 8 ≤ 24 → writeU64Be (overwrite output 0 acc) offset v =
        overwrite output 0 (acc ++ encode .big 8 v.toNat) := by
    rintro acc _ v rfl hacc
    rw [writeU64Be_eq (by rw [hlength acc (by omega)]; exact hacc.trans h),
      overwrite_zero_overwrite]
  have hmagic : 0 + 2 ≤ output.length := le_trans (by decide) h
  simp only [writeHeaderWithoutCrc]
  rw [writeU16Be_eq hmagic, byte _ 2 _ (by simp) (by decide), byte _ 3 _ (by simp) (by decide),
    word _ 4 _ (by simp) (by decide), word _ 8 _ (by simp) (by decide),
    word _ 12 _ (by simp) (by decide), long _ 16 _ (by simp) (by decide), overwrite_zero]
  simp [MessageHeader.message, MessageHeader.values, headerLayout, write, kProtocolHeaderBytes]

/-! ### Messages -/

/-- The CRC field of a message is overwritten. -/
lemma overwrite_message (header : MessageHeader) (payload : List Byte) (crc : UInt32) :
    overwrite (header.message payload) 12 (encode .big 4 crc.toNat) =
      ({ header with crc32 := crc } : MessageHeader).message payload := by
  have hfields : ∀ crc : UInt32, ({ header with crc32 := crc } : MessageHeader).message payload =
      write .big (headerLayout.take 5) (header.values.take 5) ++ encode .big 4 crc.toNat ++
        (encode .big 8 header.timestampNs.toNat ++ payload) := by
    intro crc
    simp [MessageHeader.message, MessageHeader.values, headerLayout, write]
  have hbefore : (write .big (headerLayout.take 5) (header.values.take 5)).length = 12 := by
    simp [MessageHeader.values, headerLayout, write]
  rw [hfields crc, show header.message payload = _ from hfields header.crc32, ← hbefore]
  exact overwrite_middle _ (by rw [length_encode, length_encode]) _

@[simp] lemma MessageHeader.length_message (header : MessageHeader) (payload : List Byte) :
    (header.message payload).length = kProtocolHeaderBytes + payload.length := by
  rw [MessageHeader.message, List.length_append, header.length_write_values]

lemma writeU32Be_message (header : MessageHeader) (payload : List Byte) (crc : UInt32) :
    writeU32Be (header.message payload) 12 crc =
      ({ header with crc32 := crc } : MessageHeader).message payload := by
  have hbound : 12 + 4 ≤ (header.message payload).length := by
    rw [header.length_message]
    exact Nat.le_add_right_of_le (by decide)
  rw [writeU32Be_eq hbound, overwrite_message]

/-- The payload is copied behind the header. -/
lemma copy_payload (header : MessageHeader) {payload rest : List Byte}
    (h : payload.length = rest.length) :
    (if payload.isEmpty then header.message rest
      else overwrite (header.message rest) kProtocolHeaderBytes payload) =
      header.message payload := by
  cases payload with
  | nil =>
    rw [List.eq_nil_of_length_eq_zero h.symm]
    rfl
  | cons b payload =>
    have hmiddle := overwrite_middle (write .big headerLayout header.values) h []
    rw [header.length_write_values, List.append_nil, List.append_nil] at hmiddle
    exact hmiddle

/-- What `encode_message` does when it succeeds. -/
lemma encodeMessage_ok {header : MessageHeader} {payload output : List Byte}
    (h : (encodeMessage header payload output).1.status = .ok) :
    payload.length ≤ kMaxControlPayloadBytes ∧
      kProtocolHeaderBytes + payload.length ≤ output.length ∧
      encodeMessage header payload output =
        ({ status := .ok, bytesWritten := kProtocolHeaderBytes + payload.length },
          (header.sealed payload).message payload ++
            output.drop (kProtocolHeaderBytes + payload.length)) := by
  have hsize : ¬ payload.length > kMaxControlPayloadBytes := by
    intro hlarge
    rw [encodeMessage, if_pos hlarge] at h
    cases h
  have hroom : ¬ output.length < kProtocolHeaderBytes + payload.length := by
    intro hsmall
    rw [encodeMessage, if_neg hsize, if_pos hsmall] at h
    cases h
  refine ⟨Nat.le_of_not_lt hsize, Nat.le_of_not_lt hroom, ?_⟩
  have htaken : (output.take (kProtocolHeaderBytes + payload.length)).length =
      kProtocolHeaderBytes + payload.length := List.length_take_of_le (Nat.le_of_not_lt hroom)
  have hrest : payload.length =
      ((output.take (kProtocolHeaderBytes + payload.length)).drop kProtocolHeaderBytes).length := by
    rw [List.length_drop, htaken, Nat.add_sub_cancel_left]
  rw [encodeMessage, if_neg hsize, if_neg hroom]
  simp only
  rw [writeHeaderWithoutCrc_eq _ (by rw [htaken]; exact Nat.le_add_right _ _), copy_payload _ hrest,
    writeU32Be_message]
  rfl

end ChronosX
