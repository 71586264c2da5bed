import ChronosX.Protocol.Checksum

/-!
# Corruption that the CRC detects

The checksum of `protocol.hpp` is the CRC of the library with a 32-bit register, so two messages
that differ in a window of at most four bytes have different checksums. A corrupted message is
accepted only if its CRC field and the checksum of its other bytes change together, which a window
that lies wholly in one of them cannot achieve; the length field is left out, since it decides which
bytes are covered.
-/

namespace ChronosX

open ByteLayout

/-! ### Windows -/

lemma msb_polynomial : kCrc32Polynomial.toBitVec.msb = true := by decide

/-- The checksum tells apart bytes that differ in a window of at most four bytes. -/
lemma crc32_window (before after : List Byte) {window window' : List Byte}
    (hlength : window.length = window'.length) (hwindow : window.length ≤ 4)
    (h : crc32 (before ++ window ++ after) = crc32 (before ++ window' ++ after)) :
    window = window' := by
  have hfeed := congrArg UInt32.toBitVec ((UInt32.xor_left_inj _).mp h)
  simp only [toBitVec_crc32Update, List.map_append] at hfeed
  have hmap := Crc.feed_window_injective msb_polynomial _ (by simpa using hlength)
    (by rw [List.length_map]; omega) _ _ hfeed
  exact List.map_injective_iff.mpr (fun _ _ => UInt8.toBitVec_inj.mp) hmap

lemma crc32_overwrite {bytes window : List Byte} {offset : ℕ} (hwindow : window.length ≤ 4)
    (hroom : offset + window.length ≤ bytes.length)
    (h : crc32 (overwrite bytes offset window) = crc32 bytes) :
    (bytes.drop offset).take window.length = window := by
  have hsplit : bytes.take offset ++ (bytes.drop offset).take window.length ++
      bytes.drop (offset + window.length) = bytes := by
    rw [← List.drop_drop, List.append_assoc, List.take_append_drop, List.take_append_drop]
  have hlength : ((bytes.drop offset).take window.length).length = window.length :=
    List.length_take_of_le (by rw [List.length_drop]; omega)
  apply crc32_window (bytes.take offset) (bytes.drop (offset + window.length)) hlength
    (hlength.trans_le hwindow)
  rw [hsplit]
  exact h.symm

/-! ### Accepted messages -/

/-- The bytes that the CRC of a message with a payload of the given length covers. -/
def covered (input : List Byte) (payloadLength : ℕ) : List Byte :=
  overwrite (input.take (kProtocolHeaderBytes + payloadLength)) 12 [0, 0, 0, 0]

lemma length_covered {input : List Byte} {payloadLength : ℕ}
    (h : kProtocolHeaderBytes + payloadLength ≤ input.length) :
    (covered input payloadLength).length = kProtocolHeaderBytes + payloadLength := by
  have htaken : (input.take (kProtocolHeaderBytes + payloadLength)).length =
      kProtocolHeaderBytes + payloadLength := List.length_take_of_le h
  rw [covered, length_overwrite, htaken]
  rw [htaken]
  exact Nat.le_add_right_of_le (by decide)

/-- An accepted message carries the checksum of what it covers. -/
lemma decodeMessage_covered {input : List Byte} (h : (decodeMessage input).status = .ok) :
    (decodeMessage input).message.header = readHeader input ∧
      kProtocolHeaderBytes + (readHeader input).payloadLength.toNat ≤ input.length ∧
      (readHeader input).crc32 = crc32 (covered input (readHeader input).payloadLength.toNat) := by
  obtain ⟨header, payload, rest, hpayload, hsealed, rfl, hmessage⟩ := decodeMessage_ok h
  have hlength : header.payloadLength.toNat = payload.length := by
    rw [← hsealed]
    exact sealed_payloadLength header hpayload
  have hread : readHeader (header.message payload ++ rest) = header := by
    rw [MessageHeader.message, List.append_assoc]
    exact readHeader_message header (payload ++ rest)
  have htake : (header.message payload ++ rest).take (kProtocolHeaderBytes + payload.length) =
      header.message payload := List.take_left' (header.length_message payload)
  have hzeroed : overwrite (header.message payload) 12 [0, 0, 0, 0] =
      (header.normalized payload).message payload := by
    rw [← hsealed]
    exact overwrite_message (header.sealed payload) payload 0
  rw [hread, hmessage, hlength, covered, htake, hzeroed]
  refine ⟨rfl, ?_, ?_⟩
  · rw [List.length_append, header.length_message]
    exact Nat.le_add_right _ _
  · nth_rewrite 1 [← hsealed]
    rfl

/-! ### A corrupted window -/

variable {input window : List Byte} {offset : ℕ}

lemma readU32Be_overwrite {pos : ℕ} (hroom : offset + window.length ≤ input.length)
    (hpos : pos + 4 ≤ input.length)
    (hapart : pos + 4 ≤ offset ∨ offset + window.length ≤ pos) :
    readU32Be (overwrite input offset window) pos = readU32Be input pos := by
  apply UInt32.toNat_inj.mp
  rw [readU32Be_eq (by rwa [length_overwrite hroom]), readU32Be_eq hpos,
    drop_take_overwrite_of_apart hroom hapart]

/-- A window outside the CRC field is found in what the CRC covers. -/
lemma covered_overwrite {length : ℕ} (hlength : kProtocolHeaderBytes + length ≤ input.length)
    (hroom : offset + window.length ≤ kProtocolHeaderBytes + length)
    (hapart : offset + window.length ≤ 12 ∨ 16 ≤ offset) :
    covered (overwrite input offset window) length =
      overwrite (covered input length) offset window ∧
    ((covered input length).drop offset).take window.length =
      (input.drop offset).take window.length := by
  have htaken : (input.take (kProtocolHeaderBytes + length)).length =
      kProtocolHeaderBytes + length := List.length_take_of_le hlength
  have hfield : 12 + [0, 0, 0, (0 : Byte)].length ≤ kProtocolHeaderBytes + length :=
    Nat.le_add_right_of_le (by decide)
  refine ⟨?_, ?_⟩
  · rw [covered, covered, take_overwrite hroom hlength]
    exact overwrite_comm (by rwa [htaken]) (by rwa [htaken]) hapart
  · rw [covered, drop_take_overwrite_of_apart (by rwa [htaken]) hapart, drop_take_take hroom]

/-- A window in the CRC field is not covered. -/
lemma covered_overwrite_crc {length : ℕ} (hlength : kProtocolHeaderBytes + length ≤ input.length)
    (hinside : 12 ≤ offset ∧ offset + window.length ≤ 16) :
    covered (overwrite input offset window) length = covered input length := by
  have htaken : (input.take (kProtocolHeaderBytes + length)).length =
      kProtocolHeaderBytes + length := List.length_take_of_le hlength
  have hfield : 12 + [0, 0, 0, (0 : Byte)].length ≤ kProtocolHeaderBytes + length :=
    Nat.le_add_right_of_le (by decide)
  rw [covered, covered, take_overwrite (hinside.2.trans (le_trans (by decide) hfield)) hlength]
  exact overwrite_overwrite_inside (by rwa [htaken]) hinside

/-- A window in the CRC field with the same field as before is the same as before. -/
lemma window_of_crc (hinput : kProtocolHeaderBytes ≤ input.length)
    (hinside : 12 ≤ offset ∧ offset + window.length ≤ 16)
    (h : readU32Be (overwrite input offset window) 12 = readU32Be input 12) :
    (input.drop offset).take window.length = window := by
  have h24 : 24 ≤ input.length := hinput
  have hlength : (overwrite input offset window).length = input.length :=
    length_overwrite (by omega)
  have hfield : ((overwrite input offset window).drop 12).take 4 = (input.drop 12).take 4 := by
    apply decode_injective .big
    · rw [List.length_take, List.length_take, List.length_drop, List.length_drop, hlength]
    · rw [← readU32Be_eq (by omega), h, readU32Be_eq (by omega)]
  -- the window within the field
  have hwithin : ∀ bytes : List Byte, (((bytes.drop 12).take 4).drop (offset - 12)).take
      window.length = (bytes.drop offset).take window.length := by
    intro bytes
    rw [drop_take_take (by omega), List.drop_drop, Nat.add_sub_cancel' hinside.1]
  rw [← hwithin, ← hfield, hwithin, drop_take_overwrite (by omega)]

/-- Replacing a window of at most four bytes by different contents makes an accepted message
rejected, when the window lies in the bytes before the payload length, in the CRC field or in the
timestamp and the payload. -/
theorem decodeMessage_rejects_window (input window : List Byte) (offset : ℕ)
    (haccepted : (decodeMessage input).status = .ok) (hwindow : window.length ≤ 4)
    (hdifferent : (input.drop offset).take window.length ≠ window)
    (hplace : offset + window.length ≤ 8 ∨
      (12 ≤ offset ∧ offset + window.length ≤ 16) ∨
      (16 ≤ offset ∧ offset + window.length ≤
        24 + (decodeMessage input).message.header.payloadLength.toNat)) :
    (decodeMessage (overwrite input offset window)).status ≠ .ok := by
  intro haccepted'
  obtain ⟨hheader, hlength, hcrc⟩ := decodeMessage_covered haccepted
  obtain ⟨-, -, hcrc'⟩ := decodeMessage_covered haccepted'
  rw [hheader] at hplace
  have hroom : offset + window.length ≤
      kProtocolHeaderBytes + (readHeader input).payloadLength.toNat := by
    rw [kProtocolHeaderBytes]
    omega
  have hsize : 24 ≤ input.length := (Nat.le_add_right _ _).trans hlength
  have hpayload : (readHeader (overwrite input offset window)).payloadLength =
      (readHeader input).payloadLength :=
    readU32Be_overwrite (hroom.trans hlength) (by omega) (by omega)
  rw [hpayload] at hcrc'
  by_cases hfield : 12 ≤ offset ∧ offset + window.length ≤ 16
  · rw [covered_overwrite_crc hlength hfield, ← hcrc] at hcrc'
    exact hdifferent (window_of_crc hsize hfield hcrc')
  · have hapart : offset + window.length ≤ 12 ∨ 16 ≤ offset := by omega
    obtain ⟨hcovered, hsame⟩ := covered_overwrite hlength hroom hapart
    have hkept : (readHeader (overwrite input offset window)).crc32 = (readHeader input).crc32 :=
      readU32Be_overwrite (hroom.trans hlength) (by omega) (by omega)
    rw [hkept, hcrc, hcovered] at hcrc'
    apply hdifferent
    rw [← hsame]
    refine crc32_overwrite hwindow ?_ hcrc'.symm
    rwa [length_covered hlength]

/-- A ping with a payload of two bytes. -/
def pingBytes : List Byte :=
  [67, 88, 1, 1, 0, 0, 0, 7, 0, 0, 0, 2, 89, 171, 254, 141, 0, 0, 0, 0, 0, 0, 0, 0, 1, 2]

/-- The first payload byte of a ping is corrupted. -/
theorem decodeMessage_rejects_window_ping :
    (decodeMessage (overwrite pingBytes 24 [9])).status ≠ .ok := by
  have haccepted : (decodeMessage pingBytes).status = .ok ∧
      (decodeMessage pingBytes).message.header.payloadLength.toNat = 2 := by decide +kernel
  apply decodeMessage_rejects_window _ _ _ haccepted.1 (by decide) (by decide)
  rw [haccepted.2]
  decide

end ChronosX
