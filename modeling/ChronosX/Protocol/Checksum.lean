import ChronosX.Library.Crc
import ChronosX.Protocol.RoundTrip

/-!
# The checksum

`crc32_update` of `protocol.hpp` takes a byte at a time, with a table of what eight shifts make of
each byte. The checksum it is meant to compute takes one bit at a time, the least significant bit of
each byte first. Both are the CRC of the library with a 32-bit register.
-/

namespace ChronosX

open ByteLayout

/-! ### The table-driven checksum -/

lemma low_bit_iff (crc : UInt32) : crc &&& 1 ≠ 0 ↔ crc.toBitVec.getLsbD 0 = true := by
  rw [ne_eq, ← UInt32.toBitVec_inj, UInt32.toBitVec_and]
  have hbit : crc.toBitVec &&& 1#32 = (BitVec.ofBool (crc.toBitVec.getLsbD 0)).setWidth 32 :=
    BitVec.and_one_eq_setWidth_ofBool_getLsbD
  change ¬ crc.toBitVec &&& 1#32 = 0#32 ↔ _
  rw [hbit]
  cases crc.toBitVec.getLsbD 0 <;> decide

lemma toBitVec_crc32TableLoop (count : ℕ) (crc : UInt32) :
    (crc32TableLoop count crc).toBitVec =
      Crc.rounds kCrc32Polynomial.toBitVec count crc.toBitVec := by
  induction count generalizing crc with
  | zero => rfl
  | succ count ih =>
    rw [crc32TableLoop, ih, Crc.rounds, Crc.round]
    congr 1
    by_cases h : crc &&& 1 ≠ 0
    · rw [if_pos h, if_pos ((low_bit_iff crc).mp h)]
      rfl
    · rw [if_neg h, if_neg (mt (low_bit_iff crc).mpr h)]
      rfl

lemma toBitVec_crc32Update (crc : UInt32) (bytes : List Byte) :
    (crc32Update crc bytes).toBitVec =
      Crc.feed kCrc32Polynomial.toBitVec crc.toBitVec (bytes.map UInt8.toBitVec) := by
  induction bytes generalizing crc with
  | nil => rfl
  | cons byte bytes ih =>
    have hstep : ((crc >>> 8) ^^^ kCrc32Table ((crc ^^^ byte.toUInt32) &&& 0xFF).toUInt8).toBitVec =
        Crc.step kCrc32Polynomial.toBitVec crc.toBitVec byte.toBitVec := by
      have hindex : ((crc ^^^ byte.toUInt32) &&& 0xFF).toUInt8.toUInt32.toBitVec =
          ((crc.toBitVec ^^^ byte.toBitVec.setWidth 32).setWidth 8).setWidth 32 := by
        rw [u32_byte]
        rfl
      rw [Crc.step_eq_table, UInt32.toBitVec_xor, kCrc32Table, toBitVec_crc32TableLoop, hindex]
      rfl
    rw [List.map_cons, Crc.feed_cons, ← hstep, ← ih]
    rfl

/-! ### The bit-serial checksum -/

/-- The bits of a byte, the least significant one first. -/
def byteBits (byte : Byte) : List Bool := (List.range 8).map byte.toNat.testBit

/-- One bit of the specification: it is added to the lowest bit of the register, the register is
shifted, and the reflected polynomial is added if the sum was one. -/
def bitSerialStep (crc : UInt32) (bit : Bool) : UInt32 :=
  if (crc &&& 1 != 0) ^^ bit then (crc >>> 1) ^^^ 0xEDB88320 else crc >>> 1

/-- The register after a string of bytes, one bit at a time. -/
def bitSerialUpdate (crc : UInt32) (bytes : List Byte) : UInt32 :=
  (bytes.flatMap byteBits).foldl bitSerialStep crc

/-- The reflected CRC-32, with its initial value and its final exclusive or. -/
def bitSerialCrc32 (bytes : List Byte) : UInt32 := bitSerialUpdate 0xFFFFFFFF bytes ^^^ 0xFFFFFFFF

lemma toBitVec_bitSerialStep (crc : UInt32) (bit : Bool) :
    (bitSerialStep crc bit).toBitVec =
      Crc.bitStep kCrc32Polynomial.toBitVec crc.toBitVec bit := by
  have hlow : (crc &&& 1 != 0) = crc.toBitVec.getLsbD 0 := by
    rw [Bool.eq_iff_iff, bne_iff_ne]
    exact low_bit_iff crc
  rw [bitSerialStep, Crc.bitStep, hlow]
  split <;> rfl

lemma toBitVec_foldl_bitSerialStep (crc : UInt32) (bits : List Bool) :
    (bits.foldl bitSerialStep crc).toBitVec =
      Crc.feedBits kCrc32Polynomial.toBitVec crc.toBitVec bits := by
  refine (List.foldl_hom UInt32.toBitVec ?_).symm
  intro crc bit
  exact (toBitVec_bitSerialStep crc bit).symm

/-- The table-driven update is the bit-serial one. -/
lemma crc32Update_eq (crc : UInt32) (bytes : List Byte) :
    crc32Update crc bytes = bitSerialUpdate crc bytes := by
  have hbits : (bytes.map UInt8.toBitVec).flatMap (Crc.lowBits 8) = bytes.flatMap byteBits := by
    rw [List.flatMap_map]
    rfl
  apply UInt32.toBitVec_inj.mp
  rw [toBitVec_crc32Update, Crc.feed_eq_feedBits (by decide), hbits, bitSerialUpdate,
    toBitVec_foldl_bitSerialStep]

/-- From every register and for every string, the table-driven update processes the string one bit
at a time; the checksum is the reflected CRC-32; and a string may be processed in two pieces. -/
theorem crc32_bitSerial :
    (∀ (crc : UInt32) (bytes : List Byte), crc32Update crc bytes = bitSerialUpdate crc bytes) ∧
    (∀ bytes : List Byte, crc32 bytes = bitSerialCrc32 bytes) ∧
    ∀ (crc : UInt32) (bytes bytes' : List Byte),
      crc32Update (crc32Update crc bytes) bytes' = crc32Update crc (bytes ++ bytes') := by
  refine ⟨crc32Update_eq, ?_, ?_⟩
  · intro bytes
    rw [crc32, crc32Update_eq, bitSerialCrc32]
  · intro crc bytes bytes'
    exact (crc32Update_append crc bytes bytes').symm

/-- The check value of CRC-32, the checksum of the digits from 1 to 9. -/
example : bitSerialCrc32 [0x31, 0x32, 0x33, 0x34, 0x35, 0x36, 0x37, 0x38, 0x39] = 0xCBF43926 := by
  decide +kernel

end ChronosX
