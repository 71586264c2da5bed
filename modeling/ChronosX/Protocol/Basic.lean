import ChronosX.Types
import ChronosX.Library.ByteLayout

/-!
# The control protocol

`protocol.hpp`: messages of a 24-byte big-endian header and a payload, protected by a CRC-32 over
the message with the CRC field zeroed. A span of bytes is the list of its bytes; a function that
writes to a span returns the bytes it leaves there.
-/

namespace ChronosX

open ByteLayout

def kProtocolMagic : UInt16 := 0x4358
def kProtocolVersion : UInt8 := 1
def kProtocolHeaderBytes : ℕ := 24
def kMaxControlPayloadBytes : ℕ := 64 * 1024
def kDefaultMaxRules : ℕ := 128

/-- `enum class Opcode : std::uint8_t`. The opcode of a received header is cast from its byte, so
every 8-bit value can occur, named or not. -/
structure Opcode where
  raw : UInt8
deriving DecidableEq, Repr

namespace Opcode

def ping : Opcode := ⟨0x01⟩
def pong : Opcode := ⟨0x02⟩
def getStats : Opcode := ⟨0x10⟩
def statsResponse : Opcode := ⟨0x11⟩
def addRule : Opcode := ⟨0x20⟩
def removeRule : Opcode := ⟨0x21⟩
def clearRules : Opcode := ⟨0x22⟩
def listRules : Opcode := ⟨0x23⟩
def rulesResponse : Opcode := ⟨0x24⟩
def error : Opcode := ⟨0xFF⟩

end Opcode

inductive ProtocolStatus where
  | ok
  | bufferTooSmall
  | payloadTooLarge
  | invalidMagic
  | invalidVersion
  | truncatedPayload
  | crcMismatch
  | unknownOpcode
  | invalidPayload
  | ruleTableFull
  | ruleIndexOutOfRange
deriving DecidableEq, Repr

def protocolStatusName : ProtocolStatus → String
  | .ok                  => "Ok"
  | .bufferTooSmall      => "BufferTooSmall"
  | .payloadTooLarge     => "PayloadTooLarge"
  | .invalidMagic        => "InvalidMagic"
  | .invalidVersion      => "InvalidVersion"
  | .truncatedPayload    => "TruncatedPayload"
  | .crcMismatch         => "CrcMismatch"
  | .unknownOpcode       => "UnknownOpcode"
  | .invalidPayload      => "InvalidPayload"
  | .ruleTableFull       => "RuleTableFull"
  | .ruleIndexOutOfRange => "RuleIndexOutOfRange"

structure MessageHeader where
  magic : UInt16 := kProtocolMagic
  version : UInt8 := kProtocolVersion
  opcode : Opcode := .ping
  sequence : UInt32 := 0
  payloadLength : UInt32 := 0
  crc32 : UInt32 := 0
  timestampNs : UInt64 := 0
deriving DecidableEq, Repr

structure DecodedMessage where
  header : MessageHeader := {}
  payload : List Byte := []
deriving DecidableEq, Repr

structure EncodeResult where
  status : ProtocolStatus := .ok
  bytesWritten : ℕ := 0
deriving DecidableEq, Repr

structure DecodeResult where
  status : ProtocolStatus := .ok
  message : DecodedMessage := {}
deriving DecidableEq, Repr

/-! ### Big-endian fields -/

def readU16Be (bytes : List Byte) (offset : ℕ) : UInt16 :=
  ((bytes.getD offset 0).toUInt16 <<< 8) ||| (bytes.getD (offset + 1) 0).toUInt16

def readU32Be (bytes : List Byte) (offset : ℕ) : UInt32 :=
  ((bytes.getD offset 0).toUInt32 <<< 24) ||| ((bytes.getD (offset + 1) 0).toUInt32 <<< 16) |||
    ((bytes.getD (offset + 2) 0).toUInt32 <<< 8) ||| (bytes.getD (offset + 3) 0).toUInt32

def readU64Be (bytes : List Byte) (offset : ℕ) : UInt64 :=
  ((readU32Be bytes offset).toUInt64 <<< 32) ||| (readU32Be bytes (offset + 4)).toUInt64

def writeU16Be (bytes : List Byte) (offset : ℕ) (value : UInt16) : List Byte :=
  let bytes := bytes.set offset ((value >>> 8) &&& 0xFF).toUInt8
  bytes.set (offset + 1) (value &&& 0xFF).toUInt8

def writeU32Be (bytes : List Byte) (offset : ℕ) (value : UInt32) : List Byte :=
  let bytes := bytes.set offset ((value >>> 24) &&& 0xFF).toUInt8
  let bytes := bytes.set (offset + 1) ((value >>> 16) &&& 0xFF).toUInt8
  let bytes := bytes.set (offset + 2) ((value >>> 8) &&& 0xFF).toUInt8
  bytes.set (offset + 3) (value &&& 0xFF).toUInt8

def writeU64Be (bytes : List Byte) (offset : ℕ) (value : UInt64) : List Byte :=
  let bytes := writeU32Be bytes offset ((value >>> 32) &&& 0xFFFFFFFF).toUInt32
  writeU32Be bytes (offset + 4) (value &&& 0xFFFFFFFF).toUInt32

/-! ### CRC-32 -/

def kCrc32Polynomial : UInt32 := 0xEDB88320

/-- The inner loop of `generate_crc32_table` with `count` bits left. -/
def crc32TableLoop : (count : ℕ) → UInt32 → UInt32
  | 0, crc         => crc
  | count + 1, crc =>
    crc32TableLoop count (if crc &&& 1 ≠ 0 then (crc >>> 1) ^^^ kCrc32Polynomial else crc >>> 1)

/-- `kCrc32Table[index]`, as `generate_crc32_table` computes it. -/
def kCrc32Table (index : UInt8) : UInt32 := crc32TableLoop 8 index.toUInt32

def crc32Update (crc : UInt32) (bytes : List Byte) : UInt32 :=
  bytes.foldl (fun crc byte =>
    let index := ((crc ^^^ byte.toUInt32) &&& 0xFF).toUInt8
    (crc >>> 8) ^^^ kCrc32Table index) crc

def crc32 (bytes : List Byte) : UInt32 := crc32Update 0xFFFFFFFF bytes ^^^ 0xFFFFFFFF

/-! ### Encoding and decoding -/

def writeHeaderWithoutCrc (header : MessageHeader) (output : List Byte) : List Byte :=
  let output := writeU16Be output 0 header.magic
  let output := output.set 2 header.version
  let output := output.set 3 header.opcode.raw
  let output := writeU32Be output 4 header.sequence
  let output := writeU32Be output 8 header.payloadLength
  let output := writeU32Be output 12 0
  writeU64Be output 16 header.timestampNs

/-- `encode_message`: the result, and the bytes of the output span afterwards. -/
def encodeMessage (header : MessageHeader) (payload output : List Byte) :
    EncodeResult × List Byte :=
  if payload.length > kMaxControlPayloadBytes then ({ status := .payloadTooLarge }, output)
  else
    let totalSize := kProtocolHeaderBytes + payload.length
    if output.length < totalSize then ({ status := .bufferTooSmall }, output)
    else
      let normalized := { header with
        magic := kProtocolMagic
        version := kProtocolVersion
        payloadLength := UInt32.ofNat payload.length
        crc32 := 0 }
      let message := writeHeaderWithoutCrc normalized (output.take totalSize)
      let message := if payload.isEmpty then message
        else overwrite message kProtocolHeaderBytes payload
      let computedCrc := crc32 message
      let message := writeU32Be message 12 computedCrc
      ({ status := .ok, bytesWritten := totalSize }, message ++ output.drop totalSize)

/-- The header fields `decode_message` reads. -/
def readHeader (input : List Byte) : MessageHeader where
  magic := readU16Be input 0
  version := input.getD 2 0
  opcode := ⟨input.getD 3 0⟩
  sequence := readU32Be input 4
  payloadLength := readU32Be input 8
  crc32 := readU32Be input 12
  timestampNs := readU64Be input 16

def decodeMessage (input : List Byte) : DecodeResult :=
  if input.length < kProtocolHeaderBytes then { status := .bufferTooSmall }
  else
    let header := readHeader input
    if header.magic ≠ kProtocolMagic then { status := .invalidMagic }
    else if header.version ≠ kProtocolVersion then { status := .invalidVersion }
    else if header.payloadLength.toNat > kMaxControlPayloadBytes then { status := .payloadTooLarge }
    else
      let totalSize := kProtocolHeaderBytes + header.payloadLength.toNat
      if input.length < totalSize then { status := .truncatedPayload }
      else
        let payload := (input.drop kProtocolHeaderBytes).take header.payloadLength.toNat
        let headerForCrc := writeU32Be (input.take kProtocolHeaderBytes) 12 0
        let computedCrc := crc32Update 0xFFFFFFFF headerForCrc
        let computedCrc := if header.payloadLength > 0 then crc32Update computedCrc payload
          else computedCrc
        let computedCrc := computedCrc ^^^ 0xFFFFFFFF
        if computedCrc ≠ header.crc32 then { status := .crcMismatch }
        else { status := .ok, message := { header, payload } }

end ChronosX
