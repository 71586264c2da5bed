import ChronosX.Types
import ChronosX.Library.MemProg

/-!
# The packet parser

`packet_parser.hpp`: one pass over an Ethernet / IPv4 / TCP or UDP frame that reads header
fields in place and stops at the first check that fails. A pointer into the UMEM is the
offset of the byte it points at, with `none` for `nullptr`, and the parser is a memory
program, so the bytes it reads are part of its meaning.
-/

namespace ChronosX

open Mem

/-- A program over the bytes of the UMEM. -/
abbrev UmemProg := Prog ℕ Byte

/-- The bytes of the UMEM, by offset. -/
abbrev Umem := ℕ → Byte

def kEtherTypeIPv4 : UInt16 := 0x0800
def kIPv4ProtocolTCP : UInt8 := 6
def kIPv4ProtocolUDP : UInt8 := 17
def kIPv4FragmentOffsetMask : UInt16 := 0x1FFF

inductive ParseStatus where
  | ok
  | nullData
  | tooShortForEthernet
  | nonIPv4
  | tooShortForIPv4
  | invalidIPv4Version
  | invalidIPv4HeaderLength
  | truncatedIPv4Header
  | ipv4TotalLengthTooSmall
  | ipv4TotalLengthExceedsFrame
  | ipv4FragmentWithoutL4
  | unsupportedTransport
  | tooShortForTCP
  | invalidTCPHeaderLength
  | truncatedTCPHeader
  | tooShortForUDP
  | invalidUDPLength
  | truncatedUDPPayload
deriving DecidableEq, Repr

structure PacketView where
  data : Option ℕ := none
  frameLength : ℕ := 0
  status : ParseStatus := .tooShortForEthernet
  etherType : UInt16 := 0
  ipv4Protocol : UInt8 := 0
  ipv4HeaderLength : ℕ := 0
  ipv4TotalLength : ℕ := 0
  srcIp : UInt32 := 0
  dstIp : UInt32 := 0
  l3Offset : ℕ := 0
  l4Offset : ℕ := 0
  payloadOffset : ℕ := 0
  payloadLength : ℕ := 0
  tcpHeaderLength : ℕ := 0
  srcPort : UInt16 := 0
  dstPort : UInt16 := 0
deriving DecidableEq, Repr

/-- `PacketView::ok`. -/
def PacketView.ok (view : PacketView) : Bool := view.status == .ok

/-- `PacketView::dst_mac`. -/
def PacketView.dstMac (view : PacketView) : Option ℕ :=
  if view.frameLength ≥ kEthernetHeaderBytes then view.data else none

/-- `PacketView::src_mac`. -/
def PacketView.srcMac (view : PacketView) : Option ℕ :=
  if view.frameLength ≥ kEthernetHeaderBytes then view.data.map (· + 6) else none

/-- `PacketView::payload_data`. -/
def PacketView.payloadData (view : PacketView) : Option ℕ :=
  if view.ok ∧ view.payloadOffset ≤ view.frameLength then
    view.data.map (· + view.payloadOffset)
  else none

/-- `data[offset]`. -/
def readByte (data offset : ℕ) : UmemProg Byte := read (data + offset)

def readBe16 (data offset : ℕ) : UmemProg UInt16 := do
  let high ← readByte data offset
  let low ← readByte data (offset + 1)
  return (high.toUInt16 <<< 8) ||| low.toUInt16

def readBe32 (data offset : ℕ) : UmemProg UInt32 := do
  let b0 ← readByte data offset
  let b1 ← readByte data (offset + 1)
  let b2 ← readByte data (offset + 2)
  let b3 ← readByte data (offset + 3)
  return (b0.toUInt32 <<< 24) ||| (b1.toUInt32 <<< 16) ||| (b2.toUInt32 <<< 8) ||| b3.toUInt32

def ipv4Version (versionIhl : Byte) : UInt8 := versionIhl >>> 4

def ipv4IhlWords (versionIhl : Byte) : UInt8 := versionIhl &&& 0x0F

def tcpDataOffsetWords (dataOffsetReserved : Byte) : UInt8 := dataOffsetReserved >>> 4

/-- The TCP branch of `parse_packet`. -/
def parseTcp (data : ℕ) (view : PacketView) (transportLength : ℕ) : UmemProg PacketView := do
  if transportLength < kTCPBaseHeaderBytes then
    return { view with status := .tooShortForTCP }
  let dataOffsetWords := tcpDataOffsetWords (← readByte data (view.l4Offset + 12))
  if dataOffsetWords < 5 then
    return { view with status := .invalidTCPHeaderLength }
  let view := { view with tcpHeaderLength := dataOffsetWords.toNat * 4 }
  if transportLength < view.tcpHeaderLength then
    return { view with status := .truncatedTCPHeader }
  let srcPort ← readBe16 data view.l4Offset
  let dstPort ← readBe16 data (view.l4Offset + 2)
  return { view with
    srcPort, dstPort
    payloadOffset := view.l4Offset + view.tcpHeaderLength
    payloadLength := transportLength - view.tcpHeaderLength
    status := .ok }

/-- The UDP branch of `parse_packet`. -/
def parseUdp (data : ℕ) (view : PacketView) (transportLength : ℕ) : UmemProg PacketView := do
  if transportLength < kUDPHeaderBytes then
    return { view with status := .tooShortForUDP }
  let udpLength := (← readBe16 data (view.l4Offset + 4)).toNat
  if udpLength < kUDPHeaderBytes then
    return { view with status := .invalidUDPLength }
  if udpLength > transportLength then
    return { view with status := .truncatedUDPPayload }
  let srcPort ← readBe16 data view.l4Offset
  let dstPort ← readBe16 data (view.l4Offset + 2)
  return { view with
    srcPort, dstPort
    payloadOffset := view.l4Offset + kUDPHeaderBytes
    payloadLength := udpLength - kUDPHeaderBytes
    status := .ok }

/-- The IPv4 part of `parse_packet`, entered once the EtherType has been checked. -/
def parseIPv4 (data length : ℕ) (view : PacketView) : UmemProg PacketView := do
  let view := { view with l3Offset := kEthernetHeaderBytes }
  if length < view.l3Offset + kIPv4BaseHeaderBytes then
    return { view with status := .tooShortForIPv4 }
  let versionIhl ← readByte data view.l3Offset
  if ipv4Version versionIhl ≠ 4 then
    return { view with status := .invalidIPv4Version }
  if ipv4IhlWords versionIhl < 5 then
    return { view with status := .invalidIPv4HeaderLength }
  let view := { view with ipv4HeaderLength := (ipv4IhlWords versionIhl).toNat * 4 }
  if length < view.l3Offset + view.ipv4HeaderLength then
    return { view with status := .truncatedIPv4Header }
  let totalLength ← readBe16 data (view.l3Offset + 2)
  let view := { view with ipv4TotalLength := totalLength.toNat }
  if view.ipv4TotalLength < view.ipv4HeaderLength then
    return { view with status := .ipv4TotalLengthTooSmall }
  if length < view.l3Offset + view.ipv4TotalLength then
    return { view with status := .ipv4TotalLengthExceedsFrame }
  let flagsFragment ← readBe16 data (view.l3Offset + 6)
  if flagsFragment &&& kIPv4FragmentOffsetMask ≠ 0 then
    return { view with status := .ipv4FragmentWithoutL4 }
  let ipv4Protocol ← readByte data (view.l3Offset + 9)
  let srcIp ← readBe32 data (view.l3Offset + 12)
  let dstIp ← readBe32 data (view.l3Offset + 16)
  let view := { view with
    ipv4Protocol, srcIp, dstIp
    l4Offset := view.l3Offset + view.ipv4HeaderLength }
  let transportLength := view.ipv4TotalLength - view.ipv4HeaderLength
  if view.ipv4Protocol = kIPv4ProtocolTCP then
    parseTcp data view transportLength
  else if view.ipv4Protocol = kIPv4ProtocolUDP then
    parseUdp data view transportLength
  else
    return { view with status := .unsupportedTransport }

/-- `parse_packet`. -/
def parsePacket (data : Option ℕ) (length : ℕ) : UmemProg PacketView :=
  let view : PacketView := { data, frameLength := length }
  match data with
  | none =>
    return { view with status := if length = 0 then .tooShortForEthernet else .nullData }
  | some data => do
    if length < kEthernetHeaderBytes then
      return { view with status := .tooShortForEthernet }
    let etherType ← readBe16 data 12
    let view := { view with etherType }
    if view.etherType ≠ kEtherTypeIPv4 then
      return { view with status := .nonIPv4 }
    parseIPv4 data length view

end ChronosX
