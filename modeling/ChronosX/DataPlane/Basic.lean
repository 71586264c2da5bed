import ChronosX.Chaos.Basic
import ChronosX.Wheel.Basic

/-!
# The data plane

`data_plane.hpp`: `process_packet_batch` parses each received frame, lets the chaos engine
decide, and sends the frame to the TX output, the timing wheel or the recycle output. The UMEM
is the memory of the programs below; the wheel, the output spans and the counters are the state
of the loop. An output span is the list of its entries, of which the first `tx_count` or
`recycle_count` have been written.
-/

namespace ChronosX

open Mem

def kDataPlaneBatchSize : ℕ := 64
def kDefaultTimingWheelTickNs : UInt64 := 1000000

structure PacketDescriptor where
  frameAddress : UInt64 := 0
  frameLength : UInt32 := 0
  options : UInt32 := 0
deriving DecidableEq, Repr

structure ProcessedFrame where
  frameAddress : UInt64 := 0
  frameLength : UInt32 := 0
  ruleId : UInt32 := 0
  action : PacketAction := .pass
deriving DecidableEq, Repr

structure DataPlaneBatchStats where
  packetsSeen : ℕ := 0
  packetsDropped : ℕ := 0
  packetsDelayed : ℕ := 0
  packetsCorrupted : ℕ := 0
  packetsMalformed : ℕ := 0
  txFrames : ℕ := 0
  recycleFrames : ℕ := 0
  scheduleFailures : ℕ := 0
  outputOverflows : ℕ := 0
  invalidDescriptors : ℕ := 0
  bytesSeen : ℕ := 0
deriving DecidableEq, Repr

structure DataPlaneBatchResult where
  stats : DataPlaneBatchStats := {}
  txCount : ℕ := 0
  recycleCount : ℕ := 0
deriving DecidableEq, Repr

/-- `delay_ns_to_ticks`, in 64-bit arithmetic. -/
def delayNsToTicks (delayNs tickNs : UInt64) : UInt64 :=
  if delayNs = 0 then 1
  else if tickNs = 0 then delayNs
  else (delayNs + tickNs - 1) / tickNs

/-! ### Writing to a frame -/

/-- The loop of `swap_ethernet_macs`, from `index` on. -/
def swapMacBytes (frame : ℕ) : (count index : ℕ) → UmemProg Unit
  | 0, _ => return ()
  | count + 1, index => do
    let temporary ← readByte frame index
    let other ← readByte frame (index + 6)
    write (frame + index) other
    write (frame + (index + 6)) temporary
    swapMacBytes frame count (index + 1)

/-- `swap_ethernet_macs` on the `size` bytes from `frame`. -/
def swapEthernetMacs (frame size : ℕ) : UmemProg Bool := do
  if size < kEthernetHeaderBytes then
    return false
  swapMacBytes frame 6 0
  return true

/-- `corrupt_packet_payload`: flip the lowest bit of one payload byte. -/
def corruptPacketPayload (frame : Option ℕ) (packet : PacketView) (selector : UInt64) :
    UmemProg Bool :=
  match frame with
  | none => return false
  | some frame => do
    if !packet.ok ∨ packet.payloadLength = 0 ∨ packet.payloadOffset ≥ packet.frameLength then
      return false
    let byteOffset := packet.payloadOffset + selector.toNat % packet.payloadLength
    if byteOffset ≥ packet.frameLength then
      return false
    let value ← readByte frame byteOffset
    write (frame + byteOffset) (value ^^^ 0x01)
    return true

/-- `decision.should_corrupt() && corrupt_packet_payload(frame, packet, decision.hash)`. -/
def applyCorruption (decision : ChaosDecision) (frame : Option ℕ) (packet : PacketView) :
    UmemProg Bool :=
  if decision.shouldCorrupt then corruptPacketPayload frame packet decision.hash else return false

/-- `descriptor_within_umem`. -/
def descriptorWithinUmem (descriptor : PacketDescriptor) (umemSizeBytes : UInt64) : Bool :=
  if descriptor.frameAddress.toNat > 2 ^ 64 - 1 then false
  else if descriptor.frameAddress > umemSizeBytes then false
  else descriptor.frameLength.toUInt64 ≤ umemSizeBytes - descriptor.frameAddress

/-! ### The state of a batch -/

/-- The variables that `process_packet_batch` updates beside the UMEM. -/
structure Batch (shape : WheelShape) where
  result : DataPlaneBatchResult := {}
  timingWheel : TimingWheel shape
  txOutput : List ProcessedFrame
  recycleOutput : List ProcessedFrame

namespace Batch

variable {shape : WheelShape} (b : Batch shape)

/-- `++packets_seen; bytes_seen += descriptor.frame_length`. -/
def see (descriptor : PacketDescriptor) : Batch shape :=
  { b with
    result.stats.packetsSeen := b.result.stats.packetsSeen + 1
    result.stats.bytesSeen := b.result.stats.bytesSeen + descriptor.frameLength.toNat }

def countMalformed : Batch shape :=
  { b with result.stats.packetsMalformed := b.result.stats.packetsMalformed + 1 }

def countInvalid : Batch shape :=
  { b with result.stats.invalidDescriptors := b.result.stats.invalidDescriptors + 1 }

def countDropped : Batch shape :=
  { b with result.stats.packetsDropped := b.result.stats.packetsDropped + 1 }

def countDelayed : Batch shape :=
  { b with result.stats.packetsDelayed := b.result.stats.packetsDelayed + 1 }

def countScheduleFailure : Batch shape :=
  { b with result.stats.scheduleFailures := b.result.stats.scheduleFailures + 1 }

def countCorrupted : Batch shape :=
  { b with result.stats.packetsCorrupted := b.result.stats.packetsCorrupted + 1 }

def countOverflow : Batch shape :=
  { b with result.stats.outputOverflows := b.result.stats.outputOverflows + 1 }

/-- `append_recycle`. -/
def appendRecycle (processed : ProcessedFrame) : Batch shape :=
  if b.result.recycleCount ≥ b.recycleOutput.length then b.countOverflow
  else
    { b with
      recycleOutput := b.recycleOutput.set b.result.recycleCount processed
      result.recycleCount := b.result.recycleCount + 1
      result.stats.recycleFrames := b.result.stats.recycleFrames + 1 }

/-- The end of the loop body: the frame goes to the TX output, or is dropped if that is full. -/
def transmit (processed : ProcessedFrame) : Batch shape :=
  if b.result.txCount < b.txOutput.length then
    { b with
      txOutput := b.txOutput.set b.result.txCount processed
      result.txCount := b.result.txCount + 1
      result.stats.txFrames := b.result.stats.txFrames + 1 }
  else
    b.countOverflow.countDropped.appendRecycle processed

/-- The frames written to the TX output. -/
def tx : List ProcessedFrame := b.txOutput.take b.result.txCount

/-- The frames written to the recycle output. -/
def recycle : List ProcessedFrame := b.recycleOutput.take b.result.recycleCount

end Batch

/-! ### The loop -/

section

variable {shape : WheelShape} (umemBase : Option ℕ) (umemSizeBytes : UInt64)
  (rules : List ChaosRule) (tickNs : UInt64)

/-- The loop body of `process_packet_batch`. -/
def processDescriptor (b : Batch shape) (descriptor : PacketDescriptor) :
    UmemProg (Batch shape) := do
  let b := b.see descriptor
  let descriptorValid := umemBase.isSome && descriptorWithinUmem descriptor umemSizeBytes
  let frame := if descriptorValid then umemBase.map (· + descriptor.frameAddress.toNat) else none
  let packet ← parsePacket frame descriptor.frameLength.toNat
  let decision := if packet.ok then decidePacketFast packet rules else passDecision
  let processed : ProcessedFrame :=
    { frameAddress := descriptor.frameAddress, frameLength := descriptor.frameLength
      ruleId := decision.ruleId, action := decision.action }
  if !descriptorValid || !packet.ok then
    let b := b.countMalformed
    let b := if !descriptorValid then b.countInvalid else b
    return b.countDropped.appendRecycle processed
  if decision.shouldDrop then
    return b.countDropped.appendRecycle processed
  if decision.shouldDelay then
    let delayed : DelayedFrame :=
      { frameAddress := descriptor.frameAddress, frameLength := descriptor.frameLength
        ruleId := decision.ruleId, releaseTick := 0 }
    let delayTicks := delayNsToTicks decision.delayNs tickNs
    let scheduled := b.timingWheel.schedule delayed delayTicks
    let b := { b with timingWheel := scheduled.2 }
    if scheduled.1 = .scheduled then
      return b.countDelayed
    return b.countScheduleFailure.countDropped.appendRecycle processed
  let corrupted ← applyCorruption decision frame packet
  let b := if corrupted then b.countCorrupted else b
  match frame with
  | none => return b.transmit processed
  | some frame =>
    let _ ← swapEthernetMacs frame descriptor.frameLength.toNat
    return b.transmit processed

/-- The loop of `process_packet_batch` from the batch state `b` on. -/
def processDescriptors (b : Batch shape) : List PacketDescriptor → UmemProg (Batch shape)
  | [] => return b
  | descriptor :: descriptors => do
    let b ← processDescriptor umemBase umemSizeBytes rules tickNs b descriptor
    processDescriptors b descriptors

/-- `process_packet_batch`, the overload that takes `umem_size_bytes`. -/
def processPacketBatch (rxDescriptors : List PacketDescriptor) (timingWheel : TimingWheel shape)
    (txOutput recycleOutput : List ProcessedFrame) : UmemProg (Batch shape) :=
  processDescriptors umemBase umemSizeBytes rules tickNs
    { timingWheel, txOutput, recycleOutput } rxDescriptors

end

end ChronosX
