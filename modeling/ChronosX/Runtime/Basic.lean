import ChronosX.Allocator.Basic
import ChronosX.DataPlane.Basic
import ChronosX.Socket.Xsk

/-!
# The runtime adapter

`af_xdp_runtime.hpp`: the adapter owns the UMEM, the frame allocator, the socket and the timing
wheel. `init` posts frames to the fill ring; each `poll_once` refills completed frames, submits
the delayed frames that are due, and takes a batch of received frames through the data plane.

A poll is run on a `Poll`: the adapter, the statistics it returns and a log of what happened to
single frames. The log is there for the statements about polls; nothing reads it.
-/

namespace ChronosX

open Mem

inductive RuntimeStatus where
  | ok
  | alreadyInitialized
  | notInitialized
  | frameAllocationFailed
  | invalidFrame
  | invalidOwner
  | ringFull
deriving DecidableEq, Repr

structure RuntimePollStats where
  rxFrames : ℕ := 0
  txSubmitted : ℕ := 0
  txCompleted : ℕ := 0
  fillRefilled : ℕ := 0
  fillFailures : ℕ := 0
  ownerFailures : ℕ := 0
  dataPlane : DataPlaneBatchStats := {}
deriving DecidableEq, Repr

/-- The template arguments of `AfXdpRuntimeAdapter`. -/
structure RuntimeShape where
  umem : UmemShape
  socket : SocketShape
  wheel : WheelShape

structure AfXdpRuntimeAdapter (shape : RuntimeShape) where
  umem : Umem
  allocator : FrameAllocator shape.umem
  socket : SimulatedXskSocket shape.socket
  timingWheel : TimingWheel shape.wheel
  initialized : Bool

namespace AfXdpRuntimeAdapter

variable {shape : RuntimeShape}

/-- A default-constructed adapter. -/
def fresh : AfXdpRuntimeAdapter shape := ⟨fun _ => 0, .fresh, .fresh, .fresh, false⟩

/-- The loop of `init` with `count` frames left to post. -/
def postFrames (a : AfXdpRuntimeAdapter shape) :
    (count : ℕ) → RuntimeStatus × AfXdpRuntimeAdapter shape
  | 0 => (.ok, { a with initialized := true })
  | count + 1 =>
    let (allocation, allocator) := a.allocator.allocate .fillRing
    let a := { a with allocator }
    if !allocation.ok then (.frameAllocationFailed, a)
    else
      let (fill, socket) := a.socket.refill [allocation.frame.address]
      let a := { a with socket }
      if fill.count ≠ 1 then
        let (_, allocator) := a.allocator.transition allocation.frame .fillRing .free
        (.ringFull, { a with allocator })
      else a.postFrames count

/-- `init`. -/
def init (a : AfXdpRuntimeAdapter shape) (initialFillFrames : ℕ) :
    RuntimeStatus × AfXdpRuntimeAdapter shape :=
  if a.initialized then (.alreadyInitialized, a)
  else
    let fillTarget :=
      if initialFillFrames < shape.umem.frameCount then initialFillFrames
      else shape.umem.frameCount
    a.postFrames fillTarget

end AfXdpRuntimeAdapter

/-- What a poll does to single frames. -/
inductive PollEvent where
  | handed (descriptor : PacketDescriptor) (owner : FrameOwner)
  | rejected (descriptor : RxDescriptor)
  | submitted (descriptor : TxDescriptor) (umem : Umem)
  | refused (address : UInt64)

/-- A poll in progress. -/
structure Poll (shape : RuntimeShape) where
  adapter : AfXdpRuntimeAdapter shape
  stats : RuntimePollStats := {}
  log : List PollEvent := []

namespace Poll

variable {shape : RuntimeShape} (p : Poll shape)

def countOwnerFailure : Poll shape :=
  { p with stats.ownerFailures := p.stats.ownerFailures + 1 }

/-- The outcome of a push that found the ring full: `++fill_failures` and the owner tag is set
back. -/
def refuse (frame : FrameHandle) (pushedOwner previousOwner : FrameOwner) : Poll shape :=
  { p with
    stats.fillFailures := p.stats.fillFailures + 1
    adapter.allocator := (p.adapter.allocator.transition frame pushedOwner previousOwner).2
    log := p.log ++ [.refused frame.address] }

/-- `refill_one`. -/
def refillOne (frame : FrameHandle) (expectedOwner : FrameOwner) : Poll shape :=
  let (status, allocator) := p.adapter.allocator.transition frame expectedOwner .fillRing
  let p := { p with adapter.allocator := allocator }
  if status ≠ .ok then p.countOwnerFailure
  else
    let (fill, socket) := p.adapter.socket.refill [frame.address]
    let p := { p with adapter.socket := socket }
    if fill.count = 1 then { p with stats.fillRefilled := p.stats.fillRefilled + 1 }
    else p.refuse frame .fillRing expectedOwner

/-- The loop body of `submit_tx`. -/
def submitOne (frame : ProcessedFrame) : Poll shape :=
  let handle := shape.umem.handleFromAddress frame.frameAddress
  if !handle.ok then p.countOwnerFailure
  else
    let owner := p.adapter.allocator.ownerOf handle.frame.index
    let (status, allocator) := p.adapter.allocator.transition handle.frame owner .txRing
    let p := { p with adapter.allocator := allocator }
    if status ≠ .ok then p.countOwnerFailure
    else
      let tx : TxDescriptor :=
        { address := frame.frameAddress, length := frame.frameLength, options := 0 }
      let (result, socket) := p.adapter.socket.submitTx [tx]
      let p := { p with adapter.socket := socket }
      if result.count = 1 then
        let (_, socket) := p.adapter.socket.kickTx
        { p with
          stats.txSubmitted := p.stats.txSubmitted + 1
          adapter.socket := socket
          log := p.log ++ [.submitted tx p.adapter.umem] }
      else p.refuse handle.frame .txRing owner

/-- `submit_tx`. -/
def submitTx (frames : List ProcessedFrame) : Poll shape := frames.foldl submitOne p

/-- The loop body of `drain_completions`. -/
def drainOne (address : UInt64) : Poll shape :=
  let frame := shape.umem.handleFromAddress address
  if !frame.ok then p.countOwnerFailure else p.refillOne frame.frame .txRing

/-- `drain_completions`. -/
def drainCompletions : Poll shape :=
  let (completed, result, socket) := p.adapter.socket.drainCompletions kDataPlaneBatchSize
  let p := { p with
    adapter.socket := socket
    stats.txCompleted := p.stats.txCompleted + result.count }
  completed.foldl drainOne p

/-- The frame a delayed frame is submitted as. -/
def expiredFrame (frame : DelayedFrame) : ProcessedFrame :=
  { frameAddress := frame.frameAddress, frameLength := frame.frameLength
    ruleId := frame.ruleId, action := .delay }

/-- `release_delayed`. -/
def releaseDelayed : Poll shape :=
  let (expired, timingWheel) := p.adapter.timingWheel.tick
  let p := { p with adapter.timingWheel := timingWheel }
  expired.foldl (fun p frame => p.submitTx [expiredFrame frame]) p

/-- The loop of `refill_recycled`. -/
def recycleOne (frame : ProcessedFrame) : Poll shape :=
  let handle := shape.umem.handleFromAddress frame.frameAddress
  if !handle.ok then p.countOwnerFailure else p.refillOne handle.frame .dataPlane

/-- `refill_recycled`. -/
def refillRecycled (frames : List ProcessedFrame) : Poll shape := frames.foldl recycleOne p

/-- The descriptor handed to the data plane for a received frame. -/
def packetDescriptor (rx : RxDescriptor) : PacketDescriptor :=
  { frameAddress := rx.address, frameLength := rx.length, options := rx.options }

/-- The loop body of `poll_once` over the received descriptors: the descriptors collected so far
and the poll. -/
def receiveOne (acc : List PacketDescriptor × Poll shape) (rx : RxDescriptor) :
    List PacketDescriptor × Poll shape :=
  let (descriptors, p) := acc
  let frame := shape.umem.handleFromAddress rx.address
  if !frame.ok then (descriptors, { p.countOwnerFailure with log := p.log ++ [.rejected rx] })
  else
    let owner := p.adapter.allocator.ownerOf frame.frame.index
    let (status, allocator) := p.adapter.allocator.transition frame.frame owner .dataPlane
    let p := { p with adapter.allocator := allocator }
    if status ≠ .ok then
      (descriptors, { p.countOwnerFailure with log := p.log ++ [.rejected rx] })
    else
      (descriptors ++ [packetDescriptor rx],
        { p with log := p.log ++ [.handed (packetDescriptor rx) owner] })

/-- The part of `poll_once` that takes descriptors from the RX ring. -/
def receive : List PacketDescriptor × Poll shape :=
  let (rx, result, socket) := p.adapter.socket.consumeRx kDataPlaneBatchSize
  let p := { p with adapter.socket := socket, stats.rxFrames := result.count }
  rx.foldl receiveOne ([], p)

/-- The part of `poll_once` that runs the data plane: the frames to transmit, the frames to
recycle, and the poll. -/
def process (rules : List ChaosRule) (descriptors : List PacketDescriptor) :
    List ProcessedFrame × List ProcessedFrame × Poll shape :=
  let (batch, umem) := run (processPacketBatch (some 0) shape.umem.umemSizeBytes rules
    kDefaultTimingWheelTickNs descriptors p.adapter.timingWheel
    (List.replicate kDataPlaneBatchSize {}) (List.replicate kDataPlaneBatchSize {})) p.adapter.umem
  (batch.tx, batch.recycle, { p with
    adapter.umem := umem
    adapter.timingWheel := batch.timingWheel
    stats.dataPlane := batch.result.stats })

end Poll

namespace AfXdpRuntimeAdapter

variable {shape : RuntimeShape}

/-- `poll_once`: the status returned, and the poll with its statistics. -/
def pollOnce (a : AfXdpRuntimeAdapter shape) (rules : List ChaosRule) :
    RuntimeStatus × Poll shape :=
  let p : Poll shape := { adapter := a }
  if !a.initialized then (.notInitialized, p)
  else
    let p := p.drainCompletions
    let p := p.releaseDelayed
    let received := p.receive
    let processed := received.2.process rules received.1
    let p := processed.2.2.submitTx processed.1
    let p := p.refillRecycled processed.2.1
    (.ok, p)

end AfXdpRuntimeAdapter

end ChronosX
