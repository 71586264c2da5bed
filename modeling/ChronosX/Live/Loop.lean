import ChronosX.Live.Socket
import ChronosX.Runtime.Basic

/-!
# Live mode

`run_live` of `main.cpp`: after `init` of the socket the fill ring is filled batch by batch; then
each iteration of the loop returns the completed frames to the fill ring, takes a batch of received
frames through the data plane with no rules, returns the frames that were dropped and submits the
others for transmission. Unlike `AfXdpRuntimeAdapter` it drops the result of every refill, does not
set an owner tag back, and never advances the timing wheel.
-/

namespace ChronosX

open Mem

/-! ### The state -/

/-- The variables of `run_live`, and the bytes of the UMEM. -/
structure Live (lib : Libxdp) (shape : RuntimeShape) where
  umem : Umem
  allocator : FrameAllocator shape.umem
  socket : LibxdpSocket lib
  timingWheel : TimingWheel shape.wheel
  packetsSeen : UInt64 := 0
  packetsDropped : UInt64 := 0
  txSubmitted : UInt64 := 0
  completed : UInt64 := 0

/-- `umem_config`. -/
def liveUmemConfig (shape : RuntimeShape) : UmemConfig where
  frameSize := shape.umem.frameSize.size
  frameCount := UInt64.ofNat shape.umem.frameCount
  fillRingSize := shape.socket.fillSize.size
  completionRingSize := shape.socket.compSize.size

/-- `socket_config`, with `XDP_FLAGS_SKB_MODE` and `XDP_COPY`. -/
def liveSocketConfig (shape : RuntimeShape) (queueId : UInt32) : SocketConfig where
  queueId := queueId
  xdpFlags := 2
  rxRingSize := shape.socket.rxSize.size
  txRingSize := shape.socket.txSize.size
  interfaceIndex := 0
  bindFlags := 2

namespace Live

variable {lib : Libxdp} {shape : RuntimeShape} (l : Live lib shape)

/-! ### The initial fill -/

/-- The inner loop of the initial fill. -/
def allocateFrames (count : ℕ) (allocator : FrameAllocator shape.umem) :
    List FrameHandle × FrameAllocator shape.umem :=
  FrameAllocator.allocateEach .fillRing true count allocator

/-- The number of frames that the next batch of the initial fill asks for. -/
def request (shape : RuntimeShape) (filled : ℕ) : ℕ :=
  if shape.umem.frameCount - filled < kDataPlaneBatchSize then shape.umem.frameCount - filled
  else kDataPlaneBatchSize

/-- The loop of the initial fill. -/
def fillLoop (l : Live lib shape) (filled : ℕ) : Live lib shape :=
  if filled < shape.umem.frameCount then
    let (frames, allocator) := allocateFrames (request shape filled) l.allocator
    let (refill, socket) := l.socket.refill (frames.map (·.address))
    if refill.count = 0 then { l with allocator, socket }
    else fillLoop { l with allocator, socket } (filled + refill.count)
  else l
termination_by shape.umem.frameCount - filled

/-- The variables of `run_live` when `init` has opened the socket. `mmap` returns zeroed memory. -/
def initial (shape : RuntimeShape) (socket : LibxdpSocket lib) : Live lib shape :=
  { umem := fun _ => 0, allocator := .fresh, socket, timingWheel := .fresh }

/-- `run_live` up to its loop. -/
def start (shape : RuntimeShape) (socket : LibxdpSocket lib) : Live lib shape :=
  fillLoop (initial shape socket) 0

/-! ### The loop -/

/-- The bodies of the loops that return frames to the fill ring: `completed` is raised by `count`
for a frame that had the owner it should have. -/
def returnOne (owner : FrameOwner) (count : UInt64) (address : UInt64) : Live lib shape :=
  let frame := shape.umem.handleFromAddress address
  if !frame.ok then l
  else
    let (status, allocator) := l.allocator.transition frame.frame owner .fillRing
    if status ≠ .ok then { l with allocator }
    else
      let (_, socket) := l.socket.refill [frame.frame.address]
      { l with allocator, socket, completed := l.completed + count }

/-- The body of the loop over the completions. -/
def drainOne (address : UInt64) : Live lib shape := l.returnOne .txRing 1 address

/-- The part of an iteration that takes completions. -/
def drainCompletions : Live lib shape :=
  let (completions, _, socket) := l.socket.drainCompletions kDataPlaneBatchSize
  completions.foldl drainOne { l with socket }

/-- The body of the loop over the received descriptors: the descriptors collected so far and the
state. -/
def receiveOne (acc : List PacketDescriptor × Live lib shape) (rx : RxDescriptor) :
    List PacketDescriptor × Live lib shape :=
  let (descriptors, l) := acc
  let frame := shape.umem.handleFromAddress rx.address
  if !frame.ok then (descriptors, l)
  else
    let owner := l.allocator.ownerOf frame.frame.index
    let (status, allocator) := l.allocator.transition frame.frame owner .dataPlane
    if status ≠ .ok then (descriptors, { l with allocator })
    else (descriptors ++ [Poll.packetDescriptor rx], { l with allocator })

/-- The call of `process_packet_batch`: the frames to transmit, the frames to recycle, and the
state. -/
def process (descriptors : List PacketDescriptor) :
    List ProcessedFrame × List ProcessedFrame × Live lib shape :=
  let (batch, umem) := run (processPacketBatch (l.socket.umemArea.map fun _ => 0)
    l.socket.umemSizeBytes [] kDefaultTimingWheelTickNs descriptors l.timingWheel
    (List.replicate kDataPlaneBatchSize {}) (List.replicate kDataPlaneBatchSize {})) l.umem
  (batch.tx, batch.recycle, { l with
    umem
    timingWheel := batch.timingWheel
    packetsSeen := l.packetsSeen + UInt64.ofNat batch.result.stats.packetsSeen
    packetsDropped := l.packetsDropped + UInt64.ofNat batch.result.stats.packetsDropped })

/-- The body of the loop over the frames to recycle. -/
def recycleOne (recycle : ProcessedFrame) : Live lib shape :=
  l.returnOne .dataPlane 0 recycle.frameAddress

/-- The body of the loop over the frames to transmit. What `sendto` returns may depend on the state
of the socket. -/
def submitOne (sendto : LibxdpSocket lib → Option SendError) (tx : ProcessedFrame) :
    Live lib shape :=
  let frame := shape.umem.handleFromAddress tx.frameAddress
  if !frame.ok then l
  else
    let (status, allocator) := l.allocator.transition frame.frame .dataPlane .txRing
    if status ≠ .ok then { l with allocator }
    else
      let descriptor : TxDescriptor :=
        { address := tx.frameAddress, length := tx.frameLength, options := 0 }
      let (result, socket) := l.socket.submitTx [descriptor]
      if result.count = 1 then
        let (_, socket) := socket.kickTx (sendto socket)
        { l with allocator, socket, txSubmitted := l.txSubmitted + 1 }
      else { l with allocator, socket }

/-- The part of an iteration that handles received descriptors. -/
def forward (sendto : LibxdpSocket lib → Option SendError) (rx : List RxDescriptor) :
    Live lib shape :=
  let (descriptors, l) := rx.foldl receiveOne ([], l)
  let (tx, recycle, l) := l.process descriptors
  let l := recycle.foldl recycleOne l
  tx.foldl (fun l frame => l.submitOne sendto frame) l

/-- One iteration of the loop. -/
def iterate (sendto : LibxdpSocket lib → Option SendError) : Live lib shape :=
  let l := l.drainCompletions
  let (rx, result, socket) := l.socket.consumeRx kDataPlaneBatchSize
  let l := { l with socket }
  if result.count = 0 then l else l.forward sendto rx

end Live

end ChronosX
