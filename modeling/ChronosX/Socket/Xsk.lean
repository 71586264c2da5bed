import ChronosX.Socket.Ring

/-!
# The simulated AF_XDP socket

`SimulatedXskSocket` of `socket_manager.hpp`: the fill, completion, RX and TX rings with their
user-side operations and the simulation helpers that play the kernel's part.
-/

namespace ChronosX

inductive SocketStatus where
  | ok
  | invalidConfig
  | umemAllocationFailed
  | umemCreateFailed
  | socketCreateFailed
  | bindFailed
  | notInitialized
  | alreadyInitialized
  | kickFailed
  | ringFull
  | ringEmpty
deriving DecidableEq, Repr

structure RxDescriptor where
  address : UInt64 := 0
  length : UInt32 := 0
  options : UInt32 := 0
deriving DecidableEq, Repr, Inhabited

structure TxDescriptor where
  address : UInt64 := 0
  length : UInt32 := 0
  options : UInt32 := 0
deriving DecidableEq, Repr, Inhabited

/-- The four result records of the socket have the same two fields. -/
structure RingResult where
  count : ℕ := 0
  status : SocketStatus := .ok
deriving DecidableEq, Repr

abbrev FillResult := RingResult
abbrev CompletionResult := RingResult
abbrev RxBatchResult := RingResult
abbrev TxBatchResult := RingResult

/-- The template arguments of `SimulatedXskSocket`. -/
structure SocketShape where
  fillSize : PowerOfTwo
  compSize : PowerOfTwo
  rxSize : PowerOfTwo
  txSize : PowerOfTwo

structure SimulatedXskSocket (shape : SocketShape) where
  fillRing : SimulatedRing UInt64 shape.fillSize
  completionRing : SimulatedRing UInt64 shape.compSize
  rxRing : SimulatedRing RxDescriptor shape.rxSize
  txRing : SimulatedRing TxDescriptor shape.txSize
  txKickCount : UInt64

namespace SimulatedXskSocket

variable {shape : SocketShape}

/-- A default-constructed socket. -/
def fresh : SimulatedXskSocket shape := ⟨.fresh, .fresh, .fresh, .fresh, 0⟩

variable (s : SimulatedXskSocket shape)

/-! ### The user side -/

def refill (addresses : List UInt64) : FillResult × SimulatedXskSocket shape :=
  let (count, ring) := s.fillRing.produce addresses
  (⟨count, if count = addresses.length then .ok else .ringFull⟩, { s with fillRing := ring })

/-- `drain_completions` into a span of the given size: the entries written, the result and the
socket. -/
def drainCompletions (size : ℕ) :
    List UInt64 × CompletionResult × SimulatedXskSocket shape :=
  let (output, ring) := s.completionRing.consume size
  (output, ⟨output.length, if output.length = size then .ok else .ringEmpty⟩,
    { s with completionRing := ring })

/-- `consume_rx` into a span of the given size. -/
def consumeRx (size : ℕ) : List RxDescriptor × RxBatchResult × SimulatedXskSocket shape :=
  let (output, ring) := s.rxRing.consume size
  (output, ⟨output.length, if output.length = size then .ok else .ringEmpty⟩,
    { s with rxRing := ring })

def submitTx (descriptors : List TxDescriptor) : TxBatchResult × SimulatedXskSocket shape :=
  let (count, ring) := s.txRing.produce descriptors
  (⟨count, if count = descriptors.length then .ok else .ringFull⟩, { s with txRing := ring })

def kickTx : SocketStatus × SimulatedXskSocket shape :=
  (.ok, { s with txKickCount := s.txKickCount + 1 })

/-! ### The simulation helpers -/

def injectRx (descriptors : List RxDescriptor) : ℕ × SimulatedXskSocket shape :=
  let (count, ring) := s.rxRing.produce descriptors
  (count, { s with rxRing := ring })

def completeTx (addresses : List UInt64) : ℕ × SimulatedXskSocket shape :=
  let (count, ring) := s.completionRing.produce addresses
  (count, { s with completionRing := ring })

/-- `consume_fill` into a span of the given size. -/
def consumeFill (size : ℕ) : List UInt64 × SimulatedXskSocket shape :=
  let (output, ring) := s.fillRing.consume size
  (output, { s with fillRing := ring })

/-! ### Statistics -/

def txRingPending : UInt64 := s.txRing.availableConsume

end SimulatedXskSocket

end ChronosX
