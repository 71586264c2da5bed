import ChronosX.Runtime.TurnAround
import ChronosX.DataPlane.Forwarding
import ChronosX.Library.DelayQueue

/-!
# The relay

What the runtime adapter is for, said without its rings, tags and slots. Frames go round between the
kernel and the relay. At each turn the relay gives the frames of completed transmissions back to the
kernel, sends the held packets that are due, and decides on a batch of received packets: a packet is
sent back turned around, or held for a number of turns, or its frame is given back. The queues have
no bounds, and what is held is a delay queue with a limit on the delay and on the packets that are
due at one turn.
-/

namespace ChronosX

open Mem

/-- The frames in circulation, and the memory. -/
structure Relay where
  fill : List UInt64
  rxCustody : List UInt64 := []
  rx : List RxDescriptor := []
  delayed : DelayQueue DelayedFrame := .empty
  tx : List TxDescriptor := []
  txCustody : List UInt64 := []
  completion : List UInt64 := []
  umem : Umem := fun _ => 0

namespace Relay

variable (r : Relay)

/-! ### The kernel -/

def takeFill : Relay :=
  { r with fill := r.fill.drop 1, rxCustody := r.rxCustody ++ r.fill.take 1 }

def deliver (rx : RxDescriptor) (umem : Umem) : Relay :=
  { r with rx := r.rx ++ [rx], rxCustody := r.rxCustody.erase rx.address, umem }

def takeTx : Relay :=
  { r with tx := r.tx.drop 1, txCustody := r.txCustody ++ (r.tx.take 1).map (·.address) }

def complete (address : UInt64) : Relay :=
  { r with completion := r.completion ++ [address], txCustody := r.txCustody.erase address }

/-- The steps of the kernel, with frames of `frameSize` bytes. -/
inductive KernelStep (frameSize : ℕ) : Relay → Relay → Prop where
  | takeFill (r : Relay) : KernelStep frameSize r r.takeFill
  | deliver {r : Relay} {rx : RxDescriptor} {umem : Umem} (custody : rx.address ∈ r.rxCustody)
      (length_le : rx.length.toNat ≤ frameSize)
      (others : ∀ x, ¬ InFrame rx.address.toNat frameSize x → umem x = r.umem x) :
      KernelStep frameSize r (r.deliver rx umem)
  | takeTx (r : Relay) : KernelStep frameSize r r.takeTx
  | complete {r : Relay} {address : UInt64} (custody : address ∈ r.txCustody) :
      KernelStep frameSize r (r.complete address)

/-! ### The turns -/

/-- Give a frame back to the kernel. -/
def recycle (address : UInt64) : Relay := { r with fill := r.fill ++ [address] }

/-- Send the first `length` bytes of a frame. -/
def transmit (address : UInt64) (length : UInt32) : Relay :=
  { r with tx := r.tx ++ [txDescriptor address length] }

/-- Hold a frame for a number of turns. -/
def hold (frame : DelayedFrame) (ticks : ℕ) : Relay :=
  { r with delayed := r.delayed.accept frame ticks }

/-- There is room to hold a frame for a number of turns. -/
def CanHold (shape : WheelShape) (ticks : ℕ) : Prop :=
  ticks ≤ shape.slotCount.toNat ∧
    (r.delayed.dueAt (r.delayed.now + max 1 ticks)).length < shape.maxFramesPerSlot

instance (shape : WheelShape) (ticks : ℕ) : Decidable (r.CanHold shape ticks) :=
  inferInstanceAs (Decidable (_ ∧ _))

/-- Do what has been decided about a received packet. -/
def send (shape : WheelShape) (d : PacketDescriptor) : Verdict → Relay
  | .malformed _              => r.recycle d.frameAddress
  | .drop                     => r.recycle d.frameAddress
  | .delay frame delayTicks   =>
    if r.CanHold shape delayTicks.toNat then r.hold frame delayTicks.toNat
    else r.recycle d.frameAddress
  | .transmit _               => r.transmit d.frameAddress d.frameLength

/-- What is decided about a received packet, from the bytes in its frame. -/
def verdict (rules : List ChaosRule) (d : PacketDescriptor) : Verdict :=
  verdictOf rules (packetOf 0 d r.umem) kDefaultTimingWheelTickNs d

/-- The packets that the next turn decides on. -/
def batch : List PacketDescriptor := (r.rx.take kDataPlaneBatchSize).map Poll.packetDescriptor

/-- The held frames that the next turn sends. -/
def due : List DelayedFrame := r.delayed.dueAt (r.delayed.now + 1)

/-- The first part of a turn: completed transmissions, due packets, and the batch is taken. -/
def beginTurn : Relay :=
  { r with
    fill := r.fill ++ r.completion.take kDataPlaneBatchSize
    completion := r.completion.drop kDataPlaneBatchSize
    tx := r.tx ++ r.due.map fun frame => txDescriptor frame.frameAddress frame.frameLength
    delayed := r.delayed.advance
    rx := r.rx.drop kDataPlaneBatchSize }

/-- A turn. All packets of the batch are decided on as they were received. -/
def turn (shape : WheelShape) (rules : List ChaosRule) : Relay :=
  { r.batch.foldl (fun r' d => r'.send shape d (r.verdict rules d)) r.beginTurn with
    umem := forwardAll rules r.umem r.batch r.umem }

/-- The states of the relay after it has been given the frames `posted`. -/
inductive Reachable (shape : WheelShape) (frameSize : ℕ) (posted : List UInt64) : Relay → Prop where
  | start : Reachable shape frameSize posted { fill := posted }
  | kernel {r r' : Relay} (reachable : Reachable shape frameSize posted r)
      (step : KernelStep frameSize r r') : Reachable shape frameSize posted r'
  | turn {r : Relay} (reachable : Reachable shape frameSize posted r) (rules : List ChaosRule) :
      Reachable shape frameSize posted (r.turn shape rules)

end Relay

end ChronosX
