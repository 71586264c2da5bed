import ChronosX.ControlPlane.Core
import ChronosX.ControlPlane.Connection
import Mathlib.Data.Finset.Insert
import Mathlib.Data.Finset.Erase
import Mathlib.Logic.Function.Basic

/-!
# The control server

`ControlPlaneServer` of `control_plane.hpp`, as far as its event handlers go: connections are kept
in the first slots of two arrays, and a removed connection is replaced by the last one. What the
system calls return is an argument of the handlers, and the descriptors that are open are part of
the state.
-/

namespace ChronosX

def kMaxControlConnections : ℕ := 16

instance : NeZero kMaxControlConnections := ⟨Nat.succ_ne_zero 15⟩

def kControlResponseBufferBytes : ℕ := 8192
/-- The size of `read_buf` in `handle_client`. -/
def kReadBufBytes : ℕ := 4096

/-- The bytes that one `recv` returns. -/
structure Chunk where
  bytes : List Byte
  length_pos : 0 < bytes.length
  length_le : bytes.length ≤ kReadBufBytes

/-- What `recv` returns: some bytes, nothing to read for now, the end of the stream, or another
error. -/
inductive RecvResult where
  | data (chunk : Chunk)
  | wouldBlock
  | closed
  | failed

/-! ### The messages of one connection -/

/-- What the message loop of `handle_client` leaves: the buffer of the connection and the core, the
messages given to `handle_request` and the replies given to `send_all`, in order, and whether the
connection is kept. -/
structure Served where
  buffer : ConnectionBuffer
  core : ControlPlaneCore
  messagesHandled : UInt64
  dispatched : List (List Byte)
  replies : List (List Byte)
  keep : Bool

/-- The message loop of `handle_client`; `sends n` is what the `n`-th call of `send_all` returns. -/
def serveLoop (core : ControlPlaneCore) (buffer : ConnectionBuffer) (messagesHandled : UInt64)
    (sends : ℕ → Bool) : Served :=
  if buffer.hasCompleteMessage then
    let msgLen := buffer.nextMessageLength
    if msgLen = 0 ∨ msgLen > buffer.readableBytes then
      ⟨buffer, core, messagesHandled, [], [], false⟩
    else
      let msgData := buffer.readable.take msgLen
      let (result, response, core) :=
        core.handleRequest msgData (List.replicate kControlResponseBufferBytes 0)
      let buffer := buffer.consume msgLen
      let reply := response.take result.bytesWritten
      if result.bytesWritten > 0 then
        if sends 0 then
          let served := serveLoop core buffer (messagesHandled + 1) fun n => sends (n + 1)
          { served with
            dispatched := msgData :: served.dispatched
            replies := reply :: served.replies }
        else ⟨buffer, core, messagesHandled, [msgData], [reply], false⟩
      else
        let served := serveLoop core buffer (messagesHandled + 1) sends
        { served with dispatched := msgData :: served.dispatched }
  else ⟨buffer, core, messagesHandled, [], [], true⟩
termination_by buffer.writePos
decreasing_by
  all_goals
    apply ConnectionBuffer.writePos_consume_lt
    assumption

/-- `handle_client` from the bytes of `recv` on, for the buffer of the connection. -/
def receiveChunk (core : ControlPlaneCore) (buffer : ConnectionBuffer) (messagesHandled : UInt64)
    (chunk : Chunk) (sends : ℕ → Bool) : Served :=
  let (appended, buffer) := buffer.append chunk.bytes
  if appended ≠ chunk.bytes.length ∨ buffer.overflowed then
    ⟨buffer, core, messagesHandled, [], [], false⟩
  else serveLoop core buffer messagesHandled sends

/-! ### The server -/

structure ControlPlaneServer where
  maxConnections : ℕ
  maxConnections_le : maxConnections ≤ kMaxControlConnections
  clientFds : Fin kMaxControlConnections → ℤ
  buffers : Fin kMaxControlConnections → ConnectionBuffer
  connectionCount : ℕ
  connectionCount_le : connectionCount ≤ maxConnections
  core : ControlPlaneCore
  messagesHandled : UInt64
  /-- The open descriptors of the process. -/
  openFds : Finset ℤ

namespace ControlPlaneServer

/-- The server after `init`, with the descriptors that are open then. -/
def start (maxConnections : ℕ) (h : maxConnections ≤ kMaxControlConnections)
    (core : ControlPlaneCore) (openFds : Finset ℤ) : ControlPlaneServer where
  maxConnections := maxConnections
  maxConnections_le := h
  clientFds _ := 0
  buffers _ := .empty
  connectionCount := 0
  connectionCount_le := Nat.zero_le _
  core := core
  messagesHandled := 0
  openFds := openFds

variable (s : ControlPlaneServer)

/-- The slot of an index below the number of connections. -/
def slotOf {index : ℕ} (h : index < s.connectionCount) : Fin kMaxControlConnections :=
  ⟨index, h.trans_le (s.connectionCount_le.trans s.maxConnections_le)⟩

/-- `close_fd` of the descriptor in a slot. -/
def closeFd (slot : Fin kMaxControlConnections) : ControlPlaneServer :=
  if s.clientFds slot ≥ 0 then
    { s with
      openFds := s.openFds.erase (s.clientFds slot)
      clientFds := Function.update s.clientFds slot (-1) }
  else s

/-- `remove_connection`: the last connection takes the place of the removed one. -/
def removeConnection (slot : ℕ) : ControlPlaneServer :=
  if h : slot ≥ s.connectionCount then s
  else
    let index := s.slotOf (Nat.lt_of_not_ge h)
    let last := s.slotOf (Nat.sub_lt (Nat.zero_lt_of_lt (Nat.lt_of_not_ge h)) Nat.one_pos)
    let openFds := (s.closeFd index).openFds
    let clientFds := (s.closeFd index).clientFds
    if slot < s.connectionCount - 1 then
      { s with
        openFds
        clientFds := Function.update clientFds index (clientFds last)
        buffers := Function.update s.buffers index (s.buffers last)
        connectionCount := s.connectionCount - 1
        connectionCount_le := (Nat.sub_le _ _).trans s.connectionCount_le }
    else
      { s with
        openFds
        clientFds
        connectionCount := s.connectionCount - 1
        connectionCount_le := (Nat.sub_le _ _).trans s.connectionCount_le }

/-- The loop of `find_slot` with `remaining` slots left to look at. -/
def findSlotLoop (fd : ℤ) : (remaining index : ℕ) → index + remaining ≤ s.connectionCount → ℕ
  | 0, index, _             => index
  | remaining + 1, index, h =>
    if s.clientFds (s.slotOf (by omega : index < s.connectionCount)) = fd then index
    else findSlotLoop fd remaining (index + 1) (by omega)

def findSlot (fd : ℤ) : ℕ := s.findSlotLoop fd s.connectionCount 0 (Nat.zero_add _).le

lemma findSlotLoop_le (fd : ℤ) {remaining index : ℕ} (h : index + remaining ≤ s.connectionCount) :
    s.findSlotLoop fd remaining index h ≤ index + remaining := by
  induction remaining generalizing index with
  | zero => exact Nat.le_refl _
  | succ remaining ih =>
    unfold findSlotLoop
    split_ifs
    · exact Nat.le_add_right _ _
    · exact (ih _).trans (by omega)

lemma findSlot_lt {fd : ℤ} (h : s.findSlot fd ≠ s.connectionCount) :
    s.findSlot fd < s.connectionCount := by
  refine Nat.lt_of_le_of_ne ?_ h
  exact (s.findSlotLoop_le fd _).trans (Nat.zero_add _).le

/-- `handle_accept`: `client` is what `accept4` returns, and `added` whether `add_to_epoll`
succeeds. -/
def handleAccept (client : ℤ) (added : Bool) : ControlPlaneServer :=
  if client < 0 then s
  else if h : s.connectionCount ≥ s.maxConnections then s
  else if !added then s
  else
    let slot : Fin kMaxControlConnections :=
      ⟨s.connectionCount, (Nat.lt_of_not_ge h).trans_le s.maxConnections_le⟩
    { s with
      openFds := insert client s.openFds
      clientFds := Function.update s.clientFds slot client
      buffers := Function.update s.buffers slot (s.buffers slot).reset
      connectionCount := s.connectionCount + 1
      connectionCount_le := Nat.lt_of_not_ge h }

/-- `handle_client`: the server afterwards, the messages given to `handle_request` and the replies
given to `send_all`. -/
def handleClient (fd : ℤ) (recv : RecvResult) (sends : ℕ → Bool) :
    ControlPlaneServer × List (List Byte) × List (List Byte) :=
  let slot := s.findSlot fd
  if h : slot = s.connectionCount then (s, [], [])
  else
    match recv with
    | .wouldBlock => (s, [], [])
    | .closed | .failed => (s.removeConnection slot, [], [])
    | .data chunk =>
      let index := s.slotOf (s.findSlot_lt h)
      let served := receiveChunk s.core (s.buffers index) s.messagesHandled chunk sends
      let s := { s with
        buffers := Function.update s.buffers index served.buffer
        core := served.core
        messagesHandled := served.messagesHandled }
      (if served.keep then s else s.removeConnection slot, served.dispatched, served.replies)

end ControlPlaneServer

end ChronosX
