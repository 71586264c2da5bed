import ChronosX.ControlPlane.Connections
import Mathlib.Data.Finset.Card
import Mathlib.Data.List.FinRange

/-!
# The life of the server

`init`, `run_once`, `run`, `request_shutdown` and `shutdown` of `ControlPlaneServer`, around the
event handlers. The state has the three descriptors of the server itself, the descriptors that are
registered with its epoll instance, and whether the event descriptor has been written to. What the
system calls return is an argument; a closed descriptor leaves the epoll instance. The descriptors
of the rest of the process are part of the state as well, so that a leak or a foreign close shows.
-/

namespace ChronosX

def kMaxEpollEvents : ℕ := 32

inductive ControlPlaneStatus where
  | ok
  | bindFailed
  | listenFailed
  | epollCreateFailed
  | acceptFailed
  | readFailed
  | writeFailed
  | connectionClosed
  | tooManyConnections
  | invalidMessage
  | shutdownRequested
  | eventFdFailed
  | notInitialized
  | alreadyInitialized
deriving DecidableEq, Repr

structure ControlPlaneConfig where
  port : UInt16 := 9090
  maxConnections : ℕ := kMaxControlConnections
  listenBacklog : ℤ := 8
deriving DecidableEq, Repr

def ControlPlaneConfig.valid (config : ControlPlaneConfig) : Bool :=
  0 < config.port && 0 < config.maxConnections &&
    config.maxConnections ≤ kMaxControlConnections && 0 < config.listenBacklog

lemma ControlPlaneConfig.maxConnections_le {config : ControlPlaneConfig}
    (h : config.valid = true) : config.maxConnections ≤ kMaxControlConnections := by
  simp only [valid, Bool.and_eq_true, decide_eq_true_eq] at h
  exact h.1.2

/-! ### The state -/

/-- The server and what the kernel keeps for it. -/
structure ServerProcess where
  server : ControlPlaneServer
  listenFd : ℤ
  epollFd : ℤ
  eventFd : ℤ
  initialized : Bool
  /-- The descriptors registered with the epoll instance. -/
  interest : Finset ℤ
  /-- The event descriptor has been written to. -/
  signalled : Bool
  /-- The open descriptors of the rest of the process. -/
  others : Finset ℤ
  idle : initialized = false → server.connectionCount = 0

/-- What the system calls of `init` return, in their order; for `bind` and those after it that
return no descriptor, whether they succeed. -/
structure InitCalls where
  socket : ℤ
  bind : Bool
  listen : Bool
  epollCreate : ℤ
  eventfd : ℤ
  addListen : Bool
  addEvent : Bool

/-- A descriptor that `epoll_wait` reports, and what the system calls of its handler return. -/
structure ReadyEvent where
  fd : ℤ
  client : ℤ
  added : Bool
  recv : RecvResult
  sends : ℕ → Bool

/-- What `epoll_wait` returns: descriptors, `EINTR`, or another error. -/
inductive WaitResult where
  | ready (events : List ReadyEvent)
  | interrupted
  | failed

namespace ServerProcess

/-- The server as it is constructed, in a process with these descriptors. -/
def constructed (others : Finset ℤ) : ServerProcess where
  server := .start kMaxControlConnections (Nat.le_refl _) .fresh others
  listenFd := -1
  epollFd := -1
  eventFd := -1
  initialized := false
  interest := ∅
  signalled := false
  others := others
  idle _ := rfl

variable (p : ServerProcess)

/-- A system call has opened a descriptor, unless it is negative. -/
def opened (fd : ℤ) : ServerProcess :=
  { p with server := { p.server with
      openFds := if 0 ≤ fd then insert fd p.server.openFds else p.server.openFds } }

/-- `close` of a descriptor, unless it is negative. -/
def closed (fd : ℤ) : ServerProcess :=
  { p with
    server := { p.server with
      openFds := if 0 ≤ fd then p.server.openFds.erase fd else p.server.openFds }
    interest := if 0 ≤ fd then p.interest.erase fd else p.interest }

/-- `close_fd(listen_fd_)`. -/
def closeListen : ServerProcess :=
  { p.closed p.listenFd with listenFd := if 0 ≤ p.listenFd then -1 else p.listenFd }

/-- `close_fd(epoll_fd_)`, with which the epoll instance is gone. -/
def closeEpoll : ServerProcess :=
  { p.closed p.epollFd with
    epollFd := if 0 ≤ p.epollFd then -1 else p.epollFd
    interest := ∅ }

/-- `close_fd(event_fd_)`. -/
def closeEvent : ServerProcess :=
  { p.closed p.eventFd with eventFd := if 0 ≤ p.eventFd then -1 else p.eventFd }

/-- `init` from `epoll_ctl` on. -/
def register (calls : InitCalls) : ControlPlaneStatus × ServerProcess :=
  if !calls.addListen || !calls.addEvent then
    (.epollCreateFailed, p.closeEvent.closeEpoll.closeListen)
  else
    (.ok, { p with
      interest := {p.listenFd, p.eventFd}
      initialized := true
      idle := fun h => by cases h })

/-- `init` from `eventfd` on. -/
def openEvent (calls : InitCalls) : ControlPlaneStatus × ServerProcess :=
  let p := { p.opened calls.eventfd with eventFd := calls.eventfd, signalled := false }
  if calls.eventfd < 0 then (.eventFdFailed, p.closeEpoll.closeListen)
  else p.register calls

/-- `init` from `epoll_create1` on. -/
def openEpoll (calls : InitCalls) : ControlPlaneStatus × ServerProcess :=
  let p := { p.opened calls.epollCreate with epollFd := calls.epollCreate }
  if calls.epollCreate < 0 then (.epollCreateFailed, p.closeListen)
  else p.openEvent calls

/-- `init` from `socket` on. -/
def openListen (calls : InitCalls) : ControlPlaneStatus × ServerProcess :=
  let p := { p.opened calls.socket with listenFd := calls.socket }
  if calls.socket < 0 then (.bindFailed, p)
  else if !calls.bind then (.bindFailed, p.closeListen)
  else if !calls.listen then (.listenFailed, p.closeListen)
  else p.openEpoll calls

/-- `init`. -/
def init (config : ControlPlaneConfig) (core : ControlPlaneCore) (calls : InitCalls) :
    ControlPlaneStatus × ServerProcess :=
  if h : p.initialized = true then (.alreadyInitialized, p)
  else if hvalid : config.valid = true then
    have hidle := p.idle (Bool.eq_false_of_not_eq_true h)
    openListen { p with
      server := { p.server with
        maxConnections := config.maxConnections
        maxConnections_le := config.maxConnections_le hvalid
        connectionCount_le := hidle.trans_le (Nat.zero_le _)
        core := core } } calls
  else (.invalidMessage, p)

section

variable (h : p.initialized = true)

/-- `handle_accept`, which registers the descriptor of a new connection. -/
def handleAccept (client : ℤ) (added : Bool) : ServerProcess :=
  { p with
    server := p.server.handleAccept client added
    interest :=
      if 0 ≤ client ∧ p.server.connectionCount < p.server.maxConnections ∧ added = true then
        insert client p.interest
      else p.interest
    idle := fun hidle => Bool.noConfusion (h.symm.trans hidle) }

/-- `handle_client`. -/
def handleClient (fd : ℤ) (recv : RecvResult) (sends : ℕ → Bool) : ServerProcess :=
  let server := (p.server.handleClient fd recv sends).1
  { p with
    server := server
    interest := p.interest ∩ server.openFds
    idle := fun hidle => Bool.noConfusion (h.symm.trans hidle) }

end

/-- The loop of `run_once` over the descriptors that are ready. -/
def runEvents : (p : ServerProcess) → p.initialized = true → List ReadyEvent →
    ControlPlaneStatus × ServerProcess
  | p, _, []              => (.ok, p)
  | p, h, event :: events =>
    if event.fd = p.eventFd then (.shutdownRequested, p)
    else if event.fd = p.listenFd then
      runEvents (p.handleAccept h event.client event.added) h events
    else runEvents (p.handleClient h event.fd event.recv event.sends) h events

/-- `run_once`. -/
def runOnce (wait : WaitResult) : ControlPlaneStatus × ServerProcess :=
  if h : p.initialized = true then
    match wait with
    | .interrupted  => (.ok, p)
    | .failed       => (.epollCreateFailed, p)
    | .ready events => p.runEvents h events
  else (.notInitialized, p)

/-- `request_shutdown`. -/
def requestShutdown : ServerProcess :=
  if p.eventFd ≥ 0 then { p with signalled := true } else p

/-- The slots of the connections, in order. -/
def slots : List (Fin kMaxControlConnections) :=
  (List.finRange kMaxControlConnections).take p.server.connectionCount

/-- The loop of `shutdown` over the connections. -/
def closeClients : ServerProcess :=
  let server := p.slots.foldl ControlPlaneServer.closeFd p.server
  { p with
    server := { server with connectionCount := 0, connectionCount_le := Nat.zero_le _ }
    interest := p.interest ∩ server.openFds
    idle := fun _ => rfl }

/-- `shutdown`. -/
def shutdown : ServerProcess :=
  { p.closeClients.closeEvent.closeEpoll.closeListen with
    initialized := false
    idle := fun _ => rfl }

/-! ### Calls -/

end ServerProcess

/-- A call of a member function, or the rest of the process opens or closes a descriptor. -/
inductive ProcessCall where
  | init (config : ControlPlaneConfig) (core : ControlPlaneCore) (calls : InitCalls)
  | runOnce (wait : WaitResult)
  | requestShutdown
  | shutdown
  | openOther (fd : ℤ)
  | closeOther (fd : ℤ)

namespace ServerProcess

def call (p : ServerProcess) : ProcessCall → ServerProcess
  | .init config core calls => (p.init config core calls).2
  | .runOnce wait           => (p.runOnce wait).2
  | .requestShutdown        => p.requestShutdown
  | .shutdown               => p.shutdown
  | .openOther fd           => { p.opened fd with others := insert fd p.others }
  | .closeOther fd          => { p.closed fd with others := p.others.erase fd }

/-- New descriptors are not open when the system calls of `init` return them. -/
structure LegalInit (p : ServerProcess) (calls : InitCalls) : Prop where
  socket : calls.socket ∉ p.server.openFds
  epollCreate : calls.epollCreate ∉ insert calls.socket p.server.openFds
  eventfd : calls.eventfd ∉ insert calls.epollCreate (insert calls.socket p.server.openFds)

/-- `accept4` returns no descriptor that is open, all through a batch. -/
def LegalEvents : (p : ServerProcess) → p.initialized = true → List ReadyEvent → Prop
  | _, _, []              => True
  | p, h, event :: events =>
    if event.fd = p.eventFd then True
    else if event.fd = p.listenFd then
      (0 ≤ event.client → event.client ∉ p.server.openFds) ∧
        LegalEvents (p.handleAccept h event.client event.added) h events
    else LegalEvents (p.handleClient h event.fd event.recv event.sends) h events

/-- `epoll_wait` reports registered descriptors, each once, and the event descriptor only after it
was written to; if there is room for all of them it leaves out none that is ready. -/
structure LegalWait (p : ServerProcess) (events : List ReadyEvent) : Prop where
  nodup : (events.map ReadyEvent.fd).Nodup
  registered : ∀ event ∈ events, event.fd ∈ p.interest
  signalled : p.eventFd ∈ events.map ReadyEvent.fd → p.signalled = true
  reported : p.signalled = true → p.interest.card ≤ kMaxEpollEvents →
    p.eventFd ∈ events.map ReadyEvent.fd
  calls : ∀ h, p.LegalEvents h events

def Legal (p : ServerProcess) : ProcessCall → Prop
  | .init _ _ calls          => p.LegalInit calls
  | .runOnce (.ready events) => p.initialized = true → p.LegalWait events
  | .openOther fd            => 0 ≤ fd ∧ fd ∉ p.server.openFds
  | .closeOther fd           => 0 ≤ fd ∧ fd ∈ p.others
  | _                        => True

inductive Reachable : ServerProcess → Prop
  | constructed (others : Finset ℤ) : Reachable (constructed others)
  | call {p : ServerProcess} (c : ProcessCall) (hp : Reachable p) (hlegal : p.Legal c) :
      Reachable (p.call c)

end ServerProcess

/-! ### The loop of `run` -/

/-- An iteration of `run`, with the value of `running` and the result of `epoll_wait`, or
`request_shutdown` from another thread. -/
inductive LoopStep where
  | iterate (running : Bool) (wait : WaitResult)
  | request

namespace ServerProcess

/-- `run`: whether it has returned, and the server. -/
def run : ServerProcess → List LoopStep → Bool × ServerProcess
  | p, []                             => (false, p)
  | p, .request :: steps              => run p.requestShutdown steps
  | p, .iterate running wait :: steps =>
    if running then
      let (status, p) := p.runOnce wait
      if status = .shutdownRequested then (true, p) else run p steps
    else (true, p)

def LegalSteps : ServerProcess → List LoopStep → Prop
  | _, []                       => True
  | p, .request :: steps        => LegalSteps p.requestShutdown steps
  | p, .iterate _ wait :: steps =>
    p.Legal (.runOnce wait) ∧ LegalSteps (p.runOnce wait).2 steps

end ServerProcess

end ChronosX
