import ChronosX.Allocator.Basic
import ChronosX.Live.Libxdp
import Mathlib.Data.Finset.Option

/-!
# The socket over libxdp

`LibxdpSocket` of `libxdp_socket.hpp`, the socket of live mode. The library and the kernel are
outside the program: the rings are those of a library that is a parameter, and each call that can
fail takes its outcome as an argument, with the rings that a successful call sets up.

The area, the UMEM and the socket that are open in the process are kept beside the object, with
those of the rest of the process.
-/

namespace ChronosX

/-! ### Configuration -/

structure UmemConfig where
  frameSize : UInt64 := 4096
  frameCount : UInt64 := 4096
  fillRingSize : UInt64 := 2048
  completionRingSize : UInt64 := 2048
deriving DecidableEq, Repr

/-- `total_bytes`. -/
def UmemConfig.totalBytes (config : UmemConfig) : UInt64 := config.frameSize * config.frameCount

/-- `valid`. -/
def UmemConfig.valid (config : UmemConfig) : Bool :=
  isPowerOfTwo config.frameSize && config.frameSize.toNat ≥ kMinXdpFrameSizeBytes &&
    config.frameCount > 0 && isPowerOfTwo config.fillRingSize &&
    isPowerOfTwo config.completionRingSize

structure SocketConfig where
  queueId : UInt32 := 0
  xdpFlags : UInt32 := 0
  rxRingSize : UInt64 := 2048
  txRingSize : UInt64 := 2048
  interfaceIndex : UInt32 := 0
  bindFlags : UInt32 := 0
deriving DecidableEq, Repr

/-- `valid`. -/
def SocketConfig.valid (config : SocketConfig) : Bool :=
  isPowerOfTwo config.rxRingSize && isPowerOfTwo config.txRingSize

/-! ### The socket -/

variable {lib : Libxdp}

/-- The members of `LibxdpSocket`; a pointer that may be null is an option. -/
structure LibxdpSocket (lib : Libxdp) where
  fill : lib.fill.Ring := lib.fill.zero
  completion : lib.completion.Ring := lib.completion.zero
  rx : lib.rx.Ring := lib.rx.zero
  tx : lib.tx.Ring := lib.tx.zero
  umem : Option ℕ := none
  socket : Option ℕ := none
  umemArea : Option ℕ := none
  umemSize : UInt64 := 0
  txKickCount : UInt64 := 0
  initialized : Bool := false

/-- What `sendto` returns when it fails. -/
inductive SendError where
  | again
  | busy
  | nobufs
  | other
deriving DecidableEq, Repr

namespace LibxdpSocket

variable (s : LibxdpSocket lib)

def refill (addresses : List UInt64) : FillResult × LibxdpSocket lib :=
  let (reserved, fill) := lib.fill.produce s.fill addresses
  (⟨reserved.toNat, if reserved = UInt32.ofNat addresses.length then .ok else .ringFull⟩,
    { s with fill })

/-- `drain_completions` into a span of the given size: the entries written, the result and the
socket. -/
def drainCompletions (size : ℕ) : List UInt64 × CompletionResult × LibxdpSocket lib :=
  let (available, output, completion) := lib.completion.consume s.completion size
  (output, ⟨available.toNat, if available.toNat = size then .ok else .ringEmpty⟩,
    { s with completion })

/-- `consume_rx` into a span of the given size. -/
def consumeRx (size : ℕ) : List RxDescriptor × RxBatchResult × LibxdpSocket lib :=
  let (available, output, rx) := lib.rx.consume s.rx size
  (output, ⟨available.toNat, if available.toNat = size then .ok else .ringEmpty⟩, { s with rx })

def submitTx (descriptors : List TxDescriptor) : TxBatchResult × LibxdpSocket lib :=
  let (reserved, tx) := lib.tx.produce s.tx descriptors
  (⟨reserved.toNat, if reserved = UInt32.ofNat descriptors.length then .ok else .ringFull⟩,
    { s with tx })

/-- `kick_tx`, when `sendto` fails as given. -/
def kickTx (sendto : Option SendError) : SocketStatus × LibxdpSocket lib :=
  if s.socket = none then (.notInitialized, s)
  else if sendto = some .other then (.kickFailed, s)
  else (.ok, { s with txKickCount := s.txKickCount + 1 })

/-- `umem_size_bytes`. -/
def umemSizeBytes : UInt64 := s.umemSize

end LibxdpSocket

/-! ### Opening and closing -/

/-- What a process can have open for an AF_XDP socket. -/
inductive XskResource where
  | area (base : ℕ) (length : UInt64)
  | umem (handle : ℕ)
  | socket (handle : ℕ)
deriving DecidableEq

/-- The object, and what is open in the process. -/
structure XskProcess (lib : Libxdp) where
  xsk : LibxdpSocket lib := {}
  opened : Finset XskResource

/-- What `xsk_umem__create` returns through its arguments. -/
structure XskUmem (lib : Libxdp) where
  handle : ℕ
  fill : lib.fill.Ring
  completion : lib.completion.Ring

/-- What `xsk_socket__create` returns through its arguments. -/
structure XskSocket (lib : Libxdp) where
  handle : ℕ
  rx : lib.rx.Ring
  tx : lib.tx.Ring

/-- The outcomes of the calls `init` makes: `mmap`, `xsk_umem__create`, `xsk_socket__create`. -/
structure XskCalls (lib : Libxdp) where
  mmap : Option ℕ
  umemCreate : Option (XskUmem lib)
  socketCreate : Option (XskSocket lib)

/-- What is assumed of the rings that the library sets up: they are empty and have the sizes asked
for. -/
structure XskCalls.SetUp (calls : XskCalls lib) (umemConfig : UmemConfig)
    (socketConfig : SocketConfig) : Prop where
  fill : ∀ umem ∈ calls.umemCreate, lib.fill.entries umem.fill = [] ∧
    lib.fill.size umem.fill = umemConfig.fillRingSize.toUInt32.toNat
  completion : ∀ umem ∈ calls.umemCreate, lib.completion.entries umem.completion = [] ∧
    lib.completion.size umem.completion = umemConfig.completionRingSize.toUInt32.toNat
  rx : ∀ socket ∈ calls.socketCreate, lib.rx.entries socket.rx = [] ∧
    lib.rx.size socket.rx = socketConfig.rxRingSize.toUInt32.toNat
  tx : ∀ socket ∈ calls.socketCreate, lib.tx.entries socket.tx = [] ∧
    lib.tx.size socket.tx = socketConfig.txRingSize.toUInt32.toNat

namespace XskProcess

variable (p : XskProcess lib)

/-- `xsk_socket__delete`, if there is a socket. -/
def deleteSocket : XskProcess lib :=
  match p.xsk.socket with
  | none => p
  | some handle => { p with xsk.socket := none, opened := p.opened.erase (.socket handle) }

/-- `xsk_umem__delete`, if there is a UMEM. -/
def deleteUmem : XskProcess lib :=
  match p.xsk.umem with
  | none => p
  | some handle => { p with xsk.umem := none, opened := p.opened.erase (.umem handle) }

/-- `munmap`, if there is an area. -/
def unmapArea : XskProcess lib :=
  match p.xsk.umemArea with
  | none => p
  | some base => { p with
    xsk.umemArea := none
    xsk.umemSize := 0
    opened := p.opened.erase (.area base p.xsk.umemSize) }

/-- `shutdown`, which is also the destructor. -/
def shutdown : XskProcess lib :=
  let p := p.deleteSocket.deleteUmem.unmapArea
  { p with xsk.initialized := false }

/-- `init` from `xsk_socket__create` on. -/
def createSocket (calls : XskCalls lib) : SocketStatus × XskProcess lib :=
  match calls.socketCreate with
  | none => (.socketCreateFailed, p.shutdown)
  | some socket => (.ok, { p with
    xsk.socket := some socket.handle
    xsk.rx := socket.rx
    xsk.tx := socket.tx
    xsk.initialized := true
    opened := insert (.socket socket.handle) p.opened })

/-- `init` from `xsk_umem__create` on. -/
def createUmem (calls : XskCalls lib) : SocketStatus × XskProcess lib :=
  match calls.umemCreate with
  | none => (.umemCreateFailed, p.shutdown)
  | some umem => createSocket { p with
    xsk.umem := some umem.handle
    xsk.fill := umem.fill
    xsk.completion := umem.completion
    opened := insert (.umem umem.handle) p.opened } calls

/-- `init`. -/
def init (interfaceName : Option String) (umemConfig : UmemConfig) (socketConfig : SocketConfig)
    (calls : XskCalls lib) : SocketStatus × XskProcess lib :=
  if p.xsk.initialized then (.alreadyInitialized, p)
  else if interfaceName = none ∨ !umemConfig.valid ∨ !socketConfig.valid then (.invalidConfig, p)
  else
    -- `umem_size_` keeps its value when `mmap` fails
    let p := { p with xsk.umemSize := umemConfig.totalBytes }
    match calls.mmap with
    | none => (.umemAllocationFailed, p)
    | some base => createUmem { p with
      xsk.umemArea := some base
      opened := insert (.area base p.xsk.umemSize) p.opened } calls

/-! ### What is held -/

/-- The resources that the object holds. -/
def held : Finset XskResource :=
  (p.xsk.umemArea.toFinset.image fun base => .area base p.xsk.umemSize) ∪
    p.xsk.umem.toFinset.image .umem ∪ p.xsk.socket.toFinset.image .socket

/-- The calls a process makes on the object. -/
inductive Call (lib : Libxdp) where
  | init (interfaceName : Option String) (umemConfig : UmemConfig) (socketConfig : SocketConfig)
      (calls : XskCalls lib)
  | kickTx (sendto : Option SendError)
  | shutdown

def call : Call lib → XskProcess lib
  | .init interfaceName umemConfig socketConfig calls =>
    (p.init interfaceName umemConfig socketConfig calls).2
  | .kickTx sendto => { p with xsk := (p.xsk.kickTx sendto).2 }
  | .shutdown => p.shutdown

/-- The system returns nothing that is open already. -/
structure Legal (calls : XskCalls lib) : Prop where
  mmap : ∀ base ∈ calls.mmap, ∀ length, .area base length ∉ p.opened
  umemCreate : ∀ umem ∈ calls.umemCreate, .umem umem.handle ∉ p.opened
  socketCreate : ∀ socket ∈ calls.socketCreate, .socket socket.handle ∉ p.opened

def LegalCall : Call lib → Prop
  | .init _ _ _ calls => p.Legal calls
  | _ => True

/-- The states reached by calls on a default-constructed object, where the rest of the process has
`others` open. -/
inductive Reachable (others : Finset XskResource) : XskProcess lib → Prop
  | start : Reachable others { opened := others }
  | call {p : XskProcess lib} (call : Call lib) (hp : Reachable others p)
      (hlegal : p.LegalCall call) : Reachable others (p.call call)

variable {p} {others : Finset XskResource}

/-- What is open is the others' or held, and nothing is both. -/
structure Owns (others : Finset XskResource) (p : XskProcess lib) : Prop where
  opened_eq : p.opened = others ∪ p.held
  disjoint : Disjoint others p.held

/-- Closing one of the held resources. -/
lemma Owns.close {q : XskProcess lib} {r : XskResource} (h : Owns others p)
    (hheld : p.held = insert r q.held) (hr : r ∉ q.held) (hopened : q.opened = p.opened.erase r) :
    Owns others q := by
  have hdisjoint := h.disjoint
  rw [hheld, Finset.disjoint_insert_right] at hdisjoint
  refine ⟨?_, hdisjoint.2⟩
  rw [hopened, h.opened_eq, hheld, Finset.union_insert, Finset.erase_insert]
  rw [Finset.mem_union, not_or]
  exact ⟨hdisjoint.1, hr⟩

/-- Opening a resource that is not open yet. -/
lemma Owns.open {q : XskProcess lib} {r : XskResource} (h : Owns others p)
    (hheld : q.held = insert r p.held) (hr : r ∉ p.opened)
    (hopened : q.opened = insert r p.opened) : Owns others q := by
  rw [h.opened_eq, Finset.mem_union, not_or] at hr
  refine ⟨?_, ?_⟩
  · rw [hopened, h.opened_eq, hheld, Finset.union_insert]
  · rw [hheld, Finset.disjoint_insert_right]
    exact ⟨hr.1, h.disjoint⟩

lemma Owns.deleteSocket (h : Owns others p) : Owns others p.deleteSocket := by
  rw [XskProcess.deleteSocket]
  split
  case h_1 => exact h
  case h_2 handle hsocket =>
    refine h.close (r := .socket handle) ?_ ?_ rfl
    · simp [held, hsocket, Finset.union_comm _ {XskResource.socket handle}]
    · simp [held]

lemma Owns.deleteUmem (h : Owns others p) (hsocket : p.xsk.socket = none) :
    Owns others p.deleteUmem := by
  rw [XskProcess.deleteUmem]
  split
  case h_1 => exact h
  case h_2 handle humem =>
    refine h.close (r := .umem handle) ?_ ?_ rfl
    · simp [held, humem, hsocket, Finset.union_comm _ {XskResource.umem handle}]
    · simp [held]

lemma Owns.unmapArea (h : Owns others p) (hsocket : p.xsk.socket = none)
    (humem : p.xsk.umem = none) : Owns others p.unmapArea := by
  rw [XskProcess.unmapArea]
  split
  case h_1 => exact h
  case h_2 base harea =>
    refine h.close (r := .area base p.xsk.umemSize) ?_ ?_ rfl
    · simp [held, harea, hsocket, humem]
    · simp [held, hsocket, humem]

lemma socket_deleteSocket (p : XskProcess lib) : p.deleteSocket.xsk.socket = none := by
  rw [deleteSocket]
  split
  case h_1 hsocket => exact hsocket
  case h_2 => rfl

lemma deleteUmem_none (p : XskProcess lib) :
    p.deleteUmem.xsk.umem = none ∧ p.deleteUmem.xsk.socket = p.xsk.socket := by
  rw [deleteUmem]
  split
  case h_1 humem => exact ⟨humem, rfl⟩
  case h_2 => exact ⟨rfl, rfl⟩

lemma unmapArea_none (p : XskProcess lib) :
    p.unmapArea.xsk.umemArea = none ∧ p.unmapArea.xsk.umem = p.xsk.umem ∧
      p.unmapArea.xsk.socket = p.xsk.socket := by
  rw [unmapArea]
  split
  case h_1 harea => exact ⟨harea, rfl, rfl⟩
  case h_2 => exact ⟨rfl, rfl, rfl⟩

/-- Nothing is held. -/
structure Closed (p : XskProcess lib) : Prop where
  umemArea_eq : p.xsk.umemArea = none
  umem_eq : p.xsk.umem = none
  socket_eq : p.xsk.socket = none
  initialized_eq : p.xsk.initialized = false

lemma Closed.held_eq (h : Closed p) : p.held = ∅ := by
  simp [held, h.umemArea_eq, h.umem_eq, h.socket_eq]

lemma closed_shutdown (p : XskProcess lib) : Closed p.shutdown := by
  obtain ⟨harea, humem, hsocket⟩ := unmapArea_none p.deleteSocket.deleteUmem
  obtain ⟨humem', hsocket'⟩ := deleteUmem_none p.deleteSocket
  exact ⟨harea, humem.trans humem', hsocket.trans (hsocket'.trans (socket_deleteSocket p)), rfl⟩

/-- `shutdown` releases whatever is held, and nothing else. -/
lemma Owns.shutdown (h : Owns others p) : Owns others p.shutdown := by
  obtain ⟨humem, hsocket⟩ := deleteUmem_none p.deleteSocket
  have hall := (h.deleteSocket.deleteUmem (socket_deleteSocket p)).unmapArea
    (hsocket.trans (socket_deleteSocket p)) humem
  exact ⟨hall.opened_eq, hall.disjoint⟩

lemma Owns.opened_shutdown (h : Owns others p) : p.shutdown.opened = others := by
  rw [h.shutdown.opened_eq, (closed_shutdown p).held_eq, Finset.union_empty]

/-- All three are held. -/
structure Opened (p : XskProcess lib) : Prop where
  umemArea_isSome : p.xsk.umemArea.isSome = true
  umem_isSome : p.xsk.umem.isSome = true
  socket_isSome : p.xsk.socket.isSome = true
  initialized_eq : p.xsk.initialized = true

lemma Opened.card_held (h : Opened p) : p.held.card = 3 := by
  obtain ⟨base, harea⟩ := Option.isSome_iff_exists.mp h.umemArea_isSome
  obtain ⟨umem, humem⟩ := Option.isSome_iff_exists.mp h.umem_isSome
  obtain ⟨socket, hsocket⟩ := Option.isSome_iff_exists.mp h.socket_isSome
  simp only [held, harea, humem, hsocket, Option.toFinset_some, Finset.image_singleton]
  rfl

/-- Between calls all three are held or none is. -/
structure Sound (others : Finset XskResource) (p : XskProcess lib) : Prop where
  owns : Owns others p
  whole : Closed p ∨ Opened p

/-! ### Every call -/

/-- The result of `init` from some point on: it succeeds when the given calls do, and then all
three are held; otherwise nothing is. -/
structure Attempt (others : Finset XskResource) (succeeds : Prop)
    (r : SocketStatus × XskProcess lib) : Prop where
  ok_iff : r.1 = .ok ↔ succeeds
  owns : Owns others r.2
  opened : r.1 = .ok → Opened r.2
  closed : r.1 ≠ .ok → Closed r.2

/-- A failing call in the middle of `init` is followed by `shutdown`. -/
lemma Owns.attempt_shutdown (h : Owns others p) {status : SocketStatus} (hstatus : status ≠ .ok)
    {succeeds : Prop} (hfails : ¬ succeeds) : Attempt others succeeds (status, p.shutdown) :=
  ⟨⟨fun hok => absurd hok hstatus, fun hsucceeds => absurd hsucceeds hfails⟩, h.shutdown,
    fun hok => absurd hok hstatus, fun _ => closed_shutdown p⟩

lemma Owns.createSocket (h : Owns others p) {base umem : ℕ} (harea : p.xsk.umemArea = some base)
    (humem : p.xsk.umem = some umem) (hsocket : p.xsk.socket = none) {calls : XskCalls lib}
    (hlegal : ∀ socket ∈ calls.socketCreate, .socket socket.handle ∉ p.opened) :
    Attempt others (calls.socketCreate.isSome = true) (p.createSocket calls) := by
  cases hcreate : calls.socketCreate with
  | none =>
    rw [XskProcess.createSocket, hcreate]
    exact h.attempt_shutdown (by decide) (by simp)
  | some socket =>
    rw [XskProcess.createSocket, hcreate]
    refine ⟨by simp, ?_, fun _ => ⟨?_, ?_, rfl, rfl⟩, fun hne => absurd rfl hne⟩
    · refine h.open (r := .socket socket.handle) ?_ (hlegal socket hcreate) rfl
      simp [held, hsocket, Finset.union_comm _ {XskResource.socket socket.handle}]
    · exact Option.isSome_iff_exists.mpr ⟨base, harea⟩
    · exact Option.isSome_iff_exists.mpr ⟨umem, humem⟩

lemma Owns.createUmem (h : Owns others p) {base : ℕ} (harea : p.xsk.umemArea = some base)
    (humem : p.xsk.umem = none) (hsocket : p.xsk.socket = none) {calls : XskCalls lib}
    (hlegal : ∀ umem ∈ calls.umemCreate, .umem umem.handle ∉ p.opened)
    (hlegal' : ∀ socket ∈ calls.socketCreate, .socket socket.handle ∉ p.opened) :
    Attempt others (calls.umemCreate.isSome = true ∧ calls.socketCreate.isSome = true)
      (p.createUmem calls) := by
  cases hcreate : calls.umemCreate with
  | none =>
    rw [XskProcess.createUmem, hcreate]
    exact h.attempt_shutdown (by decide) (by simp)
  | some umem =>
    have hcreated : Owns others { p with
        xsk.umem := some umem.handle
        xsk.fill := umem.fill
        xsk.completion := umem.completion
        opened := insert (.umem umem.handle) p.opened } := by
      refine h.open (r := .umem umem.handle) ?_ (hlegal umem hcreate) rfl
      simp [held, humem, hsocket, Finset.union_comm _ {XskResource.umem umem.handle}]
    rw [XskProcess.createUmem, hcreate]
    simp only [Option.isSome_some, true_and]
    refine hcreated.createSocket harea rfl hsocket fun socket hmem => ?_
    simpa using hlegal' socket hmem

/-- The outcomes with which `init` opens the socket. -/
def Succeeds (p : XskProcess lib) (interfaceName : Option String) (umemConfig : UmemConfig)
    (socketConfig : SocketConfig) (calls : XskCalls lib) : Prop :=
  p.xsk.initialized = false ∧ interfaceName.isSome = true ∧ umemConfig.valid = true ∧
    socketConfig.valid = true ∧ calls.mmap.isSome = true ∧ calls.umemCreate.isSome = true ∧
    calls.socketCreate.isSome = true

lemma Closed.init (hclosed : Closed p) (h : Owns others p) {calls : XskCalls lib}
    (hlegal : p.Legal calls) (interfaceName : Option String) (umemConfig : UmemConfig)
    (socketConfig : SocketConfig) :
    Attempt others (p.Succeeds interfaceName umemConfig socketConfig calls)
      (p.init interfaceName umemConfig socketConfig calls) := by
  have hunchanged : ∀ q : XskProcess lib,
      q.held = p.held → q.opened = p.opened → Owns others q := by
    intro q hheld hopened
    exact ⟨by rw [hheld, hopened, h.opened_eq], by rw [hheld]; exact h.disjoint⟩
  rw [XskProcess.init, if_neg (by simp [hclosed.initialized_eq])]
  by_cases hbad : interfaceName = none ∨ !umemConfig.valid ∨ !socketConfig.valid
  · rw [if_pos hbad]
    refine ⟨⟨nofun, fun hok => ?_⟩, h, nofun, fun _ => hclosed⟩
    obtain ⟨-, hname, humem, hsocket, -⟩ := hok
    simp [humem, hsocket] at hbad
    simp [hbad] at hname
  · have hgood : interfaceName.isSome = true ∧ umemConfig.valid = true ∧
        socketConfig.valid = true := by
      simpa [Option.isSome_iff_ne_none] using hbad
    rw [if_neg hbad]
    cases hmmap : calls.mmap with
    | none =>
      refine ⟨⟨nofun, fun hok => ?_⟩, hunchanged _ ?_ rfl, nofun, fun _ => ?_⟩
      · simp [Succeeds, hmmap] at hok
      · simp [held, hclosed.umemArea_eq]
      · exact ⟨hclosed.umemArea_eq, hclosed.umem_eq, hclosed.socket_eq, hclosed.initialized_eq⟩
    | some base =>
      have hmapped : Owns others { p with
          xsk.umemSize := umemConfig.totalBytes
          xsk.umemArea := some base
          opened := insert (.area base umemConfig.totalBytes) p.opened } := by
        refine h.open (r := .area base umemConfig.totalBytes) ?_ (hlegal.mmap base hmmap _) rfl
        simp [held, hclosed.umemArea_eq, hclosed.umem_eq, hclosed.socket_eq]
      have hattempt := hmapped.createUmem rfl hclosed.umem_eq hclosed.socket_eq
        (fun umem (hmem : umem ∈ calls.umemCreate) => by simpa using hlegal.umemCreate umem hmem)
        (fun socket hmem => by simpa using hlegal.socketCreate socket hmem)
      refine ⟨hattempt.ok_iff.trans ?_, hattempt.owns, hattempt.opened, hattempt.closed⟩
      simp [Succeeds, hclosed.initialized_eq, hgood, hmmap]

lemma init_of_opened (h : Opened p) (interfaceName : Option String) (umemConfig : UmemConfig)
    (socketConfig : SocketConfig) (calls : XskCalls lib) :
    p.init interfaceName umemConfig socketConfig calls = (.alreadyInitialized, p) := by
  rw [XskProcess.init, if_pos h.initialized_eq]

lemma Sound.call (h : Sound others p) (call : Call lib) (hlegal : p.LegalCall call) :
    Sound others (p.call call) := by
  cases call with
  | init interfaceName umemConfig socketConfig calls =>
    rw [XskProcess.call]
    rcases h.whole with hclosed | hopened
    · have hattempt := hclosed.init h.owns hlegal interfaceName umemConfig socketConfig
      by_cases hok : (p.init interfaceName umemConfig socketConfig calls).1 = .ok
      · exact ⟨hattempt.owns, Or.inr (hattempt.opened hok)⟩
      · exact ⟨hattempt.owns, Or.inl (hattempt.closed hok)⟩
    · rw [init_of_opened hopened]
      exact h
  | kickTx sendto =>
    have hkick : (p.xsk.kickTx sendto).2 = { p.xsk with
        txKickCount := (p.xsk.kickTx sendto).2.txKickCount } := by
      rw [LibxdpSocket.kickTx]
      split_ifs <;> rfl
    rw [XskProcess.call, hkick]
    refine ⟨⟨h.owns.opened_eq, h.owns.disjoint⟩, h.whole.imp ?_ ?_⟩
    · exact fun hclosed => ⟨hclosed.umemArea_eq, hclosed.umem_eq, hclosed.socket_eq,
        hclosed.initialized_eq⟩
    · exact fun hopened => ⟨hopened.umemArea_isSome, hopened.umem_isSome, hopened.socket_isSome,
        hopened.initialized_eq⟩
  | shutdown => exact ⟨h.owns.shutdown, Or.inl (closed_shutdown p)⟩

lemma Reachable.sound (h : Reachable others p) : Sound others p := by
  induction h with
  | start =>
    refine ⟨⟨?_, ?_⟩, Or.inl ⟨rfl, rfl, rfl, rfl⟩⟩
    · simp [held]
    · simp [held]
  | call call _ hlegal ih => exact ih.call call hlegal

/-- The object never loses or closes what it should not, whichever of its calls fail and in
whatever order its member functions are called. What is open is the others' and what it holds; it
holds an area, a UMEM and a socket when it is initialized and nothing otherwise, so that a TX kick
reports a missing socket exactly then; `init` succeeds exactly when it is not initialized, the
configuration is valid and all three calls succeed, and otherwise leaves open what was open; and
`shutdown` leaves what the others have open. -/
theorem resources_accounted (h : Reachable others p) :
    p.opened = others ∪ p.held ∧ Disjoint others p.held ∧
    p.held.card = (if p.xsk.initialized then 3 else 0) ∧
    (∀ sendto, (p.xsk.kickTx sendto).1 = .notInitialized ↔ p.xsk.initialized = false) ∧
    (∀ interfaceName umemConfig socketConfig calls, p.Legal calls →
      let r := p.init interfaceName umemConfig socketConfig calls
      (r.1 = .ok ↔ p.Succeeds interfaceName umemConfig socketConfig calls) ∧
      (r.1 ≠ .ok → r.2.opened = p.opened)) ∧
    p.shutdown.opened = others := by
  obtain ⟨howns, hwhole⟩ := h.sound
  refine ⟨howns.opened_eq, howns.disjoint, ?_, fun sendto => ?_, ?_, howns.opened_shutdown⟩
  · rcases hwhole with hclosed | hopened
    · rw [hclosed.held_eq, hclosed.initialized_eq]
      rfl
    · rw [hopened.card_held, hopened.initialized_eq, if_pos rfl]
  · rw [LibxdpSocket.kickTx]
    rcases hwhole with hclosed | hopened
    · simp [hclosed.socket_eq, hclosed.initialized_eq]
    · have hsocket : ¬ p.xsk.socket = none := Option.isSome_iff_ne_none.mp hopened.socket_isSome
      rw [if_neg hsocket, hopened.initialized_eq]
      split_ifs <;> simp
  · intro interfaceName umemConfig socketConfig calls hlegal r
    rcases hwhole with hclosed | hopened
    · have hattempt := hclosed.init howns hlegal interfaceName umemConfig socketConfig
      refine ⟨hattempt.ok_iff, fun hfailed => ?_⟩
      rw [hattempt.owns.opened_eq, (hattempt.closed hfailed).held_eq, howns.opened_eq,
        hclosed.held_eq]
    · have hr : r = (.alreadyInitialized, p) := init_of_opened hopened _ _ _ _
      rw [hr]
      refine ⟨⟨nofun, fun hok => ?_⟩, fun _ => rfl⟩
      exact absurd hok.1 (by simp [hopened.initialized_eq])

/-- A socket whose UMEM could be made but not the socket, beside an area of the others. -/
theorem resources_accounted_refused :
    let others : Finset XskResource := {.area 7 4096}
    let umem : XskUmem listXdp := ⟨2, ({} : ListRing UInt64), ({} : ListRing UInt64)⟩
    let p := XskProcess.call { opened := others }
      (.init (some "eth0") {} {} ⟨some 1, some umem, none⟩)
    p.opened = others ∧ p.xsk.initialized = false := by
  intro others umem p
  have hreach : Reachable others p := by
    refine .call _ .start ⟨?_, ?_, nofun⟩
    · rintro base ⟨⟩ length
      simp [others]
    · rintro umem ⟨⟩
      simp [others]
  obtain ⟨hopened, -, hcard, -⟩ := resources_accounted hreach
  have hinitialized : p.xsk.initialized = false := rfl
  rw [hinitialized, if_neg Bool.false_ne_true, Finset.card_eq_zero] at hcard
  refine ⟨?_, hinitialized⟩
  rw [hopened, hcard, Finset.union_empty]

end XskProcess

end ChronosX
