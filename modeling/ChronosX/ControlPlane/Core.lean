import ChronosX.Protocol.Control

/-!
# The control plane core

`ControlPlaneCore` of `control_plane.hpp`: the control core, and the snapshot of its rules that the
data plane loads. A snapshot is immutable, so it is the list of its rules.
-/

namespace ChronosX

structure ControlPlaneCore where
  control : ControlCore kDefaultMaxRules
  ruleSnapshot : List ChaosRule

namespace ControlPlaneCore

/-- The core as it is constructed. -/
def fresh : ControlPlaneCore := ⟨.fresh, []⟩

/-- The opcode of a request, read without decoding it. -/
def peekRequestOpcode (request : List Byte) : Opcode :=
  if request.length < 4 then .ping else ⟨request.getD 3 0⟩

def isRuleMutatingRequest (opcode : Opcode) : Bool :=
  opcode = .addRule || opcode = .removeRule || opcode = .clearRules

/-- The condition under which `handle_request` publishes. -/
def publishes (request : List Byte) (result : ControlResponse) : Bool :=
  result.status = .ok && isRuleMutatingRequest (peekRequestOpcode request)

variable (c : ControlPlaneCore)

def rules : List ChaosRule := c.control.rules

def ruleCount : ℕ := c.control.ruleCount

def currentRules : List ChaosRule := c.ruleSnapshot

def publishRules : ControlPlaneCore := { c with ruleSnapshot := c.control.rules }

def publishStats (update : StatUpdate) : ControlPlaneCore :=
  { c with control := c.control.publishStats update }

/-- `handle_request`: the response, the response span, and the core afterwards. -/
def handleRequest (request response : List Byte) : ControlResponse × List Byte × ControlPlaneCore :=
  let handled := c.control.handle request response
  let c := { c with control := handled.core }
  (handled.result, handled.response,
    if publishes request handled.result then c.publishRules else c)

/-- The status that `handle_request` returns. -/
def requestStatus (request response : List Byte) : ProtocolStatus :=
  (c.handleRequest request response).1.status

/-- The core after `handle_request`. -/
def afterRequest (request response : List Byte) : ControlPlaneCore :=
  (c.handleRequest request response).2.2

/-- A request and the buffer for its response. -/
structure Exchange where
  request : List Byte
  response : List Byte

/-- The core after a sequence of requests. -/
def handleRequests (exchanges : List Exchange) : ControlPlaneCore :=
  exchanges.foldl (fun c exchange => c.afterRequest exchange.request exchange.response) c

end ControlPlaneCore

end ChronosX
