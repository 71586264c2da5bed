import ChronosX.Types
import ChronosX.Library.ByteLayout

/-!
# The control client

`chronos_client.py`. Python's integers are natural numbers here: a negative argument is refused
by `struct.pack` as one that is too large. A function that can raise returns an `Option`, with
`none` for the exception. The server's side of the connection is the stream of bytes it sends, up
to where it closes.
-/

namespace ChronosX.Client

open ByteLayout

def protocolMagic : ℕ := 0x4358
def protocolVersion : ℕ := 1
def headerSize : ℕ := 24

def opPing : ℕ := 0x01
def opGetStats : ℕ := 0x10
def opStatsResponse : ℕ := 0x11
def opAddRule : ℕ := 0x20
def opListRules : ℕ := 0x23
def opRulesResponse : ℕ := 0x24
def opError : ℕ := 0xFF

/-- `CHAOS_RULE_FORMAT`, which is ">QQIIIHHHBBBxxx". -/
def chaosRuleFormat : List Item :=
  [.field 8, .field 8, .field 4, .field 4, .field 4, .field 2, .field 2, .field 2, .field 1,
    .field 1, .field 1, .pad, .pad, .pad]

def chaosRuleSize : ℕ := size chaosRuleFormat

def statUpdateSize : ℕ := 48

/-- The keys of `ACTION_MAP`, which are the choices of `--action`. -/
inductive Action where
  | pass
  | drop
  | delay
  | corrupt
deriving DecidableEq, Repr

def actionMap : Action → ℕ
  | .pass    => 0
  | .drop    => 1
  | .delay   => 2
  | .corrupt => 3

/-- `ACTION_NAMES.get(action)`. -/
def actionNames : ℕ → Option Action
  | 0 => some .pass
  | 1 => some .drop
  | 2 => some .delay
  | 3 => some .corrupt
  | _ => none

/-! ### The `struct` module, for formats with ">" -/

/-- `struct.pack`. -/
def pack (format : List Item) (values : List ℕ) : Option (List Byte) :=
  if fits format values then some (write .big format values) else none

/-- `struct.unpack_from`. -/
def unpackFrom (format : List Item) (data : List Byte) (offset : ℕ) : Option (List ℕ) :=
  if data.length < offset + size format then none
  else some (read .big format (data.drop offset))

/-- `struct.pack_into` with one field. -/
def packInto (width : ℕ) (buf : List Byte) (offset value : ℕ) : Option (List Byte) :=
  if value < 256 ^ width ∧ offset + width ≤ buf.length then
    some (overwrite buf offset (encode .big width value))
  else none

/-- `struct.unpack_from(..)[0]` with one field. -/
def unpackOne (width : ℕ) (data : List Byte) (offset : ℕ) : Option ℕ :=
  if data.length < offset + width then none
  else some (decode .big ((data.drop offset).take width))

/-- `buf[index] = value` for a `bytearray`. -/
def setItem (buf : List Byte) (index value : ℕ) : Option (List Byte) :=
  if value < 256 ∧ index < buf.length then some (buf.set index (UInt8.ofNat value)) else none

/-! ### CRC-32 -/

/-- The inner loop of `crc32_table`. -/
def crc32TableLoop : (count : ℕ) → ℕ → ℕ
  | 0, crc         => crc
  | count + 1, crc =>
    crc32TableLoop count (if crc &&& 1 ≠ 0 then (crc >>> 1) ^^^ 0xEDB88320 else crc >>> 1)

/-- `CRC_TABLE[i]`. -/
def crcTable (i : ℕ) : ℕ := crc32TableLoop 8 i &&& 0xFFFFFFFF

/-- `compute_crc32`. -/
def computeCrc32 (data : List Byte) : ℕ :=
  data.foldl (fun crc byte => crcTable ((crc ^^^ byte.toNat) &&& 0xFF) ^^^ (crc >>> 8))
    0xFFFFFFFF ^^^ 0xFFFFFFFF

/-! ### Messages -/

/-- What `decode_header` returns. -/
structure Header where
  magic : ℕ
  version : ℕ
  opcode : ℕ
  sequence : ℕ
  payloadLength : ℕ
  crc : ℕ
deriving DecidableEq, Repr

def decodeHeader (data : List Byte) : Option Header :=
  if data.length < headerSize then none
  else do
    let magic ← unpackOne 2 data 0
    let version ← data[2]?
    let opcode ← data[3]?
    let sequence ← unpackOne 4 data 4
    let payloadLength ← unpackOne 4 data 8
    let crc ← unpackOne 4 data 12
    return ⟨magic, version.toNat, opcode.toNat, sequence, payloadLength, crc⟩

def encodeMessage (opcode sequence : ℕ) (payload : List Byte) : Option (List Byte) := do
  let buf := List.replicate headerSize 0
  let buf ← packInto 2 buf 0 protocolMagic
  let buf ← setItem buf 2 protocolVersion
  let buf ← setItem buf 3 opcode
  let buf ← packInto 4 buf 4 sequence
  let buf ← packInto 4 buf 8 payload.length
  let buf ← packInto 4 buf 12 0
  let crc := computeCrc32 (buf ++ payload)
  let buf ← packInto 4 buf 12 crc
  return buf ++ payload

def verifyMessageCrc (header payload : List Byte) : Option Bool :=
  if header.length ≠ headerSize then some false
  else do
    let expected ← unpackOne 4 header 12
    let normalized ← packInto 4 header 12 0
    return computeCrc32 (normalized ++ payload) == expected

/-- `recv_exact`: the bytes received, and the rest of the stream. -/
def recvExact (stream : List Byte) (nbytes : ℕ) : Option (List Byte × List Byte) :=
  if stream.length < nbytes then none else some (stream.take nbytes, stream.drop nbytes)

/-- The opcode, the sequence number and the payload of a response. -/
structure Reply where
  opcode : ℕ
  sequence : ℕ
  payload : List Byte
deriving DecidableEq, Repr

/-- `send_message` from where it reads the response. -/
def receiveReply (stream : List Byte) : Option Reply := do
  let (respHeader, stream) ← recvExact stream headerSize
  let header ← decodeHeader respHeader
  let (respPayload, _) ← if header.payloadLength > 0 then recvExact stream header.payloadLength
    else some ([], stream)
  let verified ← verifyMessageCrc respHeader respPayload
  if verified then some ⟨header.opcode, header.sequence, respPayload⟩ else none

/-- `send_message` to a server that answers a request with the stream `answer` gives. -/
def sendMessage (opcode sequence : ℕ) (payload : List Byte) (answer : List Byte → List Byte) :
    Option Reply := do
  let request ← encodeMessage opcode sequence payload
  receiveReply (answer request)

/-! ### Commands -/

/-- What a command prints: the values it shows, that the server reported an error, or that the
response has an unexpected opcode. -/
inductive Report (α : Type) where
  | shown (value : α)
  | error
  | unexpected (opcode : ℕ)
deriving DecidableEq, Repr

/-- The values `cmd_stats` prints. -/
structure Stats where
  timestampCycles : ℕ
  packetsSeen : ℕ
  packetsDropped : ℕ
  bytesSeen : ℕ
  averageLatencyNs : ℕ
  lastAction : Option Action
deriving DecidableEq, Repr

/-- `cmd_stats` from where it has the response. -/
def showStats (reply : Reply) : Option (Report Stats) :=
  if reply.opcode = opStatsResponse ∧ reply.payload.length ≥ statUpdateSize then do
    let ts ← unpackOne 8 reply.payload 0
    let seen ← unpackOne 8 reply.payload 8
    let dropped ← unpackOne 8 reply.payload 16
    let bytesSeen ← unpackOne 8 reply.payload 24
    let avgLat ← unpackOne 8 reply.payload 32
    let action ← reply.payload[40]?
    return .shown ⟨ts, seen, dropped, bytesSeen, avgLat, actionNames action.toNat⟩
  else if reply.opcode = opError then some .error
  else some (.unexpected reply.opcode)

def cmdStats (seq : ℕ) (answer : List Byte → List Byte) : Option (Report Stats) := do
  showStats (← sendMessage opGetStats seq [] answer)

/-- The arguments of `add-rule`, with their defaults. -/
structure AddRuleArgs where
  ruleId : ℕ := 1
  port : ℕ := 8080
  action : Action := .drop
  prob : ℕ := 10000
  seed : ℕ := 0xBEEF
  delay : ℕ := 0
deriving DecidableEq, Repr

/-- The payload of `cmd_add_rule`. -/
def addRulePayload (args : AddRuleArgs) : Option (List Byte) :=
  pack chaosRuleFormat
    [args.seed, args.delay, args.ruleId, 0, 0, 0, args.port, args.prob, 6, actionMap args.action, 1]

/-- The loop of `cmd_list_rules` from rule `i` on: the fields it unpacks of each rule. -/
def unpackRules (payload : List Byte) : (count i : ℕ) → Option (List (List ℕ))
  | 0, _         => some []
  | count + 1, i => do
    let fields ← unpackFrom chaosRuleFormat payload (i * chaosRuleSize)
    let rest ← unpackRules payload count (i + 1)
    return fields :: rest

/-- `cmd_list_rules` from where it has the response. -/
def showRules (reply : Reply) : Option (Report (List (List ℕ))) :=
  if reply.opcode = opRulesResponse then do
    let count := reply.payload.length / chaosRuleSize
    let rules ← unpackRules reply.payload count 0
    return .shown rules
  else if reply.opcode = opError then some .error
  else some (.unexpected reply.opcode)

end ChronosX.Client
