import ChronosX.Chaos.Basic
import ChronosX.Library.ByteHash
import ChronosX.Library.ByteLayout

/-!
# The packet hash

Both hashes fold FNV-1a over a list of bytes and finish with `avalanche64`: the seed, the 5-tuple
and the payload length in network byte order, followed, for `stable_packet_hash`, by the payload.
Each step of FNV-1a and each stage of the finalizer is injective, so one byte that differs changes
the packet hash.
-/

namespace ChronosX

open Mem ByteLayout ByteHash

/-! ### The hashed data -/

/-- The bytes that both hashes begin with. -/
def hashedHeader (rule : ChaosRule) (packet : PacketView) : List Byte :=
  encode .big 8 rule.seed.toNat ++ (encode .big 4 packet.srcIp.toNat ++
    (encode .big 4 packet.dstIp.toNat ++ (encode .big 2 packet.srcPort.toNat ++
      (encode .big 2 packet.dstPort.toNat ++ (packet.ipv4Protocol ::
        encode .big 8 (UInt64.ofNat packet.payloadLength).toNat)))))

/-- The payload of a packet in the memory. -/
def payloadBytes (packet : PacketView) (m : Umem) : List Byte :=
  match packet.payloadData with
  | none         => []
  | some payload => slice m payload packet.payloadLength

/-- The bytes that `stable_packet_hash` hashes. -/
def hashedData (rule : ChaosRule) (packet : PacketView) (m : Umem) : List Byte :=
  hashedHeader rule packet ++ payloadBytes packet m

/-- FNV-1a over a list of bytes. -/
def fnv1a (hash : UInt64) (bytes : List Byte) : UInt64 := bytes.foldl fnv1aByte hash

/-- What `stable_packet_hash` returns. -/
def packetHash (rule : ChaosRule) (packet : PacketView) (m : Umem) : UInt64 :=
  avalanche64 (fnv1a kFnvOffsetBasis (hashedData rule packet m))

lemma fnv1a_append (hash : UInt64) (bytes bytes' : List Byte) :
    fnv1a hash (bytes ++ bytes') = fnv1a (fnv1a hash bytes) bytes' := List.foldl_append

lemma fnv1a_cons (hash : UInt64) (byte : Byte) (bytes : List Byte) :
    fnv1a hash (byte :: bytes) = fnv1a (fnv1aByte hash byte) bytes := rfl

lemma fnv1aU16_eq (hash : UInt64) (value : UInt16) :
    fnv1aU16 hash value = fnv1a hash (encode .big 2 value.toNat) := by
  rw [encode_big_u16]
  rfl

lemma fnv1aU32_eq (hash : UInt64) (value : UInt32) :
    fnv1aU32 hash value = fnv1a hash (encode .big 4 value.toNat) := by
  rw [encode_big_u32]
  rfl

lemma fnv1aU64_eq (hash : UInt64) (value : UInt64) :
    fnv1aU64 hash value = fnv1a hash (encode .big 8 value.toNat) := by
  rw [fnv1aU64, fnv1aU32_eq, fnv1aU32_eq, ← fnv1a_append, encode_big_u64]

/-- The state after the fields that both hashes begin with. -/
lemma flowHashState_eq (rule : ChaosRule) (packet : PacketView) :
    flowHashState rule packet = fnv1a kFnvOffsetBasis (hashedHeader rule packet) := by
  simp only [flowHashState, hashedHeader, fnv1a_append, fnv1a_cons, fnv1aU16_eq, fnv1aU32_eq,
    fnv1aU64_eq]

/-- The loop over the payload. -/
lemma run_hashPayload (payload count index : ℕ) (hash : UInt64) (m : Umem) :
    run (hashPayload payload count index hash) m =
      (fnv1a hash (slice m (payload + index) count), m) := by
  induction count generalizing index hash with
  | zero => rfl
  | succ count ih =>
    rw [hashPayload, run_bind]
    exact ih (index + 1) _

lemma run_stablePacketHash (rule : ChaosRule) (packet : PacketView) (m : Umem) :
    run (stablePacketHash rule packet) m = (packetHash rule packet m, m) := by
  rw [packetHash, hashedData, fnv1a_append, ← flowHashState_eq, stablePacketHash, payloadBytes]
  cases packet.payloadData with
  | none => rfl
  | some payload =>
    dsimp only
    rw [run_bind, run_hashPayload]
    rfl

/-- The two hashes agree on a packet without payload. -/
lemma packetHash_of_empty (rule : ChaosRule) {packet : PacketView} (h : packet.payloadLength = 0)
    (m : Umem) : packetHash rule packet m = stableFlowHash rule packet := by
  have hpayload : payloadBytes packet m = [] := by
    rw [payloadBytes, h]
    cases packet.payloadData <;> rfl
  rw [packetHash, hashedData, hpayload, List.append_nil, stableFlowHash, flowHashState_eq]

/-! ### Sensitivity -/

lemma mul_kFnvPrime_injective : Function.Injective (· * kFnvPrime) :=
  mul_injective (d := 0xce965057aff6957b) (by decide)

lemma mixing_fnv1aByte : Mixing fnv1aByte where
  state _ _ _ heq := (UInt64.xor_left_inj _).mp (mul_kFnvPrime_injective heq)
  byte hash _ _ heq :=
    UInt8.toUInt64_inj.mp ((UInt64.xor_right_inj hash).mp (mul_kFnvPrime_injective heq))

/-- The factors of the finalizer are odd, hence invertible, and its shifts are long. -/
lemma avalanche64_injective : Function.Injective avalanche64 := by
  have hshift : Function.Injective fun x : UInt64 => x ^^^ (x >>> 33) :=
    xorShift_injective (by decide) (by decide)
  have hfirst : Function.Injective fun x : UInt64 => x * 0xff51afd7ed558ccd :=
    mul_injective (d := 0x4f74430c22a54005) (by decide)
  have hsecond : Function.Injective fun x : UInt64 => x * 0xc4ceb9fe1a85ec53 :=
    mul_injective (d := 0x9cb4b2f8129337db) (by decide)
  exact hshift.comp (hsecond.comp (hshift.comp (hfirst.comp hshift)))

/-- Data that differ in one byte have different hashes. -/
lemma packetHash_ne {rule rule' : ChaosRule} {packet packet' : PacketView} {m m' : Umem}
    (h : OneApart (hashedData rule packet m) (hashedData rule' packet' m')) :
    packetHash rule packet m ≠ packetHash rule' packet' m' :=
  fun heq => mixing_fnv1aByte.foldl_ne h _ (avalanche64_injective heq)

end ChronosX
