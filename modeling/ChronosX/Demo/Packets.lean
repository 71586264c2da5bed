import ChronosX.Parser.Grammar

/-!
# Test packets

`build_test_packet` of `main.cpp` writes the packets that the demos give to the data plane. The
parser takes such a packet for what it was built as, as long as the IPv4 total length has not
wrapped around to less than the headers.
-/

namespace ChronosX

open Mem ByteLayout

/-- The bytes of an array, one after another. -/
def storeBytes (data : ℕ) (byte : ℕ → Byte) : ℕ → UmemProg Unit
  | 0     => return ()
  | n + 1 => do
    storeBytes data byte n
    write (data + n) (byte n)

lemma run_storeBytes (data : ℕ) (byte : ℕ → Byte) (n : ℕ) (m : Umem) :
    run (storeBytes data byte n) m =
      ((), fun x => if data ≤ x ∧ x < data + n then byte (x - data) else m x) := by
  induction n with
  | zero => exact Prod.ext rfl (funext fun x => (if_neg (by omega)).symm)
  | succ n ih =>
    refine Prod.ext rfl (funext fun x => ?_)
    simp only [storeBytes, run_bind, ih, run_write, Function.update_apply]
    by_cases hx : x = data + n
    · rw [if_pos hx, if_pos (by omega), hx, Nat.add_sub_cancel_left]
    · rw [if_neg hx]
      exact if_congr (by omega) rfl rfl

def buildTestPacket (frame : ℕ) (dstPort : UInt16) (payloadSize : ℕ) : UmemProg Unit := do
  let totalFrame := kEthernetHeaderBytes + kIPv4BaseHeaderBytes + kTCPBaseHeaderBytes + payloadSize
  storeBytes frame (fun _ => 0) totalFrame
  write (frame + 12) 0x08
  write (frame + 13) 0x00
  let ip := frame + kEthernetHeaderBytes
  write ip 0x45
  let totalLen := UInt16.ofNat (kIPv4BaseHeaderBytes + kTCPBaseHeaderBytes + payloadSize)
  write (ip + 2) (totalLen >>> 8).toUInt8
  write (ip + 3) (totalLen &&& 0xFF).toUInt8
  write (ip + 8) 64
  write (ip + 9) kIPv4ProtocolTCP
  let tcp := ip + kIPv4BaseHeaderBytes
  write tcp (UInt8.ofNat (12345 >>> 8))
  write (tcp + 1) (UInt8.ofNat (12345 &&& 0xFF))
  write (tcp + 2) (dstPort >>> 8).toUInt8
  write (tcp + 3) (dstPort &&& 0xFF).toUInt8
  write (tcp + 12) 0x50
  let payload := tcp + kTCPBaseHeaderBytes
  storeBytes payload (fun i => UInt8.ofNat (i &&& 0xFF)) payloadSize

section

variable {m : Umem} {frame : ℕ}

/-- The memory after a test packet has been built. -/
def withTestPacket (frame : ℕ) (dstPort : UInt16) (payloadSize : ℕ) (m : Umem) : Umem :=
  (run (buildTestPacket frame dstPort payloadSize) m).2

/-- The bytes that are written last, and what is below them. -/
lemma withTestPacket_apply (frame : ℕ) (dstPort : UInt16) (payloadSize : ℕ) (m : Umem) (k : ℕ) :
    withTestPacket frame dstPort payloadSize m (frame + k) =
      if 54 ≤ k ∧ k < 54 + payloadSize then UInt8.ofNat ((k - 54) &&& 0xFF)
      else if k = 46 then 0x50
      else if k = 37 then (dstPort &&& 0xFF).toUInt8
      else if k = 36 then (dstPort >>> 8).toUInt8
      else if k = 35 then 0x39
      else if k = 34 then 0x30
      else if k = 23 then 6
      else if k = 22 then 64
      else if k = 17 then (UInt16.ofNat (40 + payloadSize) &&& 0xFF).toUInt8
      else if k = 16 then (UInt16.ofNat (40 + payloadSize) >>> 8).toUInt8
      else if k = 14 then 0x45
      else if k = 13 then 0
      else if k = 12 then 8
      else if k < 54 + payloadSize then 0
      else m (frame + k) := by
  simp only [withTestPacket, buildTestPacket, run_bind, run_storeBytes, run_write,
    Function.update_apply, kEthernetHeaderBytes, kIPv4BaseHeaderBytes, kTCPBaseHeaderBytes,
    Nat.add_assoc, Nat.reduceAdd, Nat.add_left_cancel_iff, Nat.add_le_add_iff_left,
    Nat.add_lt_add_iff_left, Nat.le_add_right, true_and, Nat.add_sub_add_left]
  rfl

lemma be16At_eq {x : ℕ} {v : UInt16} (hhigh : m x = (v >>> 8).toUInt8)
    (hlow : m (x + 1) = (v &&& 0xFF).toUInt8) : be16At m x = v := by
  rw [← at_uint16, be, encode_big_u16, at_cons, at_cons, hhigh, hlow]
  refine ⟨?_, rfl, rfl⟩
  rw [u16_byte]
  rfl

lemma be32At_zero {x : ℕ} (h : ∀ i < 4, m (x + i) = 0) : be32At m x = 0 := by
  have hslice : slice m x 4 = [0, 0, 0, 0] := by
    simp only [slice, Nat.add_assoc, Nat.reduceAdd]
    rw [h 1 (by decide), h 2 (by decide), h 3 (by decide)]
    exact congrArg (· :: _) (h 0 (by decide))
  rw [be32At, hslice]
  rfl

/-- What the parser is to return for a test packet. -/
def testView (frame : ℕ) (dstPort : UInt16) (payloadSize : ℕ) : PacketView where
  data := some frame
  frameLength := 54 + payloadSize
  status := .ok
  etherType := kEtherTypeIPv4
  ipv4Protocol := kIPv4ProtocolTCP
  ipv4HeaderLength := 20
  ipv4TotalLength := (40 + payloadSize) % 2 ^ 16
  srcIp := 0
  dstIp := 0
  l3Offset := 14
  l4Offset := 34
  payloadOffset := 54
  payloadLength := (40 + payloadSize) % 2 ^ 16 - 40
  tcpHeaderLength := 20
  srcPort := 12345
  dstPort := dstPort

/-- The fields of a test packet that the parser reads. -/
lemma testPacket_fields (frame : ℕ) (dstPort : UInt16) (payloadSize : ℕ) (m : Umem) :
    let m' := withTestPacket frame dstPort payloadSize m
    be16At m' (frame + 12) = kEtherTypeIPv4 ∧ m' (frame + 14) = 0x45 ∧
    be16At m' (frame + 16) = UInt16.ofNat (40 + payloadSize) ∧ be16At m' (frame + 20) = 0 ∧
    m' (frame + 23) = kIPv4ProtocolTCP ∧ be32At m' (frame + 26) = 0 ∧
    be32At m' (frame + 30) = 0 ∧ be16At m' (frame + 34) = 12345 ∧
    be16At m' (frame + 36) = dstPort ∧ m' (frame + 46) = 0x50 := by
  intro m'
  have hbyte := withTestPacket_apply frame dstPort payloadSize m
  have hzero : ∀ k, 18 ≤ k → k < 22 ∨ 24 ≤ k ∧ k < 34 → m' (frame + k) = 0 := by
    intro k hlow hhigh
    refine (hbyte k).trans ?_
    repeat rw [if_neg (by omega)]
    rw [if_pos (by omega)]
  refine ⟨be16At_eq (hbyte 12) (hbyte 13), hbyte 14, be16At_eq (hbyte 16) (hbyte 17),
    be16At_eq (hzero 20 (by decide) (by decide)) (hzero 21 (by decide) (by decide)), hbyte 23,
    be32At_zero fun i hi => ?_, be32At_zero fun i hi => ?_, be16At_eq (hbyte 34) (hbyte 35),
    be16At_eq (hbyte 36) (hbyte 37), hbyte 46⟩
  · rw [Nat.add_assoc]
    exact hzero _ (by omega) (by omega)
  · rw [Nat.add_assoc]
    exact hzero _ (by omega) (by omega)

lemma accepts_testPacket (frame : ℕ) (dstPort : UInt16) (payloadSize : ℕ) (m : Umem)
    {out : PacketView} :
    Accepts (parsePacket (some frame) (54 + payloadSize))
        (withTestPacket frame dstPort payloadSize m) out ↔
      40 ≤ (40 + payloadSize) % 2 ^ 16 ∧ out = testView frame dstPort payloadSize := by
  obtain ⟨hether, hversion, htotal, hfragment, hprotocol, hsrcIp, hdstIp, hsrcPort, hdstPort,
    hoffset⟩ := testPacket_fields frame dstPort payloadSize m
  have hlength : (UInt16.ofNat (40 + payloadSize)).toNat = (40 + payloadSize) % 2 ^ 16 :=
    UInt16.toNat_ofNat'
  have hle := Nat.mod_le (40 + payloadSize) (2 ^ 16)
  have hwords : ipv4IhlWords 0x45 = 5 := rfl
  have hwords' : tcpDataOffsetWords 0x50 = 5 := rfl
  simp only [parsePacket_accepts_iff, parseIPv4_accepts_iff, parseTcp_accepts_iff, hether, hversion,
    htotal, hfragment, hprotocol, hsrcIp, hdstIp, hlength, hwords, UInt8.reduceToNat,
    Nat.reduceMul, Nat.reduceAdd, hsrcPort, hdstPort, hoffset, hwords']
  constructor
  · rintro ⟨-, -, -, -, -, -, hge, -, -, ⟨-, htcp, -, -, rfl⟩ | ⟨hudp, -⟩⟩
    · refine ⟨by omega, ?_⟩
      rw [testView, Nat.sub_sub]
    · exact absurd hudp (by decide)
  · rintro ⟨hge, rfl⟩
    refine ⟨by omega, not_not.mpr rfl, by omega, not_not.mpr rfl, by decide, by omega, by omega,
      by omega, not_not.mpr rfl, Or.inl ⟨trivial, by omega, by decide, by omega, ?_⟩⟩
    rw [testView, Nat.sub_sub]

/-- Nothing else is written. -/
lemma withTestPacket_outside (frame : ℕ) (dstPort : UInt16) (payloadSize : ℕ) (m : Umem) {x : ℕ}
    (hx : ¬ InFrame frame (54 + payloadSize) x) :
    withTestPacket frame dstPort payloadSize m x = m x := by
  rw [InFrame] at hx
  by_cases hle : frame ≤ x
  · obtain ⟨k, rfl⟩ := Nat.exists_eq_add_of_le hle
    rw [withTestPacket_apply]
    repeat rw [if_neg (by omega)]
  · simp only [withTestPacket, buildTestPacket, run_bind, run_storeBytes, run_write,
      Function.update_apply, kEthernetHeaderBytes, kIPv4BaseHeaderBytes, kTCPBaseHeaderBytes]
    repeat rw [if_neg (by omega)]

end

end ChronosX
