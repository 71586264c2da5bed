import ChronosX.Chaos.Hash
import ChronosX.DataPlane.SameFate

/-!
# Corruption changes the hash

`corrupt_packet_payload` flips a bit of one payload byte. The frame still holds the same packet, so
the data that `stable_packet_hash` hashes differ in that byte alone, and the hashes differ.
-/

namespace ChronosX

open Mem ByteLayout ByteHash

/-- A flipped bit changes one byte of the range it lies in. -/
lemma oneApart_slice_flipBit {x y width : ℕ} (h : InFrame y width x) (m : Umem) :
    OneApart (slice m y width) (slice (flipBit x m) y width) := by
  obtain ⟨i, rfl⟩ := Nat.exists_eq_add_of_le h.1
  obtain ⟨rest, rfl⟩ := Nat.exists_eq_add_of_lt (Nat.lt_of_add_lt_add_left h.2)
  have hsplit : ∀ m : Umem, slice m y (i + rest + 1) =
      slice m y i ++ m (y + i) :: slice m (y + i + 1) rest := by
    intro m
    rw [Nat.add_assoc, slice_add, slice]
  have hfront : slice (flipBit (y + i) m) y i = slice m y i := by
    apply slice_congr
    intro j hj
    exact flipBit_of_ne (by omega)
  have hback : slice (flipBit (y + i) m) (y + i + 1) rest = slice m (y + i + 1) rest := by
    apply slice_congr
    intro j _
    exact flipBit_of_ne (by omega)
  refine ⟨slice m y i, m (y + i), m (y + i) ^^^ 0x01, slice m (y + i + 1) rest,
    (xor_one_ne _).symm, hsplit m, ?_⟩
  rw [hsplit, hfront, hback, flipBit_self]

section

variable {frame length : ℕ} {packet : PacketView} {m : Umem} {x : ℕ}

/-- The payload of an accepted packet is where the view says. -/
lemma payloadBytes_eq (hpacket : Parsed frame length packet) (hok : packet.ok = true) (m : Umem) :
    payloadBytes packet m = slice m (frame + packet.payloadOffset) packet.payloadLength := by
  have hnested := hpacket.nested hok
  have hle : packet.payloadOffset ≤ packet.frameLength :=
    (Nat.le_add_right _ _).trans (hnested.payload_le.trans hnested.total_le)
  have hdata : packet.payloadData = some (frame + packet.payloadOffset) := by
    rw [PacketView.payloadData, if_pos ⟨hok, hle⟩, hpacket.data_eq]
    rfl
  rw [payloadBytes, hdata]

/-- A bit flipped in the payload leaves the headers as they are. -/
lemma sameHeaders_flipBit (hx : InPayload frame packet x) (m : Umem) :
    SameHeaders frame packet.payloadOffset m (flipBit x m) := by
  intro i _ hlt
  have hge := hx.1
  exact flipBit_of_ne (by omega)

lemma oneApart_hashedData (rule : ChaosRule) (hpacket : Parsed frame length packet)
    (hok : packet.ok = true) (hx : InPayload frame packet x) (m : Umem) :
    OneApart (hashedData rule packet m) (hashedData rule packet (flipBit x m)) := by
  apply OneApart.append_left
  rw [payloadBytes_eq hpacket hok, payloadBytes_eq hpacket hok]
  exact oneApart_slice_flipBit hx m

end

/-- Two pairs of a rule and a packet whose hashed data differ in exactly one byte have different
packet hashes; in particular, when `corrupt_packet_payload` has altered the packet in a frame, the
packet that the frame holds afterwards has another hash under the same rule. -/
theorem stablePacketHash_ne :
    (∀ (rule rule' : ChaosRule) (packet packet' : PacketView) (m m' : Umem),
      OneApart (hashedData rule packet m) (hashedData rule' packet' m') →
        (run (stablePacketHash rule packet) m).1 ≠ (run (stablePacketHash rule' packet') m').1) ∧
    ∀ (rule : ChaosRule) (frame length : ℕ) (m : Umem) (selector : UInt64),
      let packet := (run (parsePacket (some frame) length) m).1
      let (corrupted, m') := run (corruptPacketPayload (some frame) packet selector) m
      let packet' := (run (parsePacket (some frame) length) m').1
      corrupted = true →
        (run (stablePacketHash rule packet) m).1 ≠ (run (stablePacketHash rule packet') m').1 := by
  constructor
  · intro rule rule' packet packet' m m' hone
    rw [run_stablePacketHash, run_stablePacketHash]
    exact packetHash_ne hone
  · intro rule frame length m selector packet
    dsimp only
    intro hcorrupted
    have hpacket : Parsed frame length packet := (parsePacket_sat frame length m).post.2
    have hok : packet.ok = true := by
      by_contra hrejected
      rw [corruptPacketPayload, if_pos (Or.inl (by simp [hrejected]))] at hcorrupted
      cases hcorrupted
    rcases (corruptPacketPayload_sat m selector hpacket hok).post with ⟨hfalse, -⟩ | ⟨-, x, hx, heq⟩
    · rw [hfalse] at hcorrupted
      cases hcorrupted
    · rw [heq, (parsePacket_congr ⟨rfl, hok⟩ (sameHeaders_flipBit hx m)).1, run_stablePacketHash,
        run_stablePacketHash]
      exact packetHash_ne (oneApart_hashedData rule hpacket hok hx m)

/-- Two seeds that differ in their last byte, and a datagram whose one payload byte is corrupted. -/
theorem stablePacketHash_ne_udpFrame :
    (run (stablePacketHash { seed := 0xBEEF } {}) (udpFrame 0)).1 ≠
        (run (stablePacketHash { seed := 0xBEEE } {}) (udpFrame 0)).1 ∧
    (run (corruptPacketPayload (some 0) (run (parsePacket (some 0) 43) (udpFrame 1)).1 7)
      (udpFrame 1)).1 = true ∧
    (run (stablePacketHash {} (run (parsePacket (some 0) 43) (udpFrame 1)).1) (udpFrame 1)).1 ≠
      (run (stablePacketHash {} (run (parsePacket (some 0) 43) (flipBit 42 (udpFrame 1))).1)
        (flipBit 42 (udpFrame 1))).1 := by
  have hcorrupted : (run (corruptPacketPayload (some 0)
      (run (parsePacket (some 0) 43) (udpFrame 1)).1 7) (udpFrame 1)).1 = true := by
    decide +kernel
  refine ⟨?_, hcorrupted, ?_⟩
  · apply stablePacketHash_ne.1
    exact ⟨[0, 0, 0, 0, 0, 0, 0xBE], 0xEF, 0xEE, List.replicate 21 0, by decide, rfl, rfl⟩
  · exact stablePacketHash_ne.2 {} 0 43 (udpFrame 1) 7 hcorrupted

end ChronosX
