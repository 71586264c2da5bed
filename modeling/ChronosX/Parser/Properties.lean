import ChronosX.Parser.Basic

/-!
# Bounds of the packet parser

Every byte the parser reads lies in the frame it was given, it writes nothing, and the
offsets of an accepted packet are nested: transport header, payload, IPv4 datagram, frame.
-/

namespace ChronosX

open Mem

/-- The address lies in the `length` bytes from `data`. -/
def InFrame (data length x : ℕ) : Prop := data ≤ x ∧ x < data + length

/-- The offsets of an accepted packet are nested inside its frame. -/
structure PacketView.Nested (view : PacketView) : Prop where
  l4Offset_le : view.l4Offset ≤ view.payloadOffset
  payload_le : view.payloadOffset + view.payloadLength ≤ 14 + view.ipv4TotalLength
  total_le : 14 + view.ipv4TotalLength ≤ view.frameLength
  header_le : 34 ≤ view.l4Offset

/-! ### Reading header fields -/

section Reading

variable {data length offset : ℕ} (m : Umem)

lemma readByte_sat (h : offset < length) :
    Sat (InFrame data length) (readByte data offset) m fun v m' => v = m (data + offset) ∧ m' = m := by
  apply Sat.read
  · exact ⟨Nat.le_add_right _ _, by omega⟩
  · exact ⟨rfl, rfl⟩

lemma readBe16_sat (h : offset + 1 < length) :
    Sat (InFrame data length) (readBe16 data offset) m fun _ m' => m' = m := by
  refine Sat.bind (readByte_sat m (by omega)) ?_
  rintro high _ ⟨-, rfl⟩
  refine Sat.bind (readByte_sat _ h) ?_
  rintro low _ ⟨-, rfl⟩
  exact Sat.pure rfl

lemma readBe32_sat (h : offset + 3 < length) :
    Sat (InFrame data length) (readBe32 data offset) m fun _ m' => m' = m := by
  refine Sat.bind (readByte_sat m (by omega)) ?_
  rintro b0 _ ⟨-, rfl⟩
  refine Sat.bind (readByte_sat _ (by omega)) ?_
  rintro b1 _ ⟨-, rfl⟩
  refine Sat.bind (readByte_sat _ (by omega)) ?_
  rintro b2 _ ⟨-, rfl⟩
  refine Sat.bind (readByte_sat _ h) ?_
  rintro b3 _ ⟨-, rfl⟩
  exact Sat.pure rfl

end Reading

/-! ### The transport headers -/

/-- What the TCP and UDP branches promise about the view they return: the earlier fields are
kept, and the payload of an accepted packet lies in the transport bytes. -/
structure Transported (view : PacketView) (transportLength : ℕ) (out : PacketView) : Prop where
  data_eq : out.data = view.data
  frameLength_eq : out.frameLength = view.frameLength
  total_eq : out.ipv4TotalLength = view.ipv4TotalLength
  l4Offset_eq : out.l4Offset = view.l4Offset
  payload : out.ok = true → view.l4Offset ≤ out.payloadOffset ∧
    out.payloadOffset + out.payloadLength ≤ view.l4Offset + transportLength

section Transport

variable {data length transportLength : ℕ} {view : PacketView} (m : Umem)

/-- A transport branch that rejects the packet promises nothing about its payload. -/
lemma rejectTransport_sat {out : PacketView}
    (hkept : out.data = view.data ∧ out.frameLength = view.frameLength ∧
      out.ipv4TotalLength = view.ipv4TotalLength ∧ out.l4Offset = view.l4Offset)
    (hrejected : out.ok = false) :
    Sat (InFrame data length) (pure out) m fun out m' =>
      m' = m ∧ Transported view transportLength out := by
  obtain ⟨hdata, hlength, htotal, hl4⟩ := hkept
  refine Sat.pure ⟨rfl, hdata, hlength, htotal, hl4, fun hok => ?_⟩
  rw [hrejected] at hok
  cases hok

lemma parseTcp_sat (hlen : view.l4Offset + transportLength ≤ length) :
    Sat (InFrame data length) (parseTcp data view transportLength) m fun out m' =>
      m' = m ∧ Transported view transportLength out := by
  unfold parseTcp
  refine Sat.ite (fun _ => ?_) (fun hbase => ?_)
  · exact rejectTransport_sat _ ⟨rfl, rfl, rfl, rfl⟩ rfl
  simp only [kTCPBaseHeaderBytes, not_lt] at hbase
  refine Sat.bind (readByte_sat m (by omega)) ?_
  rintro offsetByte _ ⟨-, rfl⟩
  refine Sat.ite (fun _ => ?_) (fun _ => ?_)
  · exact rejectTransport_sat _ ⟨rfl, rfl, rfl, rfl⟩ rfl
  refine Sat.ite (fun _ => ?_) (fun hheader => ?_)
  · exact rejectTransport_sat _ ⟨rfl, rfl, rfl, rfl⟩ rfl
  refine Sat.bind (readBe16_sat _ (by simp only; omega)) ?_
  rintro srcPort _ rfl
  refine Sat.bind (readBe16_sat _ (by simp only; omega)) ?_
  rintro dstPort _ rfl
  refine Sat.pure ⟨rfl, rfl, rfl, rfl, rfl, fun _ => ⟨Nat.le_add_right _ _, ?_⟩⟩
  simp only at hheader ⊢
  omega

lemma parseUdp_sat (hlen : view.l4Offset + transportLength ≤ length) :
    Sat (InFrame data length) (parseUdp data view transportLength) m fun out m' =>
      m' = m ∧ Transported view transportLength out := by
  unfold parseUdp
  refine Sat.ite (fun _ => ?_) (fun hbase => ?_)
  · exact rejectTransport_sat _ ⟨rfl, rfl, rfl, rfl⟩ rfl
  simp only [kUDPHeaderBytes, not_lt] at hbase
  refine Sat.bind (readBe16_sat m (by omega)) ?_
  rintro udpLength _ rfl
  refine Sat.ite (fun _ => ?_) (fun hmin => ?_)
  · exact rejectTransport_sat _ ⟨rfl, rfl, rfl, rfl⟩ rfl
  refine Sat.ite (fun _ => ?_) (fun hmax => ?_)
  · exact rejectTransport_sat _ ⟨rfl, rfl, rfl, rfl⟩ rfl
  refine Sat.bind (readBe16_sat _ (by omega)) ?_
  rintro srcPort _ rfl
  refine Sat.bind (readBe16_sat _ (by omega)) ?_
  rintro dstPort _ rfl
  refine Sat.pure ⟨rfl, rfl, rfl, rfl, rfl, fun _ => ⟨Nat.le_add_right _ _, ?_⟩⟩
  simp only [kUDPHeaderBytes] at hmin hmax ⊢
  omega

end Transport

/-! ### The whole parser -/

/-- What `parse_packet` promises on a non-null frame. -/
structure Parsed (data length : ℕ) (view : PacketView) : Prop where
  data_eq : view.data = some data
  frameLength_eq : view.frameLength = length
  nested : view.ok = true → view.Nested

section Packet

variable {data length : ℕ} (m : Umem)

/-- A rejected packet promises nothing about its offsets. -/
lemma rejectPacket_sat {view : PacketView} (hdata : view.data = some data)
    (hlength : view.frameLength = length) (hrejected : view.ok = false) :
    Sat (InFrame data length) (pure view) m fun out m' => m' = m ∧ Parsed data length out := by
  refine Sat.pure ⟨rfl, hdata, hlength, fun hok => ?_⟩
  rw [hrejected] at hok
  cases hok

lemma parseIPv4_sat {view : PacketView} (hdata : view.data = some data)
    (hlength : view.frameLength = length) :
    Sat (InFrame data length) (parseIPv4 data length view) m fun out m' =>
      m' = m ∧ Parsed data length out := by
  unfold parseIPv4
  refine Sat.ite (fun _ => ?_) (fun hbase => ?_)
  · exact rejectPacket_sat _ hdata hlength rfl
  simp only [kEthernetHeaderBytes, kIPv4BaseHeaderBytes, not_lt] at hbase ⊢
  refine Sat.bind (readByte_sat m (by omega)) ?_
  rintro versionIhl _ ⟨-, rfl⟩
  refine Sat.ite (fun _ => ?_) (fun _ => ?_)
  · exact rejectPacket_sat _ hdata hlength rfl
  refine Sat.ite (fun _ => ?_) (fun hihl => ?_)
  · exact rejectPacket_sat _ hdata hlength rfl
  refine Sat.ite (fun _ => ?_) (fun hheader => ?_)
  · exact rejectPacket_sat _ hdata hlength rfl
  refine Sat.bind (readBe16_sat _ (by omega)) ?_
  rintro totalLength _ rfl
  refine Sat.ite (fun _ => ?_) (fun hsmall => ?_)
  · exact rejectPacket_sat _ hdata hlength rfl
  refine Sat.ite (fun _ => ?_) (fun hlarge => ?_)
  · exact rejectPacket_sat _ hdata hlength rfl
  refine Sat.bind (readBe16_sat _ (by omega)) ?_
  rintro flagsFragment _ rfl
  refine Sat.ite (fun _ => ?_) (fun _ => ?_)
  · exact rejectPacket_sat _ hdata hlength rfl
  refine Sat.bind (readByte_sat _ (by omega)) ?_
  rintro ipv4Protocol _ ⟨-, rfl⟩
  refine Sat.bind (readBe32_sat _ (by omega)) ?_
  rintro srcIp _ rfl
  refine Sat.bind (readBe32_sat _ (by omega)) ?_
  rintro dstIp _ rfl
  -- `14 + header` bytes precede the transport bytes, and both add up to the total length
  have hwords : 5 ≤ (ipv4IhlWords versionIhl).toNat := by
    simpa [UInt8.lt_iff_toNat_lt] using hihl
  have hend : 14 + (ipv4IhlWords versionIhl).toNat * 4
      + (totalLength.toNat - (ipv4IhlWords versionIhl).toNat * 4) = 14 + totalLength.toNat := by
    omega
  have hpost : ∀ (p : Byte) (s d : UInt32) (out : PacketView),
      Transported { view with
        l3Offset := 14, ipv4HeaderLength := (ipv4IhlWords versionIhl).toNat * 4
        ipv4TotalLength := totalLength.toNat, ipv4Protocol := p, srcIp := s, dstIp := d
        l4Offset := 14 + (ipv4IhlWords versionIhl).toNat * 4 }
        (totalLength.toNat - (ipv4IhlWords versionIhl).toNat * 4) out → Parsed data length out := by
    intro p s d out hout
    refine ⟨hout.data_eq.trans hdata, hout.frameLength_eq.trans hlength, fun hok => ?_⟩
    obtain ⟨hl4, hpay⟩ := hout.payload hok
    have htotal := hout.total_eq
    have hl4eq := hout.l4Offset_eq
    have hframe := hout.frameLength_eq
    simp only at hl4 hpay htotal hl4eq hframe
    constructor <;> omega
  refine Sat.ite (fun _ => ?_) (fun _ => ?_)
  · refine (parseTcp_sat _ (by simp only; omega)).mono (fun _ h => h) ?_
    rintro out _ ⟨rfl, hout⟩
    exact ⟨rfl, hpost _ _ _ out hout⟩
  refine Sat.ite (fun _ => ?_) (fun _ => ?_)
  · refine (parseUdp_sat _ (by simp only; omega)).mono (fun _ h => h) ?_
    rintro out _ ⟨rfl, hout⟩
    exact ⟨rfl, hpost _ _ _ out hout⟩
  · exact rejectPacket_sat _ hdata hlength rfl

/-- `parse_packet` reads inside the frame only, writes nothing, and nests the offsets of what
it accepts. -/
lemma parsePacket_sat (data length : ℕ) (m : Umem) :
    Sat (InFrame data length) (parsePacket (some data) length) m fun view m' =>
      m' = m ∧ Parsed data length view := by
  unfold parsePacket
  refine Sat.ite (fun _ => ?_) (fun hshort => ?_)
  · exact rejectPacket_sat _ rfl rfl rfl
  simp only [kEthernetHeaderBytes, not_lt] at hshort
  refine Sat.bind (readBe16_sat m (by omega)) ?_
  rintro etherType _ rfl
  refine Sat.ite (fun _ => ?_) (fun _ => ?_)
  · exact rejectPacket_sat _ rfl rfl rfl
  · exact parseIPv4_sat _ rfl rfl

end Packet

/-- On a null frame nothing is read and the packet is rejected. -/
lemma parsePacket_none (length : ℕ) (m : Umem) :
    (run (parsePacket none length) m).2 = m ∧ accesses (parsePacket none length) m = [] ∧
      (run (parsePacket none length) m).1.ok = false := by
  refine ⟨rfl, rfl, ?_⟩
  simp only [parsePacket, run_pure, PacketView.ok]
  split <;> rfl

end ChronosX
