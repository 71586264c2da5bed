import ChronosX.Parser.Properties
import ChronosX.Library.ByteLayout

/-!
# The grammar of the packet parser

The frames that `parse_packet` accepts, as structured values with their serialisation: an
Ethernet header with the IPv4 EtherType, an IPv4 header with options, a TCP segment or a UDP
datagram, and padding. The parser accepts the bytes of such a frame and returns its fields, and
whatever it accepts is the serialisation of such a frame.
-/

namespace ChronosX

open Mem ByteLayout

/-! ### Structured frames -/

/-- The fields of an IPv4 header that neither the frame's sizes nor its transport determine. -/
structure IPv4Header where
  ihl : ℕ
  dscpEcn : Byte
  identification : UInt16
  flags : Fin 8
  ttl : Byte
  headerChecksum : UInt16
  srcAddr : UInt32
  dstAddr : UInt32
  options : List Byte
  ihl_ge : 5 ≤ ihl
  ihl_le : ihl ≤ 15
  options_length : 20 + options.length = ihl * 4

structure TCPHeader where
  srcPort : UInt16
  dstPort : UInt16
  seqNum : UInt32
  ackNum : UInt32
  dataOffset : ℕ
  reserved : Fin 16
  flags : Byte
  windowSize : UInt16
  checksum : UInt16
  urgentPointer : UInt16
  options : List Byte
  dataOffset_ge : 5 ≤ dataOffset
  dataOffset_le : dataOffset ≤ 15
  options_length : 20 + options.length = dataOffset * 4

structure UDPHeader where
  srcPort : UInt16
  dstPort : UInt16
  length : UInt16
  checksum : UInt16

/-- What follows the IPv4 header. The bytes after a UDP header may be more than its length field
says. -/
inductive Transport where
  | tcp (header : TCPHeader) (payload : List Byte)
  | udp (header : UDPHeader) (body : List Byte) (length_ge : 8 ≤ header.length.toNat)
      (length_le : header.length.toNat ≤ 8 + body.length)

abbrev MacAddress := { bytes : List Byte // bytes.length = 6 }

/-- An unsigned integer in network byte order. -/
def be (width n : ℕ) : List Byte := encode .big width n

@[simp] lemma length_be (width n : ℕ) : (be width n).length = width := length_encode _ _ _

/-- The header's bytes; the fragment offset below the three flags is zero. -/
def IPv4Header.bytes (header : IPv4Header) (totalLength : ℕ) (protocol : UInt8) : List Byte :=
  UInt8.ofNat (4 * 16 + header.ihl) :: header.dscpEcn :: (be 2 totalLength ++
    (be 2 header.identification.toNat ++ (be 2 (header.flags * 2 ^ 13) ++
      (header.ttl :: protocol :: (be 2 header.headerChecksum.toNat ++
        (be 4 header.srcAddr.toNat ++ (be 4 header.dstAddr.toNat ++ header.options)))))))

def TCPHeader.bytes (header : TCPHeader) : List Byte :=
  be 2 header.srcPort.toNat ++ (be 2 header.dstPort.toNat ++ (be 4 header.seqNum.toNat ++
    (be 4 header.ackNum.toNat ++
      (UInt8.ofNat (header.dataOffset * 16 + header.reserved) :: header.flags ::
        (be 2 header.windowSize.toNat ++ (be 2 header.checksum.toNat ++
          (be 2 header.urgentPointer.toNat ++ header.options)))))))

def UDPHeader.bytes (header : UDPHeader) : List Byte :=
  be 2 header.srcPort.toNat ++ (be 2 header.dstPort.toNat ++ (be 2 header.length.toNat ++
    be 2 header.checksum.toNat))

namespace Transport

def protocol : Transport → UInt8
  | tcp _ _     => 6
  | udp _ _ _ _ => 17

def bytes : Transport → List Byte
  | tcp header payload  => header.bytes ++ payload
  | udp header body _ _ => header.bytes ++ body

def srcPort : Transport → UInt16
  | tcp header _     => header.srcPort
  | udp header _ _ _ => header.srcPort

def dstPort : Transport → UInt16
  | tcp header _     => header.dstPort
  | udp header _ _ _ => header.dstPort

/-- The length of the TCP header; UDP has none. -/
def tcpHeaderLength : Transport → ℕ
  | tcp header _ => header.dataOffset * 4
  | udp _ _ _ _  => 0

def headerLength : Transport → ℕ
  | tcp header _ => header.dataOffset * 4
  | udp _ _ _ _  => 8

/-- The bytes that belong to the TCP segment or the UDP datagram. -/
def payload : Transport → List Byte
  | tcp _ payload       => payload
  | udp header body _ _ => body.take (header.length.toNat - 8)

end Transport

/-- A frame of the grammar. -/
structure IPv4Frame where
  dstMac : MacAddress
  srcMac : MacAddress
  header : IPv4Header
  transport : Transport
  padding : List Byte
  total_lt : header.ihl * 4 + transport.bytes.length < 2 ^ 16

namespace IPv4Frame

variable (f : IPv4Frame)

/-- The length of the IPv4 datagram. -/
def totalLength : ℕ := f.header.ihl * 4 + f.transport.bytes.length

/-- The serialisation of a frame. -/
def bytes : List Byte :=
  f.dstMac ++ (f.srcMac ++ (be 2 0x0800 ++
    (f.header.bytes f.totalLength f.transport.protocol ++ (f.transport.bytes ++ f.padding))))

/-- What the parser is to return for the frame at the address `data`. -/
def view (data : ℕ) : PacketView where
  data := some data
  frameLength := f.bytes.length
  status := .ok
  etherType := 0x0800
  ipv4Protocol := f.transport.protocol
  ipv4HeaderLength := f.header.ihl * 4
  ipv4TotalLength := f.totalLength
  srcIp := f.header.srcAddr
  dstIp := f.header.dstAddr
  l3Offset := 14
  l4Offset := 14 + f.header.ihl * 4
  payloadOffset := 14 + f.header.ihl * 4 + f.transport.headerLength
  payloadLength := f.transport.payload.length
  tcpHeaderLength := f.transport.tcpHeaderLength
  srcPort := f.transport.srcPort
  dstPort := f.transport.dstPort

end IPv4Frame

/-! ### Acceptance -/

section Acceptance

variable {m : Umem} {data : ℕ} {out : PacketView}

/-- The program returns the view, and the view is of an accepted packet. -/
def Accepts (p : UmemProg PacketView) (m : Umem) (out : PacketView) : Prop :=
  (run p m).1 = out ∧ out.ok = true

/-- A check passes, or the packet is rejected. -/
lemma accepts_check {c : Prop} [Decidable c] {rejected : PacketView} {p : UmemProg PacketView}
    (hrejected : rejected.ok = false) :
    Accepts (if c then pure rejected else p) m out ↔ ¬ c ∧ Accepts p m out := by
  by_cases hc : c
  · rw [if_pos hc]
    refine iff_of_false ?_ fun h => h.1 hc
    rintro ⟨rfl, hok⟩
    rw [run_pure, hrejected] at hok
    cases hok
  · rw [if_neg hc]
    exact (and_iff_right hc).symm

/-- A program that leaves the memory alone hands its result on. -/
lemma accepts_bind {α : Type} {q : UmemProg α} {a : α} (hq : run q m = (a, m))
    {f : α → UmemProg PacketView} : Accepts (q >>= f) m out ↔ Accepts (f a) m out := by
  rw [Accepts, run_bind, hq, Accepts]

lemma accepts_pure {view : PacketView} (hok : view.ok = true) :
    Accepts (pure view) m out ↔ out = view := by
  constructor
  · rintro ⟨rfl, -⟩
    rfl
  · rintro rfl
    exact ⟨rfl, hok⟩

/-- The transport decides which program goes on. -/
lemma accepts_protocol {protocol : UInt8} {rejected : PacketView} {p q : UmemProg PacketView}
    (hrejected : rejected.ok = false) :
    Accepts (if protocol = kIPv4ProtocolTCP then p else if protocol = kIPv4ProtocolUDP then q
      else pure rejected) m out ↔
      protocol = kIPv4ProtocolTCP ∧ Accepts p m out ∨
        protocol = kIPv4ProtocolUDP ∧ Accepts q m out := by
  by_cases htcp : protocol = kIPv4ProtocolTCP
  · have hudp : ¬ protocol = kIPv4ProtocolUDP := by
      rw [htcp]
      decide
    rw [if_pos htcp, or_iff_left fun h => hudp h.1, and_iff_right htcp]
  · rw [if_neg htcp, or_iff_right fun h => htcp h.1]
    by_cases hudp : protocol = kIPv4ProtocolUDP
    · rw [if_pos hudp, and_iff_right hudp]
    · rw [if_neg hudp]
      refine iff_of_false ?_ fun h => hudp h.1
      rintro ⟨rfl, hok⟩
      rw [run_pure, hrejected] at hok
      cases hok

/-- The 16-bit integer in network byte order at an address. -/
def be16At (m : Umem) (x : ℕ) : UInt16 := UInt16.ofNat (decode .big (slice m x 2))

/-- The 32-bit integer in network byte order at an address. -/
def be32At (m : Umem) (x : ℕ) : UInt32 := UInt32.ofNat (decode .big (slice m x 4))

lemma toNat_be16At (m : Umem) (x : ℕ) : (be16At m x).toNat = decode .big (slice m x 2) := by
  have hlt := decode_lt .big (slice m x 2)
  rw [length_slice] at hlt
  rw [be16At, UInt16.toNat_ofNat']
  exact Nat.mod_eq_of_lt hlt

lemma toNat_be32At (m : Umem) (x : ℕ) : (be32At m x).toNat = decode .big (slice m x 4) := by
  have hlt := decode_lt .big (slice m x 4)
  rw [length_slice] at hlt
  rw [be32At, UInt32.toNat_ofNat']
  exact Nat.mod_eq_of_lt hlt

lemma run_readByte (data offset : ℕ) (m : Umem) :
    run (readByte data offset) m = (m (data + offset), m) := rfl

lemma run_readBe16 (data offset : ℕ) (m : Umem) :
    run (readBe16 data offset) m = (be16At m (data + offset), m) := by
  simp only [readBe16, run_bind, run_readByte, run_pure]
  congr 1
  apply UInt16.toNat_inj.mp
  rw [toNat_two_bytes, toNat_be16At]
  rfl

lemma run_readBe32 (data offset : ℕ) (m : Umem) :
    run (readBe32 data offset) m = (be32At m (data + offset), m) := by
  simp only [readBe32, run_bind, run_readByte, run_pure]
  congr 1
  apply UInt32.toNat_inj.mp
  rw [toNat_four_bytes, toNat_be32At]
  rfl

lemma parseTcp_accepts_iff {view : PacketView} {transportLength : ℕ} :
    Accepts (parseTcp data view transportLength) m out ↔
      let words := tcpDataOffsetWords (m (data + (view.l4Offset + 12)))
      ¬ transportLength < 20 ∧ ¬ words < 5 ∧ ¬ transportLength < words.toNat * 4 ∧
      out = { view with
        tcpHeaderLength := words.toNat * 4
        srcPort := be16At m (data + view.l4Offset)
        dstPort := be16At m (data + (view.l4Offset + 2))
        payloadOffset := view.l4Offset + words.toNat * 4
        payloadLength := transportLength - words.toNat * 4
        status := .ok } := by
  rw [parseTcp, accepts_check (by rfl), accepts_bind (run_readByte _ _ _), accepts_check (by rfl),
    accepts_check (by rfl), accepts_bind (run_readBe16 _ _ _), accepts_bind (run_readBe16 _ _ _),
    accepts_pure (by rfl)]

lemma parseUdp_accepts_iff {view : PacketView} {transportLength : ℕ} :
    Accepts (parseUdp data view transportLength) m out ↔
      let length := (be16At m (data + (view.l4Offset + 4))).toNat
      ¬ transportLength < 8 ∧ ¬ length < 8 ∧ ¬ length > transportLength ∧
      out = { view with
        srcPort := be16At m (data + view.l4Offset)
        dstPort := be16At m (data + (view.l4Offset + 2))
        payloadOffset := view.l4Offset + 8
        payloadLength := length - 8
        status := .ok } := by
  rw [parseUdp, accepts_check (by rfl), accepts_bind (run_readBe16 _ _ _), accepts_check (by rfl),
    accepts_check (by rfl), accepts_bind (run_readBe16 _ _ _), accepts_bind (run_readBe16 _ _ _),
    accepts_pure (by rfl)]

/-- What the IPv4 part accepts: the header, and either transport. -/
lemma parseIPv4_accepts_iff {view : PacketView} {length : ℕ} :
    Accepts (parseIPv4 data length view) m out ↔
      let words := ipv4IhlWords (m (data + 14))
      let total := (be16At m (data + 16)).toNat
      let protocol := m (data + 23)
      let view := { view with
        l3Offset := 14
        ipv4HeaderLength := words.toNat * 4
        ipv4TotalLength := total
        ipv4Protocol := protocol
        srcIp := be32At m (data + 26)
        dstIp := be32At m (data + 30)
        l4Offset := 14 + words.toNat * 4 }
      ¬ length < 34 ∧ ¬ ipv4Version (m (data + 14)) ≠ 4 ∧ ¬ words < 5 ∧
      ¬ length < 14 + words.toNat * 4 ∧ ¬ total < words.toNat * 4 ∧ ¬ length < 14 + total ∧
      ¬ be16At m (data + 20) &&& kIPv4FragmentOffsetMask ≠ 0 ∧
      (protocol = kIPv4ProtocolTCP ∧ Accepts (parseTcp data view (total - words.toNat * 4)) m out ∨
        protocol = kIPv4ProtocolUDP ∧
          Accepts (parseUdp data view (total - words.toNat * 4)) m out) := by
  rw [parseIPv4, accepts_check (by rfl), accepts_bind (run_readByte _ _ _), accepts_check (by rfl),
    accepts_check (by rfl), accepts_check (by rfl), accepts_bind (run_readBe16 _ _ _),
    accepts_check (by rfl), accepts_check (by rfl), accepts_bind (run_readBe16 _ _ _),
    accepts_check (by rfl), accepts_bind (run_readByte _ _ _), accepts_bind (run_readBe32 _ _ _),
    accepts_bind (run_readBe32 _ _ _), accepts_protocol (by rfl)]
  exact Iff.rfl

/-- What `parse_packet` accepts. -/
lemma parsePacket_accepts_iff {length : ℕ} :
    Accepts (parsePacket (some data) length) m out ↔
      ¬ length < 14 ∧ ¬ be16At m (data + 12) ≠ kEtherTypeIPv4 ∧
      Accepts (parseIPv4 data length
        { data := some data, frameLength := length, etherType := be16At m (data + 12) }) m out := by
  rw [parsePacket, accepts_check (by rfl), accepts_bind (run_readBe16 _ _ _),
    accepts_check (by rfl)]

end Acceptance

/-! ### Fields in the memory -/

section Fields

variable {m : Umem} {x : ℕ}

lemma at_be16 {n : ℕ} (hn : n < 2 ^ 16) : At m x (be 2 n) ↔ (be16At m x).toNat = n := by
  rw [be, at_encode hn, toNat_be16At]

lemma at_uint16 {v : UInt16} : At m x (be 2 v.toNat) ↔ be16At m x = v := by
  rw [at_be16 v.toNat_lt]
  exact UInt16.toNat_inj

lemma at_uint32 {v : UInt32} : At m x (be 4 v.toNat) ↔ be32At m x = v := by
  rw [be, at_encode (toNat_lt_four v), ← toNat_be32At]
  exact UInt32.toNat_inj

lemma toNat_shiftRight_four (b : Byte) : (b >>> 4).toNat = b.toNat / 16 := by
  rw [UInt8.toNat_shiftRight]
  exact Nat.shiftRight_eq_div_pow _ 4

lemma toNat_ipv4IhlWords (b : Byte) : (ipv4IhlWords b).toNat = b.toNat % 16 := by
  rw [ipv4IhlWords, UInt8.toNat_and]
  exact Nat.and_two_pow_sub_one_eq_mod _ 4

/-- A byte with two given halves. -/
lemma eq_ofNat_halves_iff {b : Byte} {high low : ℕ} (hhigh : high < 16) (hlow : low < 16) :
    b = UInt8.ofNat (high * 16 + low) ↔ b.toNat / 16 = high ∧ b.toNat % 16 = low := by
  have hmod : (high * 16 + low) % 2 ^ 8 = high * 16 + low := Nat.mod_eq_of_lt (by omega)
  rw [← UInt8.toNat_inj, UInt8.toNat_ofNat', hmod]
  omega

/-- The fragment offset is zero exactly when nothing but the three flags is set. -/
lemma fragment_eq_zero_iff {v : UInt16} :
    v &&& kIPv4FragmentOffsetMask = 0 ↔ ∃ flags : Fin 8, v.toNat = flags * 2 ^ 13 := by
  have hmask : (v &&& kIPv4FragmentOffsetMask).toNat = v.toNat % 2 ^ 13 := by
    rw [UInt16.toNat_and]
    exact Nat.and_two_pow_sub_one_eq_mod _ 13
  have hlt := v.toNat_lt
  rw [← UInt16.toNat_inj, hmask]
  constructor
  · intro hzero
    refine ⟨⟨v.toNat / 2 ^ 13, by omega⟩, ?_⟩
    exact (Nat.div_mul_cancel (Nat.dvd_of_mod_eq_zero hzero)).symm
  · rintro ⟨flags, hflags⟩
    rw [hflags]
    exact Nat.mul_mod_left _ _

lemma IPv4Header.at_bytes_iff {header : IPv4Header} {total : ℕ} (htotal : total < 2 ^ 16)
    {protocol : UInt8} :
    At m x (header.bytes total protocol) ↔
      (ipv4Version (m x) = 4 ∧ (ipv4IhlWords (m x)).toNat = header.ihl) ∧
      m (x + 1) = header.dscpEcn ∧ (be16At m (x + 2)).toNat = total ∧
      be16At m (x + 4) = header.identification ∧
      (be16At m (x + 6)).toNat = header.flags * 2 ^ 13 ∧
      m (x + 8) = header.ttl ∧ m (x + 9) = protocol ∧
      be16At m (x + 10) = header.headerChecksum ∧ be32At m (x + 12) = header.srcAddr ∧
      be32At m (x + 16) = header.dstAddr ∧ At m (x + 20) header.options := by
  have hflags : (header.flags : ℕ) * 2 ^ 13 < 2 ^ 16 :=
    Nat.mul_lt_mul_of_pos_right header.flags.isLt (Nat.two_pow_pos 13)
  have hihl : header.ihl < 16 := Nat.lt_succ_of_le header.ihl_le
  have hversion : ipv4Version (m x) = 4 ↔ (m x).toNat / 16 = 4 := by
    rw [ipv4Version, ← UInt8.toNat_inj, toNat_shiftRight_four]
    rfl
  simp only [bytes, at_cons, at_append, length_be, Nat.add_assoc, Nat.reduceAdd, at_be16 htotal,
    at_be16 hflags, at_uint16, at_uint32, eq_ofNat_halves_iff (by decide : 4 < 16) hihl, hversion,
    toNat_ipv4IhlWords]

lemma TCPHeader.at_bytes_iff {header : TCPHeader} :
    At m x header.bytes ↔
      be16At m x = header.srcPort ∧ be16At m (x + 2) = header.dstPort ∧
      be32At m (x + 4) = header.seqNum ∧ be32At m (x + 8) = header.ackNum ∧
      ((tcpDataOffsetWords (m (x + 12))).toNat = header.dataOffset ∧
        (m (x + 12)).toNat % 16 = header.reserved) ∧
      m (x + 13) = header.flags ∧ be16At m (x + 14) = header.windowSize ∧
      be16At m (x + 16) = header.checksum ∧ be16At m (x + 18) = header.urgentPointer ∧
      At m (x + 20) header.options := by
  have hwords : header.dataOffset < 16 := Nat.lt_succ_of_le header.dataOffset_le
  simp only [bytes, at_cons, at_append, length_be, Nat.add_assoc, Nat.reduceAdd, at_uint16,
    at_uint32, eq_ofNat_halves_iff hwords header.reserved.isLt, tcpDataOffsetWords,
    toNat_shiftRight_four]

lemma UDPHeader.at_bytes_iff {header : UDPHeader} :
    At m x header.bytes ↔
      be16At m x = header.srcPort ∧ be16At m (x + 2) = header.dstPort ∧
      be16At m (x + 4) = header.length ∧ be16At m (x + 6) = header.checksum := by
  simp only [bytes, at_append, length_be, Nat.add_assoc, Nat.reduceAdd, at_uint16]

@[simp] lemma IPv4Header.length_bytes (header : IPv4Header) (total : ℕ) (protocol : UInt8) :
    (header.bytes total protocol).length = header.ihl * 4 := by
  rw [← header.options_length]
  simp [bytes]
  omega

@[simp] lemma TCPHeader.length_bytes (header : TCPHeader) :
    header.bytes.length = header.dataOffset * 4 := by
  rw [← header.options_length]
  simp [bytes]
  omega

@[simp] lemma UDPHeader.length_bytes (header : UDPHeader) : header.bytes.length = 8 := by
  simp [bytes]

/-! ### Headers from the memory -/

/-- The IPv4 header whose fields lie at `x`. -/
def IPv4Header.ofMemory (m : Umem) (x : ℕ) (h : 5 ≤ (ipv4IhlWords (m x)).toNat) : IPv4Header where
  ihl := (ipv4IhlWords (m x)).toNat
  dscpEcn := m (x + 1)
  identification := be16At m (x + 4)
  flags := ⟨(be16At m (x + 6)).toNat / 2 ^ 13, by
    have := (be16At m (x + 6)).toNat_lt
    omega⟩
  ttl := m (x + 8)
  headerChecksum := be16At m (x + 10)
  srcAddr := be32At m (x + 12)
  dstAddr := be32At m (x + 16)
  options := slice m (x + 20) ((ipv4IhlWords (m x)).toNat * 4 - 20)
  ihl_ge := h
  ihl_le := by
    rw [toNat_ipv4IhlWords]
    omega
  options_length := by
    rw [length_slice]
    omega

/-- The TCP header whose fields lie at `x`. -/
def TCPHeader.ofMemory (m : Umem) (x : ℕ) (h : 5 ≤ (tcpDataOffsetWords (m (x + 12))).toNat) :
    TCPHeader where
  srcPort := be16At m x
  dstPort := be16At m (x + 2)
  seqNum := be32At m (x + 4)
  ackNum := be32At m (x + 8)
  dataOffset := (tcpDataOffsetWords (m (x + 12))).toNat
  reserved := ⟨(m (x + 12)).toNat % 16, Nat.mod_lt _ (by decide)⟩
  flags := m (x + 13)
  windowSize := be16At m (x + 14)
  checksum := be16At m (x + 16)
  urgentPointer := be16At m (x + 18)
  options := slice m (x + 20) ((tcpDataOffsetWords (m (x + 12))).toNat * 4 - 20)
  dataOffset_ge := h
  dataOffset_le := by
    have := (m (x + 12)).toNat_lt
    rw [tcpDataOffsetWords, toNat_shiftRight_four]
    omega
  options_length := by
    rw [length_slice]
    omega

/-- The UDP header whose fields lie at `x`. -/
def UDPHeader.ofMemory (m : Umem) (x : ℕ) : UDPHeader :=
  ⟨be16At m x, be16At m (x + 2), be16At m (x + 4), be16At m (x + 6)⟩

lemma TCPHeader.at_ofMemory (h : 5 ≤ (tcpDataOffsetWords (m (x + 12))).toNat) :
    At m x (TCPHeader.ofMemory m x h).bytes :=
  at_bytes_iff.mpr ⟨rfl, rfl, rfl, rfl, ⟨rfl, rfl⟩, rfl, rfl, rfl, rfl, at_slice _⟩

lemma UDPHeader.at_ofMemory (m : Umem) (x : ℕ) : At m x (UDPHeader.ofMemory m x).bytes :=
  at_bytes_iff.mpr ⟨rfl, rfl, rfl, rfl⟩

lemma IPv4Header.at_ofMemory (h : 5 ≤ (ipv4IhlWords (m x)).toNat)
    (hversion : ipv4Version (m x) = 4)
    (hfragment : be16At m (x + 6) &&& kIPv4FragmentOffsetMask = 0) :
    At m x ((IPv4Header.ofMemory m x h).bytes (be16At m (x + 2)).toNat (m (x + 9))) := by
  obtain ⟨flags, hflags⟩ := fragment_eq_zero_iff.mp hfragment
  refine (at_bytes_iff (be16At m (x + 2)).toNat_lt).mpr
    ⟨⟨hversion, rfl⟩, rfl, rfl, rfl, ?_, rfl, rfl, rfl, rfl, rfl, at_slice _⟩
  change (be16At m (x + 6)).toNat = (be16At m (x + 6)).toNat / 2 ^ 13 * 2 ^ 13
  rw [hflags, Nat.mul_div_cancel _ (by decide)]

end Fields

/-! ### The transport part -/

lemma Transport.length_tcp (header : TCPHeader) (payload : List Byte) :
    (tcp header payload).bytes.length = header.dataOffset * 4 + payload.length := by
  rw [bytes, List.length_append, TCPHeader.length_bytes]

lemma Transport.length_udp {header : UDPHeader} {body : List Byte}
    (hge : 8 ≤ header.length.toNat) (hle : header.length.toNat ≤ 8 + body.length) :
    (udp header body hge hle).bytes.length = 8 + body.length := by
  rw [bytes, List.length_append, UDPHeader.length_bytes]

section TransportPart

variable {m : Umem} {data : ℕ} {view out : PacketView}

/-- The view of an accepted packet, from the view when its transport header is reached. -/
def Transport.onto (t : Transport) (view : PacketView) : PacketView :=
  { view with
    status := .ok
    payloadOffset := view.l4Offset + t.headerLength
    payloadLength := t.payload.length
    tcpHeaderLength := t.tcpHeaderLength
    srcPort := t.srcPort
    dstPort := t.dstPort }

/-- The TCP branch accepts the bytes of a segment, and nothing else. -/
lemma parseTcp_accepts_iff_exists {transportLength : ℕ} :
    Accepts (parseTcp data view transportLength) m out ↔
      ∃ (header : TCPHeader) (payload : List Byte),
        (Transport.tcp header payload).bytes.length = transportLength ∧
        At m (data + view.l4Offset) (Transport.tcp header payload).bytes ∧
        out = (Transport.tcp header payload).onto view := by
  rw [parseTcp_accepts_iff]
  constructor
  · rintro ⟨hbase, hwords, hheader, rfl⟩
    have hge : 5 ≤ (tcpDataOffsetWords (m (data + view.l4Offset + 12))).toNat :=
      UInt8.le_iff_toNat_le.mp (UInt8.not_lt.mp hwords)
    have hle := Nat.not_lt.mp hheader
    refine ⟨.ofMemory m (data + view.l4Offset) hge,
      slice m (data + view.l4Offset + (tcpDataOffsetWords (m (data + view.l4Offset + 12))).toNat * 4)
        (transportLength - (tcpDataOffsetWords (m (data + view.l4Offset + 12))).toNat * 4),
      ?_, ?_, ?_⟩
    · rw [Transport.length_tcp, length_slice]
      exact Nat.add_sub_cancel' hle
    · rw [Transport.bytes, at_append, TCPHeader.length_bytes]
      exact ⟨TCPHeader.at_ofMemory hge, at_slice _⟩
    · simp only [Transport.onto, Transport.payload, length_slice]
      rfl
  · rintro ⟨header, payload, rfl, hat, rfl⟩
    rw [Transport.bytes, at_append, TCPHeader.at_bytes_iff] at hat
    obtain ⟨⟨hsrc, hdst, -, -, ⟨hwords, -⟩, -⟩, -⟩ := hat
    have hge := header.dataOffset_ge
    rw [Nat.add_assoc] at hdst hwords
    simp only [hwords, hsrc, hdst, Transport.length_tcp, Nat.not_lt, Nat.add_sub_cancel_left]
    refine ⟨by omega, ?_, Nat.le_add_right _ _, rfl⟩
    rw [UInt8.not_lt, UInt8.le_iff_toNat_le, hwords]
    exact hge

lemma Transport.length_udp_payload {header : UDPHeader} {body : List Byte}
    (hge : 8 ≤ header.length.toNat) (hle : header.length.toNat ≤ 8 + body.length) :
    (udp header body hge hle).payload.length = header.length.toNat - 8 := by
  rw [payload, List.length_take]
  omega

/-- The UDP branch accepts the bytes of a datagram, and nothing else. -/
lemma parseUdp_accepts_iff_exists (hview : view.tcpHeaderLength = 0) {transportLength : ℕ} :
    Accepts (parseUdp data view transportLength) m out ↔
      ∃ (header : UDPHeader) (body : List Byte) (hge : 8 ≤ header.length.toNat)
        (hle : header.length.toNat ≤ 8 + body.length),
        (Transport.udp header body hge hle).bytes.length = transportLength ∧
        At m (data + view.l4Offset) (Transport.udp header body hge hle).bytes ∧
        out = (Transport.udp header body hge hle).onto view := by
  rw [parseUdp_accepts_iff]
  constructor
  · rintro ⟨hbase, hmin, hmax, rfl⟩
    have hbody : (slice m (data + view.l4Offset + 8) (transportLength - 8)).length =
        transportLength - 8 := length_slice _ _ _
    have hle : (UDPHeader.ofMemory m (data + view.l4Offset)).length.toNat ≤
        8 + (slice m (data + view.l4Offset + 8) (transportLength - 8)).length := by
      rw [hbody, Nat.add_sub_cancel' (Nat.not_lt.mp hbase)]
      exact Nat.not_lt.mp hmax
    refine ⟨.ofMemory m (data + view.l4Offset),
      slice m (data + view.l4Offset + 8) (transportLength - 8), Nat.not_lt.mp hmin, hle, ?_, ?_, ?_⟩
    · rw [Transport.length_udp, hbody]
      exact Nat.add_sub_cancel' (Nat.not_lt.mp hbase)
    · rw [Transport.bytes, at_append, UDPHeader.length_bytes]
      exact ⟨UDPHeader.at_ofMemory m _, at_slice _⟩
    · rw [Transport.onto, Transport.length_udp_payload, Transport.tcpHeaderLength, ← hview]
      rfl
  · rintro ⟨header, body, hge, hle, rfl, hat, rfl⟩
    rw [Transport.bytes, at_append, UDPHeader.at_bytes_iff] at hat
    obtain ⟨⟨hsrc, hdst, hlength, -⟩, -⟩ := hat
    rw [Nat.add_assoc] at hdst hlength
    simp only [hsrc, hdst, hlength, Transport.length_udp]
    refine ⟨by omega, by omega, by omega, ?_⟩
    rw [Transport.onto, Transport.length_udp_payload, Transport.tcpHeaderLength, ← hview]
    rfl

/-- Both branches together. -/
lemma parseTransport_accepts_iff (hview : view.tcpHeaderLength = 0) {transportLength : ℕ}
    {protocol : UInt8} :
    (protocol = kIPv4ProtocolTCP ∧ Accepts (parseTcp data view transportLength) m out ∨
      protocol = kIPv4ProtocolUDP ∧ Accepts (parseUdp data view transportLength) m out) ↔
      ∃ t : Transport, protocol = t.protocol ∧ t.bytes.length = transportLength ∧
        At m (data + view.l4Offset) t.bytes ∧ out = t.onto view := by
  rw [parseTcp_accepts_iff_exists, parseUdp_accepts_iff_exists hview]
  constructor
  · rintro (⟨rfl, header, payload, h⟩ | ⟨rfl, header, body, hge, hle, h⟩)
    · exact ⟨.tcp header payload, rfl, h⟩
    · exact ⟨.udp header body hge hle, rfl, h⟩
  · rintro ⟨t, rfl, h⟩
    cases t with
    | tcp header payload => exact Or.inl ⟨rfl, header, payload, h⟩
    | udp header body hge hle => exact Or.inr ⟨rfl, header, body, hge, hle, h⟩

end TransportPart

/-! ### Whole frames -/

section Frames

variable {m : Umem} {data length : ℕ} {out : PacketView}

/-- The view when the transport header is reached. -/
def networkView (m : Umem) (data length : ℕ) : PacketView where
  data := some data
  frameLength := length
  etherType := be16At m (data + 12)
  ipv4Protocol := m (data + 23)
  ipv4HeaderLength := (ipv4IhlWords (m (data + 14))).toNat * 4
  ipv4TotalLength := (be16At m (data + 16)).toNat
  srcIp := be32At m (data + 26)
  dstIp := be32At m (data + 30)
  l3Offset := 14
  l4Offset := 14 + (ipv4IhlWords (m (data + 14))).toNat * 4

/-- The frame holds an Ethernet and an IPv4 header that pass the checks. -/
structure Networked (m : Umem) (data length : ℕ) : Prop where
  etherType : be16At m (data + 12) = kEtherTypeIPv4
  version : ipv4Version (m (data + 14)) = 4
  ihl_ge : 5 ≤ (ipv4IhlWords (m (data + 14))).toNat
  total_ge : (ipv4IhlWords (m (data + 14))).toNat * 4 ≤ (be16At m (data + 16)).toNat
  total_le : 14 + (be16At m (data + 16)).toNat ≤ length
  fragment : be16At m (data + 20) &&& kIPv4FragmentOffsetMask = 0

/-- `parse_packet` accepts the headers it checks, followed by a TCP segment or a UDP datagram. -/
lemma parsePacket_accepts_iff_networked :
    Accepts (parsePacket (some data) length) m out ↔
      Networked m data length ∧ ∃ t : Transport, m (data + 23) = t.protocol ∧
        t.bytes.length = (be16At m (data + 16)).toNat -
          (ipv4IhlWords (m (data + 14))).toNat * 4 ∧
        At m (data + (14 + (ipv4IhlWords (m (data + 14))).toNat * 4)) t.bytes ∧
        out = t.onto (networkView m data length) := by
  rw [parsePacket_accepts_iff, parseIPv4_accepts_iff]
  constructor
  · rintro ⟨-, hether, -, hversion, hwords, -, htotal, hframe, hfragment, hbranch⟩
    refine ⟨⟨not_not.mp hether, not_not.mp hversion, ?_, Nat.not_lt.mp htotal,
      Nat.not_lt.mp hframe, not_not.mp hfragment⟩, (parseTransport_accepts_iff rfl).mp hbranch⟩
    exact UInt8.le_iff_toNat_le.mp (UInt8.not_lt.mp hwords)
  · rintro ⟨hnet, ht⟩
    have hihl := hnet.ihl_ge
    have hge := hnet.total_ge
    have hle := hnet.total_le
    refine ⟨by omega, not_not.mpr hnet.etherType, by omega, not_not.mpr hnet.version, ?_,
      Nat.not_lt.mpr (by omega), Nat.not_lt.mpr hge, Nat.not_lt.mpr hle,
      not_not.mpr hnet.fragment, (parseTransport_accepts_iff rfl).mpr ht⟩
    exact UInt8.not_lt.mpr (UInt8.le_iff_toNat_le.mpr hihl)

namespace IPv4Frame

variable {f : IPv4Frame}

lemma length_bytes (f : IPv4Frame) : f.bytes.length = 14 + f.totalLength + f.padding.length := by
  simp only [bytes, List.length_append, f.dstMac.2, f.srcMac.2, length_be,
    IPv4Header.length_bytes, totalLength]
  omega

/-- Where the parts of a frame lie. -/
lemma at_bytes_iff :
    At m data f.bytes ↔ At m data f.dstMac ∧ At m (data + 6) f.srcMac ∧
      be16At m (data + 12) = kEtherTypeIPv4 ∧
      At m (data + 14) (f.header.bytes f.totalLength f.transport.protocol) ∧
      At m (data + (14 + f.header.ihl * 4)) f.transport.bytes ∧
      At m (data + (14 + f.totalLength)) f.padding := by
  have hether : At m (data + 12) (be 2 0x0800) ↔ be16At m (data + 12) = kEtherTypeIPv4 :=
    at_uint16 (v := kEtherTypeIPv4)
  simp only [bytes, at_append, f.dstMac.2, f.srcMac.2, length_be, IPv4Header.length_bytes,
    Nat.add_assoc, Nat.reduceAdd, hether, totalLength]

/-- A frame's bytes pass the checks of its headers. -/
lemma networked (h : At m data f.bytes) :
    Networked m data f.bytes.length ∧
      (ipv4IhlWords (m (data + 14))).toNat = f.header.ihl ∧
      (be16At m (data + 16)).toNat = f.totalLength ∧ m (data + 23) = f.transport.protocol ∧
      be32At m (data + 26) = f.header.srcAddr ∧ be32At m (data + 30) = f.header.dstAddr := by
  obtain ⟨-, -, hether, hheader, -, -⟩ := at_bytes_iff.mp h
  obtain ⟨⟨hversion, hihl⟩, -, htotal, -, hflags, -, hprotocol, -, hsrc, hdst, -⟩ :=
    (IPv4Header.at_bytes_iff f.total_lt).mp hheader
  change (be16At m (data + 16)).toNat = f.totalLength at htotal
  refine ⟨⟨hether, hversion, ?_, ?_, ?_, ?_⟩, hihl, htotal, hprotocol, hsrc, hdst⟩
  · rw [hihl]
    exact f.header.ihl_ge
  · rw [hihl]
    exact (Nat.le_add_right _ _).trans_eq htotal.symm
  · rw [length_bytes, ← htotal]
    exact Nat.le_add_right _ _
  · exact fragment_eq_zero_iff.mpr ⟨_, hflags⟩

/-- The view of a frame that lies in the memory. -/
lemma onto_networkView (h : At m data f.bytes) :
    f.transport.onto (networkView m data f.bytes.length) = f.view data := by
  obtain ⟨hnet, hihl, htotal, hprotocol, hsrc, hdst⟩ := networked h
  simp only [Transport.onto, networkView, hnet.etherType, hihl, htotal, hprotocol, hsrc, hdst]
  rfl

/-- The headers in the memory, a transport part and the padding make up a frame. -/
lemma exists_at (hnet : Networked m data length) {t : Transport}
    (hprotocol : m (data + 23) = t.protocol)
    (hlength : t.bytes.length =
      (be16At m (data + 16)).toNat - (ipv4IhlWords (m (data + 14))).toNat * 4)
    (ht : At m (data + (14 + (ipv4IhlWords (m (data + 14))).toNat * 4)) t.bytes) :
    ∃ f : IPv4Frame, f.transport = t ∧ f.bytes.length = length ∧ At m data f.bytes := by
  have htotal : (ipv4IhlWords (m (data + 14))).toNat * 4 + t.bytes.length =
      (be16At m (data + 16)).toNat := by
    rw [hlength]
    exact Nat.add_sub_cancel' hnet.total_ge
  have hheader := IPv4Header.at_ofMemory hnet.ihl_ge hnet.version hnet.fragment
  let f : IPv4Frame := {
    dstMac := ⟨slice m data 6, length_slice _ _ _⟩
    srcMac := ⟨slice m (data + 6) 6, length_slice _ _ _⟩
    header := .ofMemory m (data + 14) hnet.ihl_ge
    transport := t
    padding := slice m (data + (14 + (be16At m (data + 16)).toNat))
      (length - (14 + (be16At m (data + 16)).toNat))
    total_lt := htotal.trans_lt (be16At m (data + 16)).toNat_lt }
  have htotal' : f.totalLength = (be16At m (data + 16)).toNat := htotal
  refine ⟨f, rfl, ?_, ?_⟩
  · rw [length_bytes, htotal', length_slice]
    exact Nat.add_sub_cancel' hnet.total_le
  · rw [at_bytes_iff, htotal', ← hprotocol]
    exact ⟨at_slice _, at_slice _, hnet.etherType, hheader, ht, at_slice _⟩

end IPv4Frame

/-- `parse_packet` accepts the bytes of the structured frames, and nothing else. -/
lemma parsePacket_accepts_iff_exists :
    Accepts (parsePacket (some data) length) m out ↔
      ∃ f : IPv4Frame, f.bytes.length = length ∧ At m data f.bytes ∧ out = f.view data := by
  rw [parsePacket_accepts_iff_networked]
  constructor
  · rintro ⟨hnet, t, hprotocol, hlength, ht, rfl⟩
    obtain ⟨f, rfl, rfl, hat⟩ := IPv4Frame.exists_at hnet hprotocol hlength ht
    exact ⟨f, rfl, hat, IPv4Frame.onto_networkView hat⟩
  · rintro ⟨f, rfl, hat, rfl⟩
    obtain ⟨hnet, hihl, htotal, hprotocol, -, -⟩ := IPv4Frame.networked hat
    obtain ⟨-, -, -, -, ht, -⟩ := IPv4Frame.at_bytes_iff.mp hat
    refine ⟨hnet, f.transport, hprotocol, ?_, ?_, (IPv4Frame.onto_networkView hat).symm⟩
    · rw [hihl, htotal]
      exact (Nat.add_sub_cancel_left _ _).symm
    · rw [hihl]
      exact ht

/-- The payload lies behind the transport header. -/
lemma Transport.at_payload {t : Transport} {x : ℕ} (h : At m x t.bytes) :
    At m (x + t.headerLength) t.payload := by
  cases t with
  | tcp header payload =>
    rw [bytes, at_append, TCPHeader.length_bytes] at h
    exact h.2
  | udp header body hge hle =>
    rw [bytes, at_append, UDPHeader.length_bytes] at h
    exact h.2.take _

lemma Transport.headerLength_le (t : Transport) : t.headerLength ≤ t.bytes.length := by
  cases t with
  | tcp header payload =>
    rw [length_tcp]
    exact Nat.le_add_right _ _
  | udp header body hge hle =>
    rw [length_udp]
    exact Nat.le_add_right _ _

/-- The bytes lie where the pointer leads. -/
def PointsTo (m : Umem) (pointer : Option ℕ) (bs : List Byte) : Prop :=
  ∃ x, pointer = some x ∧ At m x bs

/-- The accessors of the view lead to the frame's addresses and its payload. -/
lemma IPv4Frame.view_pointsTo {f : IPv4Frame} (h : At m data f.bytes) :
    PointsTo m (f.view data).dstMac f.dstMac ∧ PointsTo m (f.view data).srcMac f.srcMac ∧
      PointsTo m (f.view data).payloadData f.transport.payload := by
  obtain ⟨hdst, hsrc, -, -, ht, -⟩ := at_bytes_iff.mp h
  have hether : (f.view data).frameLength ≥ kEthernetHeaderBytes := by
    rw [view, length_bytes, Nat.add_assoc]
    exact Nat.le_add_right _ _
  have hoffset : (f.view data).payloadOffset ≤ (f.view data).frameLength := by
    have hheader := f.transport.headerLength_le
    simp only [view, length_bytes, totalLength]
    omega
  refine ⟨⟨data, if_pos hether, hdst⟩, ⟨data + 6, if_pos hether, hsrc⟩,
    ⟨data + (f.view data).payloadOffset, if_pos ⟨rfl, hoffset⟩, ?_⟩⟩
  have hpayload := Transport.at_payload ht
  rwa [Nat.add_assoc] at hpayload

end Frames

/-- `parse_packet` accepts the serialisations of the structured frames and returns each frame's
fields; whatever it accepts is such a serialisation, and the view has that frame's fields. -/
theorem parsePacket_accepts_grammar (m : Umem) :
    (∀ (f : IPv4Frame) (data : ℕ), At m data f.bytes →
      let view := (run (parsePacket (some data) f.bytes.length) m).1
      view.ok = true ∧ view = f.view data ∧ PointsTo m view.dstMac f.dstMac ∧
        PointsTo m view.srcMac f.srcMac ∧ PointsTo m view.payloadData f.transport.payload) ∧
    ∀ (data : Option ℕ) (length : ℕ), (run (parsePacket data length) m).1.ok = true →
      ∃ (base : ℕ) (f : IPv4Frame), data = some base ∧ slice m base length = f.bytes ∧
        (run (parsePacket data length) m).1 = f.view base := by
  constructor
  · intro f data hat view
    obtain ⟨hview, hok⟩ := parsePacket_accepts_iff_exists.mpr ⟨f, rfl, hat, rfl⟩
    change view = f.view data at hview
    rw [hview]
    exact ⟨hok, rfl, IPv4Frame.view_pointsTo hat⟩
  · intro data length hok
    cases data with
    | none =>
      rw [(parsePacket_none length m).2.2] at hok
      cases hok
    | some base =>
      obtain ⟨f, rfl, hat, hview⟩ := parsePacket_accepts_iff_exists.mp ⟨rfl, hok⟩
      exact ⟨base, f, rfl, hat, hview⟩

/-- A datagram with IPv4 options, two bytes more than its UDP length says, and padding. -/
def optionsFrame : IPv4Frame where
  dstMac := ⟨[0xAA, 0xBB, 0xCC, 0xDD, 0xEE, 0xFF], rfl⟩
  srcMac := ⟨[0x11, 0x22, 0x33, 0x44, 0x55, 0x66], rfl⟩
  header := ⟨6, 0, 7, 2, 64, 0, 0x0A000001, 0x0A000002, [1, 1, 1, 0], Nat.le_succ 5,
    Nat.le_add_right 6 9, rfl⟩
  transport := .udp ⟨5353, 53, 9, 0⟩ [0xDE, 0xAD, 0xBE] (Nat.le_succ 8) (Nat.le_add_right 9 2)
  padding := [0, 0]
  total_lt := by decide

theorem parsePacket_accepts_grammar_options :
    let m : Umem := fun x => optionsFrame.bytes.getD x 0
    At m 0 optionsFrame.bytes ∧
      (run (parsePacket (some 0) 51) m).1 = optionsFrame.view 0 ∧
      ∃ (base : ℕ) (f : IPv4Frame), some 0 = some base ∧ slice m base 51 = f.bytes ∧
        (run (parsePacket (some 0) 51) m).1 = f.view base := by
  intro m
  have hat : At m 0 optionsFrame.bytes := by
    unfold At
    decide
  have hview := (parsePacket_accepts_grammar m).1 optionsFrame 0 hat
  exact ⟨hat, hview.2.1, (parsePacket_accepts_grammar m).2 (some 0) 51 hview.1⟩

end ChronosX
