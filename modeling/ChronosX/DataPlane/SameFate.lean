import ChronosX.DataPlane.Effect
import ChronosX.Parser.Grammar

/-!
# The same packet, the same fate

`parse_packet` reads the headers of an accepted packet and nothing else: no byte of the MAC
addresses and no byte of the payload. These are the bytes that sending a frame on changes, so the
frame holds the same packet afterwards, the chaos engine decides as before, and sending the frame
on once more undoes both changes.
-/

namespace ChronosX

open Mem ByteLayout

/-! ### What the parser reads -/

/-- The frames at `data` agree from the EtherType up to an offset. -/
def SameHeaders (data offset : ℕ) (m m' : Umem) : Prop :=
  ∀ i, 12 ≤ i → i < offset → m' (data + i) = m (data + i)

section

variable {data offset length : ℕ} {m m' : Umem} {out : PacketView}

lemma SameHeaders.mono {offset' : ℕ} (h : SameHeaders data offset m m') (hle : offset' ≤ offset) :
    SameHeaders data offset' m m' :=
  fun i hi hlt => h i hi (hlt.trans_le hle)

lemma SameHeaders.slice_eq (h : SameHeaders data offset m m') {i width : ℕ} (hi : 12 ≤ i)
    (hend : i + width ≤ offset) : slice m' (data + i) width = slice m (data + i) width := by
  apply slice_congr
  intro j hj
  rw [Nat.add_assoc]
  exact h (i + j) (by omega) (by omega)

lemma SameHeaders.be16At_eq (h : SameHeaders data offset m m') {i : ℕ} (hi : 12 ≤ i)
    (hend : i + 2 ≤ offset) : be16At m' (data + i) = be16At m (data + i) := by
  rw [be16At, h.slice_eq hi hend, be16At]

lemma SameHeaders.be32At_eq (h : SameHeaders data offset m m') {i : ℕ} (hi : 12 ≤ i)
    (hend : i + 4 ≤ offset) : be32At m' (data + i) = be32At m (data + i) := by
  rw [be32At, h.slice_eq hi hend, be32At]

lemma parseTcp_congr {view : PacketView} {transportLength : ℕ} (hl4 : 12 ≤ view.l4Offset)
    (haccepts : Accepts (parseTcp data view transportLength) m out)
    (h : SameHeaders data out.payloadOffset m m') :
    Accepts (parseTcp data view transportLength) m' out := by
  rw [parseTcp_accepts_iff] at haccepts ⊢
  obtain ⟨hbase, hwords, hheader, hout⟩ := haccepts
  have hoffset : view.l4Offset + 20 ≤ out.payloadOffset := by
    have := UInt8.le_iff_toNat_le.mp (UInt8.not_lt.mp hwords)
    rw [hout]
    change 5 ≤ _ at this
    dsimp only
    omega
  dsimp only
  rw [h (view.l4Offset + 12) (by omega) (by omega), h.be16At_eq hl4 (by omega),
    h.be16At_eq (i := view.l4Offset + 2) (by omega) (by omega)]
  exact ⟨hbase, hwords, hheader, hout⟩

lemma parseUdp_congr {view : PacketView} {transportLength : ℕ} (hl4 : 12 ≤ view.l4Offset)
    (haccepts : Accepts (parseUdp data view transportLength) m out)
    (h : SameHeaders data out.payloadOffset m m') :
    Accepts (parseUdp data view transportLength) m' out := by
  rw [parseUdp_accepts_iff] at haccepts ⊢
  obtain ⟨hbase, hmin, hmax, hout⟩ := haccepts
  have hoffset : view.l4Offset + 8 = out.payloadOffset := by rw [hout]
  dsimp only
  rw [h.be16At_eq (i := view.l4Offset + 4) (by omega) (by omega), h.be16At_eq hl4 (by omega),
    h.be16At_eq (i := view.l4Offset + 2) (by omega) (by omega)]
  exact ⟨hbase, hmin, hmax, hout⟩

/-- A frame with the same headers holds the same packet. -/
lemma parsePacket_congr (haccepts : Accepts (parsePacket (some data) length) m out)
    (h : SameHeaders data out.payloadOffset m m') :
    Accepts (parsePacket (some data) length) m' out := by
  have hparsed : Parsed data length out := by
    rw [← haccepts.1]
    exact (parsePacket_sat data length m).post.2
  have hnested := hparsed.nested haccepts.2
  have hbase : SameHeaders data 34 m m' := h.mono (hnested.header_le.trans hnested.l4Offset_le)
  rw [parsePacket_accepts_iff, parseIPv4_accepts_iff] at haccepts ⊢
  dsimp only at haccepts ⊢
  rw [hbase.be16At_eq (i := 12) (by omega) (by omega), hbase 14 (by omega) (by omega),
    hbase.be16At_eq (i := 16) (by omega) (by omega), hbase.be16At_eq (i := 20) (by omega) (by omega),
    hbase 23 (by omega) (by omega), hbase.be32At_eq (i := 26) (by omega) (by omega),
    hbase.be32At_eq (i := 30) (by omega) (by omega)]
  obtain ⟨hshort, hether, hlength, hversion, hwords, hheader, hsmall, hlarge, hfragment,
    hbranch⟩ := haccepts
  refine ⟨hshort, hether, hlength, hversion, hwords, hheader, hsmall, hlarge, hfragment, ?_⟩
  rcases hbranch with ⟨hprotocol, htcp⟩ | ⟨hprotocol, hudp⟩
  · exact Or.inl ⟨hprotocol, parseTcp_congr (by dsimp only; omega) htcp h⟩
  · exact Or.inr ⟨hprotocol, parseUdp_congr (by dsimp only; omega) hudp h⟩

end

/-! ### Sending a frame on twice -/

section

variable {frame length : ℕ} {packet : PacketView} {rules : List ChaosRule}

lemma swapMacs_swapMacs (frame : ℕ) (m : Umem) : swapMacs frame (swapMacs frame m) = m := by
  funext x
  by_cases hlow : frame ≤ x ∧ x < frame + 6
  · obtain ⟨i, rfl⟩ := Nat.exists_eq_add_of_le hlow.1
    have hi : i < 6 := Nat.lt_of_add_lt_add_left hlow.2
    rw [swapMacs_low hi, swapMacs_high hi]
  by_cases hhigh : frame + 6 ≤ x ∧ x < frame + 12
  · obtain ⟨i, rfl⟩ := Nat.exists_eq_add_of_le' hhigh.1
    have hi : i < 6 := by omega
    rw [show i + (frame + 6) = frame + (i + 6) by omega, swapMacs_high hi, swapMacs_low hi]
  · rw [swapMacs, if_neg hlow, if_neg hhigh, swapMacs, if_neg hlow, if_neg hhigh]

lemma flipBit_flipBit (x : ℕ) (m : Umem) : flipBit x (flipBit x m) = m := by
  rw [flipBit, flipBit, Function.update_self, Function.update_idem, UInt8.xor_assoc,
    UInt8.xor_self, UInt8.xor_zero, Function.update_eq_self]

/-- A byte behind the MAC addresses is changed before or after their exchange. -/
lemma swapMacs_flipBit {x : ℕ} (hx : frame + 12 ≤ x) (m : Umem) :
    swapMacs frame (flipBit x m) = flipBit x (swapMacs frame m) := by
  obtain ⟨i, rfl⟩ := Nat.exists_eq_add_of_le hx
  funext y
  by_cases hy : y = frame + 12 + i
  · subst hy
    rw [Nat.add_assoc, swapMacs_behind (Nat.le_add_right 12 i), flipBit_self, flipBit_self,
      swapMacs_behind (Nat.le_add_right 12 i)]
  · rw [flipBit_of_ne hy, swapMacs, swapMacs]
    split_ifs with hlow hhigh
    · exact flipBit_of_ne (by omega)
    · exact flipBit_of_ne (by omega)
    · exact flipBit_of_ne hy

lemma corruptPayload_corruptPayload (m : Umem) :
    corruptPayload rules packet frame (corruptPayload rules packet frame m) = m := by
  rw [corruptPayload, corruptPayload]
  split_ifs
  · exact flipBit_flipBit _ m
  · rfl

lemma swapMacs_corruptPayload (hpacket : Parsed frame length packet) (hok : packet.ok = true)
    (m : Umem) : swapMacs frame (corruptPayload rules packet frame m) =
      corruptPayload rules packet frame (swapMacs frame m) := by
  rw [corruptPayload, corruptPayload]
  split_ifs with hcorrupts
  · obtain ⟨hheader, hle, -, -⟩ := corruptedOffset_mem rules hpacket hok hcorrupts
    exact swapMacs_flipBit (Nat.add_le_add_left (by omega) frame) m
  · rfl

/-- Sending on is an involution: the two changes commute, and each undoes itself. -/
lemma turnAround_turnAround (hpacket : Parsed frame length packet) (hok : packet.ok = true)
    (m : Umem) : turnAround rules packet frame (turnAround rules packet frame m) = m := by
  rw [turnAround, turnAround, ← swapMacs_corruptPayload hpacket hok, swapMacs_swapMacs,
    corruptPayload_corruptPayload]

/-- The headers of a frame that is sent on are kept. -/
lemma sameHeaders_turnAround (hpacket : Parsed frame length packet) (hok : packet.ok = true)
    (m : Umem) :
    SameHeaders frame packet.payloadOffset m (turnAround rules packet frame m) := by
  intro i hi hlt
  rw [turnAround, swapMacs_behind hi, corruptPayload_of_ne]
  rintro hcorrupts rfl
  exact Nat.not_lt.mpr (corruptedOffset_mem rules hpacket hok hcorrupts).2.1 hlt

lemma SameBytes.turnAround {m m' : Umem} (h : SameBytes frame length m m')
    (hlength : kEthernetHeaderBytes ≤ length) (rules : List ChaosRule) (packet : PacketView) :
    SameBytes frame length (turnAround rules packet frame m) (turnAround rules packet frame m') := by
  apply SameBytes.swapMacs _ hlength
  rw [corruptPayload, corruptPayload]
  split_ifs
  · exact h.flipBit _
  · exact h

end

section

variable {base : ℕ} {d : PacketDescriptor} {rules : List ChaosRule} {m : Umem}

/-- A frame that is sent on holds the same packet afterwards. -/
lemma packetOf_turnAround (hok : (packetOf base d m).ok = true) :
    packetOf base d (turnAround rules (packetOf base d m) (base + d.frameAddress.toNat) m) =
      packetOf base d m :=
  (parsePacket_congr ⟨rfl, hok⟩ (sameHeaders_turnAround (parsed_packetOf base d m) hok m)).1

end

/-- A frame that holds an accepted packet, decided neither to be dropped nor to be delayed, is
processed in two batches. After the first batch it holds the same packet (the view is the same in
every field) and the chaos engine decides the same; after the second its bytes are the original
ones. The other descriptors, the wheels, the outputs and the lengths of a tick do not matter. -/
theorem same_packet_same_fate {shape shape' : WheelShape} (base : ℕ) (umemSizeBytes : UInt64)
    (rules : List ChaosRule) (tickNs tickNs' : UInt64) (ds ds' : List PacketDescriptor)
    (timingWheel : TimingWheel shape) (timingWheel' : TimingWheel shape')
    (txOutput recycleOutput txOutput' recycleOutput' : List ProcessedFrame) (m : Umem)
    (hdisjoint : ValidDisjoint (some base) umemSizeBytes ds)
    (hdisjoint' : ValidDisjoint (some base) umemSizeBytes ds') (d : PacketDescriptor)
    (hd : d ∈ ds) (hd' : d ∈ ds') (hvalid : d.Valid (some base) umemSizeBytes)
    (hok : (packetOf base d m).ok = true)
    (hdrop : (decidePacketFast (packetOf base d m) rules).action ≠ .drop)
    (hdelay : (decidePacketFast (packetOf base d m) rules).action ≠ .delay) :
    let first := (run (processPacketBatch (some base) umemSizeBytes rules tickNs ds timingWheel
      txOutput recycleOutput) m).2
    let second := (run (processPacketBatch (some base) umemSizeBytes rules tickNs' ds' timingWheel'
      txOutput' recycleOutput') first).2
    packetOf base d first = packetOf base d m ∧
    decidePacketFast (packetOf base d first) rules = decidePacketFast (packetOf base d m) rules ∧
    SameBytes (base + d.frameAddress.toNat) d.frameLength.toNat m second := by
  intro first second
  have hpacket := parsed_packetOf base d m
  have hlength := hpacket.ethernet_le hok
  have hforwards : Forwards rules (packetOf base d m) :=
    ⟨hok, beq_eq_false_iff_ne.mpr hdrop, beq_eq_false_iff_ne.mpr hdelay⟩
  have hfirst : SameBytes _ _ _ first := sameBytes_processPacketBatch rules tickNs timingWheel
    txOutput recycleOutput m hdisjoint hd hvalid
  rw [if_pos hforwards] at hfirst
  have hsame : packetOf base d first = packetOf base d m :=
    hfirst.parsePacket_eq.trans (packetOf_turnAround hok)
  have hsecond : SameBytes _ _ _ second := sameBytes_processPacketBatch rules tickNs' timingWheel'
    txOutput' recycleOutput' first hdisjoint' hd' hvalid
  rw [hsame, if_pos hforwards] at hsecond
  have htwice := (hfirst.turnAround hlength rules (packetOf base d m)).trans hsecond
  rw [turnAround_turnAround hpacket hok] at htwice
  exact ⟨hsame, by rw [hsame], htwice⟩

/-- A datagram with one payload byte that is corrupted twice. -/
theorem same_packet_same_fate_udpFrame :
    let rules : List ChaosRule := [{ probability := 10000, action := .corrupt }]
    let batch := fun m => (run (processPacketBatch (some 0) 4096 rules 1000000 [⟨0, 43, 0⟩]
      (.fresh : TimingWheel eightSlots) [{}] [{}]) m).2
    batch (udpFrame 1) 42 = 1 ∧ SameBytes 0 43 (udpFrame 1) (batch (batch (udpFrame 1))) := by
  intro rules batch
  have hdisjoint : ValidDisjoint (some 0) 4096 [⟨0, 43, 0⟩] := List.pairwise_singleton _ _
  have htwice := same_packet_same_fate 0 4096 rules 1000000 1000000 _ _
    (.fresh : TimingWheel eightSlots) (.fresh : TimingWheel eightSlots) [{}] [{}] [{}] [{}]
    (udpFrame 1) hdisjoint hdisjoint ⟨0, 43, 0⟩ List.mem_cons_self List.mem_cons_self (by decide)
    (by decide +kernel) (by decide +kernel) (by decide +kernel)
  exact ⟨by decide +kernel, htwice.2.2⟩

end ChronosX
