import ChronosX.Chaos.Decision
import ChronosX.Parser.Grammar

/-!
# Padding and truncation

The parser reads no byte behind the IPv4 datagram. Two byte strings of which one is the beginning of
the other, one of them accepted, hold the same frame up to its padding as long as both are long
enough for the datagram; the decisions on that frame do not depend on the padding.
-/

namespace ChronosX

open Mem ByteLayout

/-! ### Byte strings with a common beginning -/

/-- Up to the end of the shorter one, the two strings are the same. -/
lemma take_eq_take_of_isPrefix {b c : List Byte} (h : b <+: c ∨ c <+: b) {n : ℕ}
    (hb : n ≤ b.length) (hc : n ≤ c.length) : c.take n = b.take n := by
  rcases h with ⟨rest, rfl⟩ | ⟨rest, rfl⟩
  · exact List.take_append_of_le_length hb
  · exact (List.take_append_of_le_length hc).symm

namespace IPv4Frame

variable {f g : IPv4Frame} {m m' : Umem} {data data' : ℕ}

/-- The same frame with another padding. -/
def repad (f : IPv4Frame) (padding : List Byte) : IPv4Frame := { f with padding }

/-- The bytes in front of the padding. -/
lemma bytes_repad (f : IPv4Frame) (padding : List Byte) :
    (f.repad padding).bytes = f.bytes.take (14 + f.totalLength) ++ padding := by
  have hsplit : ∀ padding : List Byte, (f.repad padding).bytes =
      (f.repad []).bytes ++ padding := by
    intro padding
    simp only [bytes, repad, List.append_assoc, List.nil_append]
    rfl
  have hlength : (f.repad []).bytes.length = 14 + f.totalLength := length_bytes (f.repad [])
  have hself : f.bytes = (f.repad []).bytes ++ f.padding := hsplit f.padding
  rw [hsplit, hself, ← hlength, List.take_left]

/-- A string long enough for the datagram holds the frame with another padding. -/
lemma bytes_repad_drop {c : List Byte} (h : f.bytes <+: c ∨ c <+: f.bytes)
    (hlength : 14 + f.totalLength ≤ c.length) :
    (f.repad (c.drop (14 + f.totalLength))).bytes = c := by
  have hle : 14 + f.totalLength ≤ f.bytes.length := by
    rw [length_bytes]
    exact Nat.le_add_right _ _
  rw [bytes_repad, ← take_eq_take_of_isPrefix h hle hlength]
  exact List.take_append_drop _ _

/-- Frames with a common beginning have the same total length. -/
lemma totalLength_eq (hf : At m data f.bytes) (hg : At m' data' g.bytes)
    (h : f.bytes <+: g.bytes ∨ g.bytes <+: f.bytes) : g.totalLength = f.totalLength := by
  have hlong : ∀ f : IPv4Frame, 18 ≤ f.bytes.length := by
    intro f
    have hihl := f.header.ihl_ge
    rw [length_bytes, totalLength]
    omega
  obtain ⟨-, -, hftotal, -⟩ := networked hf
  obtain ⟨-, -, hgtotal, -⟩ := networked hg
  have hgtake := hg.take 18
  rw [take_eq_take_of_isPrefix h (hlong f) (hlong g)] at hgtake
  have hfield := hgtake.slice_eq (hf.take 18) 16 2 (List.length_take_of_le (hlong f)).ge
  rw [← hgtotal, ← hftotal, be16At, be16At, hfield]

lemma payloadBytes_view (hf : At m data f.bytes) :
    payloadBytes (f.view data) m = f.transport.payload := by
  obtain ⟨-, -, x, hx, hpayload⟩ := view_pointsTo hf
  rw [payloadBytes, hx]
  exact hpayload

/-- A rule decides alike whatever the padding. -/
lemma decidePacket_repad (hf : At m data f.bytes) {padding : List Byte}
    (hg : At m' data' (f.repad padding).bytes) (rules : List ChaosRule) :
    (run (decidePacket ((f.repad padding).view data') rules) m').1 =
        (run (decidePacket (f.view data) rules) m).1 ∧
      decidePacketFast ((f.repad padding).view data') rules =
        decidePacketFast (f.view data) rules := by
  have hhash : ∀ rule, packetHash rule ((f.repad padding).view data') m' =
      packetHash rule (f.view data) m := by
    intro rule
    rw [packetHash, packetHash, hashedData, hashedData, payloadBytes_view hf, payloadBytes_view hg]
    rfl
  simp only [run_decidePacket, decidePacketFast_eq, hhash]
  exact ⟨rfl, rfl⟩

end IPv4Frame

/-- A byte string `b` that `parse_packet` accepts, and another that agrees with it as far as both
reach. The parser accepts the other exactly when it is long enough for the IPv4 datagram; then it
returns the same fields, apart from the pointer and the frame's length, and every list of rules
decides alike on both. -/
theorem parsePacket_padding {m m' : Umem} {data data' : ℕ} {b c : List Byte} (hb : At m data b)
    (hc : At m' data' c) (hcommon : b <+: c ∨ c <+: b)
    (hok : (run (parsePacket (some data) b.length) m).1.ok = true) :
    let packet := (run (parsePacket (some data) b.length) m).1
    let packet' := (run (parsePacket (some data') c.length) m').1
    (packet'.ok = true ↔ 14 + packet.ipv4TotalLength ≤ c.length) ∧
    (packet'.ok = true →
      packet' = { packet with data := some data', frameLength := c.length } ∧
      ∀ rules, (run (decidePacket packet' rules) m').1 = (run (decidePacket packet rules) m).1 ∧
        decidePacketFast packet' rules = decidePacketFast packet rules) := by
  obtain ⟨f, hlength, hf, hpacket⟩ := parsePacket_accepts_iff_exists.mp ⟨rfl, hok⟩
  obtain rfl : f.bytes = b := by rw [← hf, hlength, hb]
  dsimp only
  rw [hpacket]
  -- a string that is long enough holds the same frame with its own padding
  have hlong : 14 + f.totalLength ≤ c.length →
      ∃ padding, c = (f.repad padding).bytes ∧
        (run (parsePacket (some data') c.length) m').1 = (f.repad padding).view data' := by
    intro hle
    have hbytes := IPv4Frame.bytes_repad_drop hcommon hle
    rw [← hbytes] at hc ⊢
    exact ⟨_, rfl, (parsePacket_accepts_iff_exists.mpr ⟨_, rfl, hc, rfl⟩).1⟩
  have hiff : (run (parsePacket (some data') c.length) m').1.ok = true ↔
      14 + f.totalLength ≤ c.length := by
    constructor
    · intro hok'
      obtain ⟨g, hlength', hg, -⟩ := parsePacket_accepts_iff_exists.mp ⟨rfl, hok'⟩
      obtain rfl : g.bytes = c := by rw [← hg, hlength', hc]
      rw [← IPv4Frame.totalLength_eq hf hg hcommon, IPv4Frame.length_bytes]
      exact Nat.le_add_right _ _
    · intro hle
      obtain ⟨padding, -, hview⟩ := hlong hle
      rw [hview]
      rfl
  refine ⟨hiff, fun hok' => ?_⟩
  obtain ⟨padding, rfl, hview⟩ := hlong (hiff.mp hok')
  rw [hview]
  exact ⟨rfl, IPv4Frame.decidePacket_repad hf hc⟩

/-- The padding of a frame cut off, and the last byte of its datagram as well. -/
theorem parsePacket_padding_options :
    let m : Umem := fun x => optionsFrame.bytes.getD x 0
    let packet := fun length => (run (parsePacket (some 0) length) m).1
    (packet 51).ok = true ∧ packet 49 = { packet 51 with data := some 0, frameLength := 49 } ∧
      (packet 48).ok = false := by
  intro m packet
  have hat : ∀ n, At m 0 (optionsFrame.bytes.take n) := by
    have hat : At m 0 optionsFrame.bytes := by
      unfold At
      decide
    exact hat.take
  have hok : (packet 51).ok = true := by decide
  have htotal : 14 + (packet 51).ipv4TotalLength = 49 := by decide
  have hcommon : ∀ n, optionsFrame.bytes.take 51 <+: optionsFrame.bytes.take n ∨
      optionsFrame.bytes.take n <+: optionsFrame.bytes.take 51 :=
    fun n => Or.inr (List.take_prefix n _)
  have hcut := parsePacket_padding (hat 51) (hat 49) (hcommon 49) hok
  have hshort := parsePacket_padding (hat 51) (hat 48) (hcommon 48) hok
  refine ⟨hok, (hcut.2 (hcut.1.mpr (Nat.le_of_eq htotal))).1, ?_⟩
  rw [Bool.eq_false_iff]
  intro hlong
  exact absurd (hshort.1.mp hlong) (by decide)

end ChronosX
