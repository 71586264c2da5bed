import ChronosX.Client.Framing
import ChronosX.Protocol.Control

/-!
# Statistics between the server and the client

The server sends the statistics as they are in the memory of a little-endian host, and the client
unpacks the five counters in big-endian order. Each counter arrives with its bytes reversed, so what
the client shows is what was published exactly when the bytes of every counter are symmetric. The
last action is a single byte and always arrives.
-/

namespace ChronosX

open ByteLayout

namespace StatUpdate

variable (stats : StatUpdate)

/-- The five counters, and what follows them. -/
def counterLayout : List Item := [.field 8, .field 8, .field 8, .field 8, .field 8]

def counters : List ℕ :=
  [stats.timestampCycles.toNat, stats.packetsSeen.toNat, stats.packetsDropped.toNat,
    stats.bytesSeen.toNat, stats.averageLatencyNs.toNat]

/-- The bytes of every counter read the same in both directions. -/
def ByteSymmetric : Prop :=
  Symmetric 8 stats.timestampCycles.toNat ∧ Symmetric 8 stats.packetsSeen.toNat ∧
    Symmetric 8 stats.packetsDropped.toNat ∧ Symmetric 8 stats.bytesSeen.toNat ∧
    Symmetric 8 stats.averageLatencyNs.toNat

lemma allSymmetric_iff : AllSymmetric counterLayout stats.counters ↔ stats.ByteSymmetric := by
  simp only [counterLayout, counters, AllSymmetric, ByteSymmetric, and_true]

lemma fits_counters : fits counterLayout stats.counters = true := by
  simp only [counterLayout, counters, fits, toNat_lt_eight, decide_true, Bool.and_true]

/-- The statistics in memory begin with the counters; the last action is the byte behind them. -/
lemma toMemory_eq : ∃ rest, stats.toMemory =
    write .little counterLayout stats.counters ++ (stats.lastAction.raw :: rest) := by
  refine ⟨write .little [.field 1, .field 2, .field 4]
    [stats.reserved0.toNat, stats.reserved1.toNat, stats.padding.toNat], ?_⟩
  have hbyte : encode .little 1 stats.lastAction.raw.toNat = [stats.lastAction.raw] := by
    rw [encode, digits, digits, UInt8.ofNat_toNat]
  have hsplit := write_append .little stats.fits_counters
    [.field 1, .field 1, .field 2, .field 4] [stats.lastAction.raw.toNat, stats.reserved0.toNat,
      stats.reserved1.toNat, stats.padding.toNat]
  rw [write, hbyte] at hsplit
  exact hsplit

end StatUpdate

/-! ### The server's side -/

namespace ControlCore

variable {maxRules : ℕ} {c : ControlCore maxRules} {request response : List Byte}

lemma handleAddRule_core (message : DecodedMessage) (response : List Byte) :
    ∃ ruleTable, (c.handleAddRule message response).core = { c with ruleTable } := by
  unfold handleAddRule
  dsimp only
  split_ifs <;> exact ⟨_, rfl⟩

lemma handleRemoveRule_core (message : DecodedMessage) (response : List Byte) :
    ∃ ruleTable, (c.handleRemoveRule message response).core = { c with ruleTable } := by
  unfold handleRemoveRule
  dsimp only
  split_ifs <;> exact ⟨_, rfl⟩

/-- A request changes nothing but the rule table. -/
lemma handle_core (c : ControlCore maxRules) (request response : List Byte) :
    ∃ ruleTable, (c.handle request response).core = { c with ruleTable } := by
  unfold handle
  dsimp only
  split_ifs
  · exact ⟨_, rfl⟩
  · exact ⟨_, rfl⟩
  · exact ⟨_, rfl⟩
  · exact handleAddRule_core _ response
  · exact handleRemoveRule_core _ response
  · exact ⟨_, rfl⟩
  · exact ⟨_, rfl⟩
  · exact ⟨_, rfl⟩

/-- The core after a sequence of requests, each with its response buffer. -/
def afterRequests (c : ControlCore maxRules) (requests : List (List Byte × List Byte)) :
    ControlCore maxRules :=
  requests.foldl (fun c r => (c.handle r.1 r.2).core) c

/-- The core holds these statistics. -/
def Published (c : ControlCore maxRules) (update : StatUpdate) : Prop :=
  c.latestStats = update ∧ c.haveStats = true

/-- Statistics stay published through any requests. -/
lemma Published.afterRequests {update : StatUpdate} (h : c.Published update)
    (requests : List (List Byte × List Byte)) : (c.afterRequests requests).Published update := by
  induction requests generalizing c with
  | nil => exact h
  | cons r requests ih =>
    apply ih
    obtain ⟨ruleTable, hcore⟩ := c.handle_core r.1 r.2
    dsimp only
    rw [hcore]
    exact h

/-- A request for the statistics is answered with what was published, as it is in memory. -/
lemma Published.handle_getStats {update : StatUpdate} (h : c.Published update)
    (hdecoded : (decodeMessage request).status = .ok)
    (hopcode : (decodeMessage request).message.header.opcode = .getStats) :
    c.handle request response =
      c.encodePayload .statsResponse (decodeMessage request).message.header.sequence
        update.toMemory response := by
  rw [handle, if_neg (not_not.mpr hdecoded)]
  simp only [hopcode]
  rw [if_neg (by decide), if_pos trivial, handleGetStats, if_pos h.2, h.1]

end ControlCore

/-! ### The client's side -/

namespace Client

/-- What the client is to show. -/
def published (stats : StatUpdate) : Stats where
  timestampCycles := stats.timestampCycles.toNat
  packetsSeen := stats.packetsSeen.toNat
  packetsDropped := stats.packetsDropped.toNat
  bytesSeen := stats.bytesSeen.toNat
  averageLatencyNs := stats.averageLatencyNs.toNat
  lastAction := actionNames stats.lastAction.raw.toNat

/-- What the client shows: every counter with its bytes reversed. -/
def shownStats (stats : StatUpdate) : Stats where
  timestampCycles := reread .little .big 8 stats.timestampCycles.toNat
  packetsSeen := reread .little .big 8 stats.packetsSeen.toNat
  packetsDropped := reread .little .big 8 stats.packetsDropped.toNat
  bytesSeen := reread .little .big 8 stats.bytesSeen.toNat
  averageLatencyNs := reread .little .big 8 stats.averageLatencyNs.toNat
  lastAction := actionNames stats.lastAction.raw.toNat

/-- The client unpacks the counters of a payload one after the other. -/
lemma showStats_eq (stats : StatUpdate) (sequence : ℕ) :
    showStats ⟨opStatsResponse, sequence, stats.toMemory⟩ = some (.shown (shownStats stats)) := by
  obtain ⟨rest, hmemory⟩ := stats.toMemory_eq
  have hlength : stats.toMemory.length = 48 := stats.length_toMemory
  have hread : read .big StatUpdate.counterLayout stats.toMemory =
      rereadAll .little .big StatUpdate.counterLayout stats.counters := by
    rw [hmemory, read_write stats.fits_counters]
  have haction : stats.toMemory[40]? = some stats.lastAction.raw := by
    have hcounters : (write .little StatUpdate.counterLayout stats.counters).length = 40 :=
      length_write stats.fits_counters
    rw [hmemory, List.getElem?_append_right hcounters.le, hcounters]
    rfl
  have hunpack : ∀ offset, offset + 8 ≤ 48 → unpackOne 8 stats.toMemory offset =
      some (decode .big ((stats.toMemory.drop offset).take 8)) := by
    intro offset hoffset
    rw [unpackOne, if_neg]
    rw [hlength]
    exact Nat.not_lt.mpr hoffset
  simp only [StatUpdate.counterLayout, StatUpdate.counters, ByteLayout.read, rereadAll,
    List.cons.injEq, and_true, List.drop_drop] at hread
  obtain ⟨hts, hseen, hdropped, hbytes, hlatency⟩ := hread
  rw [showStats, if_pos ⟨rfl, hlength.ge⟩]
  simp only [hunpack 0 (by decide), hunpack 8 (by decide), hunpack 16 (by decide),
    hunpack 24 (by decide), hunpack 32 (by decide), haction, List.drop_zero, hts, hseen, hdropped,
    hbytes, hlatency]
  rfl

lemma shownStats_eq_iff (stats : StatUpdate) :
    shownStats stats = published stats ↔ stats.ByteSymmetric := by
  have hiff := (rereadAll_eq_iff (by decide : ByteOrder.little ≠ .big) stats.fits_counters).trans
    stats.allSymmetric_iff
  simp only [StatUpdate.counterLayout, StatUpdate.counters, rereadAll, List.cons.injEq,
    and_true] at hiff
  rw [← hiff, shownStats, published, Stats.mk.injEq]
  simp only [and_true]

/-! ### Agreement -/

/-- The client shows the published counters with their bytes reversed. -/
lemma shows_published {maxRules : ℕ} {c : ControlCore maxRules} {update : StatUpdate}
    {request response : List Byte} (h : c.Published update)
    (hdecoded : (decodeMessage request).status = .ok)
    (hopcode : (decodeMessage request).message.header.opcode = .getStats)
    (hok : (c.handle request response).result.status = .ok) :
    (receiveReply (c.handle request response).sent).bind showStats =
      some (.shown (shownStats update)) := by
  rw [h.handle_getStats hdecoded hopcode] at hok ⊢
  obtain ⟨hsize, hsent⟩ := ControlCore.encodePayload_ok hok
  have hcode : Opcode.statsResponse.raw.toNat = opStatsResponse := rfl
  rw [hsent, receiveReply_sealed _ hsize, Option.bind_some, hcode, showStats_eq]

/-- Statistics are published, requests are handled, and one more asks for the statistics. The
client shows the last action that was published, and it shows the counters that were published
exactly when the bytes of each of them are symmetric. -/
theorem stats_payload_agrees_iff {maxRules : ℕ} (c : ControlCore maxRules) (update : StatUpdate)
    (requests : List (List Byte × List Byte)) (request response : List Byte)
    (hdecoded : (decodeMessage request).status = .ok)
    (hopcode : (decodeMessage request).message.header.opcode = .getStats) :
    let handled := ((c.publishStats update).afterRequests requests).handle request response
    handled.result.status = .ok →
      ∃ shown, (receiveReply handled.sent).bind showStats = some (.shown shown) ∧
        shown.lastAction = (published update).lastAction ∧
        (shown = published update ↔ update.ByteSymmetric) := by
  intro handled hok
  have hpublished : (c.publishStats update).Published update := ⟨rfl, rfl⟩
  exact ⟨shownStats update,
    shows_published (hpublished.afterRequests requests) hdecoded hopcode hok, rfl,
    shownStats_eq_iff update⟩

/-- The bytes of the client's request for the statistics. -/
def getStatsRequest : List Byte := (encodeMessage opGetStats 1 []).getD []

/-- A fresh server is given statistics, refuses an empty request and answers the client's. -/
def afterStats (update : StatUpdate) : Handled kDefaultMaxRules :=
  ((ControlCore.fresh.publishStats update).afterRequests [([], [])]).handle getStatsRequest
    (List.replicate 72 0)

/-- Counters with symmetric bytes. -/
def symmetricStats : StatUpdate := { packetsSeen := 0x0100000000000001, lastAction := .drop }

/-- They are shown as they are. -/
theorem stats_payload_agrees_iff_symmetric :
    (receiveReply (afterStats symmetricStats).sent).bind showStats =
      some (.shown (published symmetricStats)) := by
  obtain ⟨hdecoded, hopcode, hok⟩ : (decodeMessage getStatsRequest).status = .ok ∧
      (decodeMessage getStatsRequest).message.header.opcode = .getStats ∧
      (afterStats symmetricStats).result.status = .ok := by
    decide +kernel
  rw [afterStats] at hok ⊢
  obtain ⟨shown, hshown, -, hiff⟩ := stats_payload_agrees_iff ControlCore.fresh symmetricStats
    [([], [])] getStatsRequest (List.replicate 72 0) hdecoded hopcode hok
  have hsymmetric : symmetricStats.ByteSymmetric := by
    unfold StatUpdate.ByteSymmetric
    decide
  rw [← hiff.mpr hsymmetric]
  exact hshown

/-- One packet is published, and the client shows `2 ^ 56` packets. -/
theorem one_packet_shown_reversed :
    (afterStats { packetsSeen := 1 }).result.status = .ok ∧
      (receiveReply (afterStats { packetsSeen := 1 }).sent).bind showStats =
        some (.shown ⟨0, 2 ^ 56, 0, 0, 0, some .pass⟩) ∧
      (published { packetsSeen := 1 }).packetsSeen = 1 := by
  decide +kernel

end Client

end ChronosX
