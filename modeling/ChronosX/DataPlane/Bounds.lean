import ChronosX.DataPlane.Verdict

/-!
# UMEM bounds of the data plane

Whatever descriptors arrive, `process_packet_batch` reads and writes, for each of them, only
bytes of the descriptor's own range, and only when that range ends inside the UMEM.
-/

namespace ChronosX

open Mem

section

variable {shape : WheelShape} (umemBase : Option ℕ) (umemSizeBytes : UInt64)
  (rules : List ChaosRule) (tickNs : UInt64)

lemma processDescriptor_accesses (b : Batch shape) (d : PacketDescriptor) (m : Umem) :
    ∀ x ∈ accesses (processDescriptor umemBase umemSizeBytes rules tickNs b d) m,
      OwnByte umemBase umemSizeBytes d x := by
  intro x hx
  rw [(run_processDescriptor umemBase umemSizeBytes rules tickNs b d m).2] at hx
  exact (judge_sat umemBase umemSizeBytes rules tickNs d m).accesses_ok x hx

/-- Every byte a batch touches belongs to one of its descriptors. -/
lemma processDescriptors_accesses (b : Batch shape) (ds : List PacketDescriptor) (m : Umem) :
    ∀ x ∈ accesses (processDescriptors umemBase umemSizeBytes rules tickNs b ds) m,
      ∃ d ∈ ds, OwnByte umemBase umemSizeBytes d x := by
  induction ds generalizing b m with
  | nil =>
    intro x hx
    simp [processDescriptors] at hx
  | cons d ds ih =>
    intro x hx
    rw [processDescriptors, accesses_bind, List.mem_append] at hx
    rcases hx with hx | hx
    · exact ⟨d, List.mem_cons_self, processDescriptor_accesses _ _ _ _ b d m x hx⟩
    · obtain ⟨d', hd', hown⟩ := ih _ _ x hx
      exact ⟨d', List.mem_cons_of_mem _ hd', hown⟩

end

/-- What it means for a byte to be a descriptor's own: its UMEM offset is in the descriptor's
range and below the UMEM size, and the end of the range does not wrap around. -/
lemma OwnByte.bounds {umemBase : Option ℕ} {umemSizeBytes : UInt64} {d : PacketDescriptor} {x : ℕ}
    (h : OwnByte umemBase umemSizeBytes d x) :
    ∃ base, umemBase = some base ∧ base + d.frameAddress.toNat ≤ x ∧
      x < base + d.frameAddress.toNat + d.frameLength.toNat ∧ x - base < umemSizeBytes.toNat ∧
      d.frameAddress.toNat + d.frameLength.toNat < 2 ^ 64 := by
  obtain ⟨base, hbase, hwithin, hle, hlt⟩ := h
  have hsize := umemSizeBytes.toNat_lt
  exact ⟨base, hbase, hle, hlt, by omega, by omega⟩

/-- At each position of a batch, with whatever the earlier descriptors left in the UMEM and in
the wheel, the loop body touches bytes of its own descriptor only; the whole batch touches no
other bytes. The offsets of an accepted packet are nested in its frame, and the second bounds
check of the corruption never fails. -/
theorem processPacketBatch_bounds {shape : WheelShape} (umemBase : Option ℕ)
    (umemSizeBytes : UInt64) (rules : List ChaosRule) (tickNs : UInt64)
    (before : List PacketDescriptor) (d : PacketDescriptor) (after : List PacketDescriptor)
    (wheel : TimingWheel shape) (txOutput recycleOutput : List ProcessedFrame) (m : Umem) :
    (let s := run (processPacketBatch umemBase umemSizeBytes rules tickNs before wheel txOutput
        recycleOutput) m
      ∀ x ∈ accesses (processDescriptor umemBase umemSizeBytes rules tickNs s.1 d) s.2,
        ∃ base, umemBase = some base ∧ base + d.frameAddress.toNat ≤ x ∧
          x < base + d.frameAddress.toNat + d.frameLength.toNat ∧
          x - base < umemSizeBytes.toNat ∧
          d.frameAddress.toNat + d.frameLength.toNat < 2 ^ 64) ∧
    (∀ x ∈ accesses (processPacketBatch umemBase umemSizeBytes rules tickNs
        (before ++ d :: after) wheel txOutput recycleOutput) m,
      ∃ d' ∈ before ++ d :: after, OwnByte umemBase umemSizeBytes d' x) ∧
    ∀ (frame : Option ℕ) (m' : Umem),
      let view := (run (parsePacket frame d.frameLength.toNat) m').1
      view.ok = true →
        view.l4Offset ≤ view.payloadOffset ∧
        view.payloadOffset + view.payloadLength ≤ 14 + view.ipv4TotalLength ∧
        14 + view.ipv4TotalLength ≤ d.frameLength.toNat ∧
        ∀ selector : UInt64, view.payloadLength ≠ 0 →
          view.payloadOffset + selector.toNat % view.payloadLength < view.frameLength := by
  refine ⟨?_, processDescriptors_accesses _ _ _ _ _ _ m, ?_⟩
  · intro s x hx
    exact (processDescriptor_accesses _ _ _ _ s.1 d s.2 x hx).bounds
  · intro frame m' view hok
    cases frame with
    | none =>
      rw [(parsePacket_none d.frameLength.toNat m').2.2] at hok
      cases hok
    | some frame =>
      have hview := (parsePacket_sat frame d.frameLength.toNat m').post.2
      have hnested := hview.nested hok
      refine ⟨hnested.l4Offset_le, hnested.payload_le, ?_, hnested.payload_lt⟩
      rw [← hview.frameLength_eq]
      exact hnested.total_le

end ChronosX
