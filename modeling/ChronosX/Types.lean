import Mathlib.Tactic.Common
import Mathlib.Data.Nat.ModEq

/-!
# Vocabulary types

The constants, the integer names and the packet action shared by every component, and the
sizes accepted by the `is_power_of_two` clauses of the ring, wheel and queue templates.

Fixed-width fields are the machine integers of the source. Sizes and offsets that stay small
are natural numbers; where a 64-bit counter may wrap it is a `UInt64`.
-/

namespace ChronosX

abbrev Byte := UInt8

@[simp] abbrev kEthernetHeaderBytes : ℕ := 14
@[simp] abbrev kIPv4BaseHeaderBytes : ℕ := 20
@[simp] abbrev kTCPBaseHeaderBytes : ℕ := 20
@[simp] abbrev kUDPHeaderBytes : ℕ := 8

/-! ### Packet actions -/

/-- `enum class PacketAction : std::uint8_t`. A rule received from a client is copied byte for
byte, so every 8-bit value can occur, named or not. -/
structure PacketAction where
  raw : UInt8
deriving DecidableEq, Repr, Inhabited

namespace PacketAction

def pass : PacketAction := ⟨0⟩
def drop : PacketAction := ⟨1⟩
def delay : PacketAction := ⟨2⟩
def corrupt : PacketAction := ⟨3⟩

end PacketAction

/-! ### Power-of-two sizes -/

/-- `is_power_of_two`, on a 64-bit `std::size_t`. -/
def isPowerOfTwo (value : UInt64) : Bool :=
  value != 0 && (value &&& (value - 1)) == 0

/-- A template size that passes the `is_power_of_two` clause. -/
structure PowerOfTwo where
  size : UInt64
  valid : isPowerOfTwo size = true

namespace PowerOfTwo

variable (p : PowerOfTwo)

/-- The size as a natural number. -/
def toNat : ℕ := p.size.toNat

/-- `size - 1`, the mask that replaces a modulo. -/
def mask : UInt64 := p.size - 1

lemma exists_log : ∃ k, k < 64 ∧ p.toNat = 2 ^ k := by
  have h := p.valid
  simp only [isPowerOfTwo, Bool.and_eq_true, bne_iff_ne, ne_eq, beq_iff_eq] at h
  obtain ⟨hne, hand⟩ := h
  have hne' : p.size.toNat ≠ 0 := by
    intro h0
    exact hne (UInt64.toNat_inj.mp (by simpa using h0))
  have hle : (1 : UInt64) ≤ p.size := by
    rw [UInt64.le_iff_toNat_le]
    simp only [UInt64.reduceToNat]
    omega
  have hsub : (p.size - 1).toNat = p.size.toNat - 1 := by
    rw [UInt64.toNat_sub_of_le _ _ hle]
    rfl
  have hzero : p.size.toNat &&& (p.size.toNat - 1) = 0 := by
    have := congrArg UInt64.toNat hand
    simpa [hsub] using this
  obtain ⟨k, hk⟩ := (Nat.and_sub_one_eq_zero_iff_isPowerOfTwo hne').mp hzero
  refine ⟨k, ?_, hk⟩
  by_contra hge
  have hlt := p.size.toNat_lt
  have hpow : 2 ^ 64 ≤ 2 ^ k := Nat.pow_le_pow_right (by decide) (by omega)
  omega

lemma toNat_pos : 0 < p.toNat := by
  obtain ⟨k, -, hk⟩ := p.exists_log
  rw [hk]
  exact Nat.two_pow_pos k

lemma toNat_lt : p.toNat < 2 ^ 64 := p.size.toNat_lt

lemma dvd_two_pow : p.toNat ∣ 2 ^ 64 := by
  obtain ⟨k, hk, he⟩ := p.exists_log
  rw [he]
  exact Nat.pow_dvd_pow 2 (by omega)

/-- Masking a counter takes it modulo the size. -/
lemma and_mask (c : UInt64) : (c &&& p.mask).toNat = c.toNat % p.toNat := by
  obtain ⟨k, -, hk⟩ := p.exists_log
  have hpos := p.toNat_pos
  have hle : (1 : UInt64) ≤ p.size := by
    rw [UInt64.le_iff_toNat_le]
    exact hpos
  have hsub : p.mask.toNat = 2 ^ k - 1 := by
    rw [← hk, mask, UInt64.toNat_sub_of_le _ _ hle]
    rfl
  rw [UInt64.toNat_and, hsub, Nat.and_two_pow_sub_one_eq_mod, hk]

lemma and_mask_lt (c : UInt64) : (c &&& p.mask).toNat < p.toNat := by
  rw [p.and_mask]
  exact Nat.mod_lt _ p.toNat_pos

/-- The array position a 64-bit counter selects. -/
def slot (c : UInt64) : Fin p.toNat := ⟨(c &&& p.mask).toNat, p.and_mask_lt c⟩

@[simp] lemma slot_val (c : UInt64) : (p.slot c).val = c.toNat % p.toNat := p.and_mask c

/-- The wrap-around of the counter is invisible through the mask. -/
lemma slot_add_val (c d : UInt64) : (p.slot (c + d)).val = (c.toNat + d.toNat) % p.toNat := by
  rw [p.slot_val, UInt64.toNat_add, Nat.mod_mod_of_dvd _ p.dvd_two_pow]

/-- Counters less than one rotation apart select different positions. -/
lemma slot_add_inj {c d e : UInt64} (hd : d.toNat < p.toNat) (he : e.toNat < p.toNat) :
    p.slot (c + d) = p.slot (c + e) ↔ d = e := by
  constructor
  · intro h
    have hv := congrArg Fin.val h
    rw [p.slot_add_val, p.slot_add_val] at hv
    have hmod : d.toNat % p.toNat = e.toNat % p.toNat :=
      Nat.ModEq.add_left_cancel' c.toNat hv
    rw [Nat.mod_eq_of_lt hd, Nat.mod_eq_of_lt he] at hmod
    exact UInt64.toNat_inj.mp hmod
  · rintro rfl
    rfl

end PowerOfTwo

end ChronosX
