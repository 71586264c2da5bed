import Mathlib.Logic.Function.Basic
import Mathlib.Tactic.Common

/-!
# Hashes that mix in one byte at a time

A hash that folds its data into a state, byte after byte. If a step is injective both in the state
and in the byte, then data that differ in one byte lead to different states, and injective
finalizers keep these apart. Multiplication by an odd constant and a long xor-shift are injective.
-/

namespace ByteHash

open Function

variable {S B : Type*}

/-- The two lists differ in exactly one place. -/
def OneApart (bs bs' : List B) : Prop :=
  ∃ front b b' back, b ≠ b' ∧ bs = front ++ b :: back ∧ bs' = front ++ b' :: back

lemma OneApart.append_left {bs bs' : List B} (h : OneApart bs bs') (before : List B) :
    OneApart (before ++ bs) (before ++ bs') := by
  obtain ⟨front, b, b', back, hne, rfl, rfl⟩ := h
  exact ⟨before ++ front, b, b', back, hne, by simp, by simp⟩

/-- A step that loses neither the state nor the byte. -/
structure Mixing (step : S → B → S) : Prop where
  state : ∀ b, Injective (step · b)
  byte : ∀ s, Injective (step s)

lemma Mixing.foldl_injective {step : S → B → S} (h : Mixing step) (bs : List B) :
    Injective (bs.foldl step) := by
  induction bs with
  | nil => exact injective_id
  | cons b bs ih => exact ih.comp (h.state b)

/-- One different byte leads to a different state. -/
lemma Mixing.foldl_ne {step : S → B → S} (h : Mixing step) {bs bs' : List B}
    (hone : OneApart bs bs') (s : S) : bs.foldl step s ≠ bs'.foldl step s := by
  obtain ⟨front, b, b', back, hne, rfl, rfl⟩ := hone
  rw [List.foldl_append, List.foldl_append, List.foldl_cons, List.foldl_cons]
  intro heq
  exact hne (h.byte _ (h.foldl_injective back heq))

/-! ### Steps on 64-bit words -/

/-- A factor with an inverse. -/
lemma mul_injective {c d : UInt64} (h : c * d = 1) : Injective (· * c) := by
  intro x y heq
  have hcancel : x * c * d = y * c * d := congrArg (· * d) heq
  rwa [UInt64.mul_assoc, UInt64.mul_assoc, h, UInt64.mul_one, UInt64.mul_one] at hcancel

/-- A word that is shifted by half its width or more, and added to itself, is undone by doing the
same again. -/
lemma xorShift_xorShift {w k : ℕ} (h : w ≤ k + k) (x : BitVec w) :
    (x ^^^ (x >>> k)) ^^^ ((x ^^^ (x >>> k)) >>> k) = x := by
  apply BitVec.eq_of_getLsbD_eq
  intro i hi
  have hout : x.getLsbD (k + (k + i)) = false := BitVec.getLsbD_of_ge _ _ (by omega)
  simp [hout]

lemma xorShift_injective {k : UInt64} (hk : k.toNat < 64) (h : 64 ≤ k.toNat + k.toNat) :
    Injective fun x : UInt64 => x ^^^ (x >>> k) := by
  have hbits : ∀ x : UInt64, (x ^^^ (x >>> k)).toBitVec =
      x.toBitVec ^^^ (x.toBitVec >>> k.toNat) := by
    intro x
    have hmod : (k.toBitVec % 64).toNat = k.toNat := by
      rw [BitVec.toNat_umod]
      exact Nat.mod_eq_of_lt hk
    rw [UInt64.toBitVec_xor, UInt64.toBitVec_shiftRight, BitVec.ushiftRight_eq', hmod]
  intro x y heq
  have heq' := congrArg UInt64.toBitVec heq
  simp only [hbits] at heq'
  apply UInt64.toBitVec_inj.mp
  rw [← xorShift_xorShift h x.toBitVec, heq', xorShift_xorShift h y.toBitVec]

end ByteHash
