import Mathlib.Tactic.Common
import Mathlib.Logic.Function.Basic

/-!
# The end of a log in a ring

A log only grows. Its last entries are kept in an array whose positions are used again: entry `k`
is at `pos k`. The entries from `first` on are retained as long as an entry is written only to a
position that none of them uses.
-/

namespace RingLog

variable {ι α : Type} {pos : ℕ → ι} {buffer : ι → α} {log : List α} {first : ℕ}

/-- The entries from `first` on are in the array. -/
def Retains (pos : ℕ → ι) (buffer : ι → α) (log : List α) (first : ℕ) : Prop :=
  ∀ k a, first ≤ k → log[k]? = some a → buffer (pos k) = a

/-- Positions repeat after `n` entries at the earliest. -/
def Apart (pos : ℕ → ι) (n : ℕ) : Prop := ∀ j k, j < k → k < j + n → pos j ≠ pos k

/-- Positions in an array of length `n` that is used round and round. -/
lemma mod_apart (n : ℕ) : Apart (· % n) n := by
  intro j k hjk hk heq
  have hdvd : n ∣ k - j := Nat.dvd_of_mod_eq_zero (Nat.sub_mod_eq_zero_of_mod_eq heq.symm)
  have hle : n ≤ k - j := Nat.le_of_dvd (Nat.sub_pos_of_lt hjk) hdvd
  omega

lemma retains_nil (pos : ℕ → ι) (buffer : ι → α) (first : ℕ) : Retains pos buffer [] first := by
  intro k a _ hk
  simp at hk

/-- The position of the next entry is free while there are fewer than `n` entries. -/
lemma Retains.write [DecidableEq ι] {n : ℕ} (hpos : Apart pos n)
    (h : Retains pos buffer log first) (hroom : log.length < first + n) (a : α) :
    Retains pos (Function.update buffer (pos log.length) a) log first := by
  intro k b hfirst hk
  have hlt : k < log.length := (List.getElem?_eq_some_iff.mp hk).1
  rw [Function.update_of_ne (hpos k log.length hlt (by omega))]
  exact h k b hfirst hk

/-- An entry that is in its position may be added to the log. -/
lemma Retains.append (h : Retains pos buffer log first) {a : α}
    (ha : buffer (pos log.length) = a) : Retains pos buffer (log ++ [a]) first := by
  intro k b hfirst hk
  by_cases hlt : k < log.length
  · rw [List.getElem?_append_left hlt] at hk
    exact h k b hfirst hk
  · rw [List.getElem?_append_right (Nat.le_of_not_lt hlt), List.getElem?_singleton] at hk
    split_ifs at hk with hlast
    have heq : k = log.length := by omega
    rw [heq, ha]
    exact Option.some.inj hk

lemma Retains.mono (h : Retains pos buffer log first) {first' : ℕ} (hle : first ≤ first') :
    Retains pos buffer log first' := fun k a hk => h k a (Nat.le_trans hle hk)

end RingLog
