import Mathlib.Algebra.BigOperators.Group.Multiset.Basic
import Mathlib.Algebra.Order.BigOperators.Group.Finset
import Mathlib.Data.Multiset.Fintype

/-!
# Ledgers of owned items

Items are handed around under their names, and each item carries an owner tag. A ledger is the
multiset of the names in circulation, each entered with the tag it should carry. It agrees with
the tags when no name is entered twice and every entry's item carries the entry's tag. Moving an
item from one holder to the next retags one entry and leaves the names as they are
(`Agrees.retag`, `Kept.retag`); when the names are shared out over places, each is in one place, once
(`exists_unique_place`).
-/

namespace Ledger

variable {F K T : Type}

/-- The names entered with one tag. -/
def tagged (t : T) (names : Multiset K) : Multiset (K × T) := names.map fun k => (k, t)

@[simp] lemma tagged_zero (t : T) : tagged t (0 : Multiset K) = 0 := rfl

@[simp] lemma tagged_add (t : T) (m n : Multiset K) :
    tagged t (m + n) = tagged t m + tagged t n := Multiset.map_add _ _ _

@[simp] lemma tagged_cons (t : T) (k : K) (m : Multiset K) :
    tagged t (k ::ₘ m) = (k, t) ::ₘ tagged t m := Multiset.map_cons _ _ _

/-- The front of a list is entered apart from the rest. -/
lemma tagged_take_add_drop (t : T) (n : ℕ) (l : List K) :
    tagged t (l : Multiset K) =
      tagged t (l.take n : Multiset K) + tagged t (l.drop n : Multiset K) := by
  rw [← tagged_add, Multiset.coe_add, List.take_append_drop]

/-- One item of a list is entered apart from the rest. -/
lemma tagged_erase [DecidableEq K] (t : T) {k : K} {l : List K} (h : k ∈ l) :
    tagged t (l : Multiset K) = tagged t ([k] : Multiset K) + tagged t (l.erase k : Multiset K) := by
  rw [← tagged_add, Multiset.coe_add]
  exact congrArg (tagged t) (Multiset.coe_eq_coe.mpr (List.perm_cons_erase h))

@[simp] lemma map_fst_tagged (t : T) (m : Multiset K) : (tagged t m).map Prod.fst = m := by
  rw [tagged, Multiset.map_map]
  exact Multiset.map_id m

@[simp] lemma mem_tagged {t : T} {m : Multiset K} {e : K × T} :
    e ∈ tagged t m ↔ e.1 ∈ m ∧ e.2 = t := by
  obtain ⟨k, t'⟩ := e
  simp only [tagged, Multiset.mem_map, Prod.mk.injEq]
  constructor
  · rintro ⟨k', hk', rfl, rfl⟩
    exact ⟨hk', rfl⟩
  · rintro ⟨hk, rfl⟩
    exact ⟨k, hk, rfl, rfl⟩

/-- No name is entered twice, and every entry's item carries the entry's tag. -/
structure Agrees (name : F → K) (owner : F → T) (entries : Multiset (K × T)) : Prop where
  nodup : (entries.map Prod.fst).Nodup
  owned : ∀ e ∈ entries, ∃ i, e.1 = name i ∧ owner i = e.2

namespace Agrees

variable {name : F → K} {owner : F → T} {entries rest : Multiset (K × T)} {i : F} {t : T}

/-- Entering an item that is not in the ledger yet. -/
lemma enter [DecidableEq F] (h : Agrees name owner entries) (t : T)
    (hnew : name i ∉ entries.map Prod.fst) :
    Agrees name (Function.update owner i t) ((name i, t) ::ₘ entries) := by
  constructor
  · rw [Multiset.map_cons, Multiset.nodup_cons]
    exact ⟨hnew, h.nodup⟩
  · intro e he
    rcases Multiset.mem_cons.mp he with rfl | hentry
    · exact ⟨i, rfl, Function.update_self _ _ _⟩
    · obtain ⟨j, hj, howner⟩ := h.owned e hentry
      have hji : j ≠ i := by
        rintro rfl
        exact hnew (Multiset.mem_map.mpr ⟨e, hentry, hj⟩)
      exact ⟨j, hj, by rw [Function.update_of_ne hji, howner]⟩

/-- Retagging one item. -/
lemma retag [DecidableEq F] (h : Agrees name owner ((name i, t) ::ₘ rest)) (t' : T) :
    Agrees name (Function.update owner i t') ((name i, t') ::ₘ rest) := by
  have hnodup := h.nodup
  rw [Multiset.map_cons, Multiset.nodup_cons] at hnodup
  have hrest : Agrees name owner rest :=
    ⟨hnodup.2, fun e he => h.owned e (Multiset.mem_cons_of_mem he)⟩
  exact hrest.enter t' hnodup.1

end Agrees

/-- The ledger agrees with the tags and holds exactly the given names. -/
structure Kept (name : F → K) (owner : F → T) (names : Multiset K) (entries : Multiset (K × T)) :
    Prop where
  agrees : Agrees name owner entries
  names_eq : entries.map Prod.fst = names

namespace Kept

variable {name : F → K} {owner : F → T} {names : Multiset K} {entries rest : Multiset (K × T)}

lemma nodup (h : Kept name owner names entries) : names.Nodup := h.names_eq ▸ h.agrees.nodup

lemma owned {k : K} {t : T} (h : Kept name owner names ((k, t) ::ₘ rest)) :
    ∃ i, k = name i ∧ owner i = t :=
  h.agrees.owned (k, t) (Multiset.mem_cons_self _ _)

/-- Retagging one item keeps the names. -/
lemma retag [DecidableEq F] {i : F} {t : T} (h : Kept name owner names ((name i, t) ::ₘ rest))
    (t' : T) : Kept name (Function.update owner i t') names ((name i, t') ::ₘ rest) := by
  refine ⟨h.agrees.retag t', ?_⟩
  rw [← h.names_eq, Multiset.map_cons, Multiset.map_cons]

end Kept

/-- Names that are shared out over places and entered once are each in one place, once. -/
lemma exists_unique_place {ι : Type} [Fintype ι] [DecidableEq ι] [DecidableEq K]
    {contents : ι → Multiset K} {names : Multiset K} (htotal : ∑ place, contents place = names)
    (hnodup : names.Nodup) {k : K} (hk : k ∈ names) :
    ∃ place, (contents place).count k = 1 ∧
      ∀ other, other ≠ place → (contents other).count k = 0 := by
  have hcount : ∑ place, (contents place).count k = 1 := by
    rw [← Multiset.count_sum', htotal]
    exact Multiset.count_eq_one_of_mem hnodup hk
  obtain ⟨place, hplace⟩ : ∃ place, (contents place).count k ≠ 0 := by
    by_contra hnone
    rw [not_exists] at hnone
    rw [Finset.sum_eq_zero fun place _ => not_not.mp (hnone place)] at hcount
    exact Nat.zero_ne_one hcount
  rw [← Finset.add_sum_erase _ _ (Finset.mem_univ place)] at hcount
  refine ⟨place, by omega, fun other hother => ?_⟩
  have hrest : ∑ other ∈ Finset.univ.erase place, (contents other).count k = 0 := by omega
  exact Finset.sum_eq_zero_iff.mp hrest other (Finset.mem_erase.mpr ⟨hother, Finset.mem_univ _⟩)

end Ledger
