import Mathlib.Tactic.Common
import Mathlib.Logic.Function.Basic

/-!
# Programs over a byte-addressed memory

A computation that loads and stores cells is a tree of its accesses. The same tree is run
against a memory, for its result and the memory it leaves, and traced, for the list of
addresses it touches. `Sat` is the specification of a program at one memory: every address
touched is allowed and the result and the final memory satisfy a postcondition.

Two facts hold of every program: it leaves the addresses it does not touch as they were
(`run_of_notMem_accesses`), and it cannot tell two memories apart that agree on the
addresses it touches (`run_congr`). Programs that keep to disjoint parts of the memory can
therefore be run in any order (`run_each`, `run_each_perm`).
-/

namespace Mem

/-- A program over addresses `A` and cells `V` that returns an `α`. -/
inductive Prog (A V α : Type) : Type where
  | ret : α → Prog A V α
  | load : A → (V → Prog A V α) → Prog A V α
  | store : A → V → Prog A V α → Prog A V α

variable {A V α β : Type}

namespace Prog

def bind : Prog A V α → (α → Prog A V β) → Prog A V β
  | ret a, f       => f a
  | load x k, f    => load x fun v => (k v).bind f
  | store x v k, f => store x v (k.bind f)

instance : Monad (Prog A V) where
  pure := ret
  bind := bind

end Prog

/-- Load one cell. -/
def read (x : A) : Prog A V V := .load x .ret

/-- Store one cell. -/
def write (x : A) (v : V) : Prog A V Unit := .store x v (.ret ())

/-! ### Running and tracing -/

section

variable [DecidableEq A]

/-- The result of a program and the memory it leaves. -/
def run : Prog A V α → (A → V) → α × (A → V)
  | .ret a, m       => (a, m)
  | .load x k, m    => run (k (m x)) m
  | .store x v k, m => run k (Function.update m x v)

/-- The addresses a program touches, in order. -/
def accesses : Prog A V α → (A → V) → List A
  | .ret _, _       => []
  | .load x k, m    => x :: accesses (k (m x)) m
  | .store x v k, m => x :: accesses k (Function.update m x v)

@[simp] lemma run_pure (a : α) (m : A → V) : run (pure a : Prog A V α) m = (a, m) := rfl

@[simp] lemma accesses_pure (a : α) (m : A → V) : accesses (pure a : Prog A V α) m = [] := rfl

@[simp] lemma run_read (x : A) (m : A → V) : run (read x) m = (m x, m) := rfl

@[simp] lemma accesses_read (x : A) (m : A → V) : accesses (read x) m = [x] := rfl

@[simp] lemma run_write (x : A) (v : V) (m : A → V) :
    run (write x v) m = ((), Function.update m x v) := rfl

@[simp] lemma accesses_write (x : A) (v : V) (m : A → V) : accesses (write x v) m = [x] := rfl

@[simp] lemma run_bind (p : Prog A V α) (f : α → Prog A V β) (m : A → V) :
    run (p >>= f) m = run (f (run p m).1) (run p m).2 := by
  induction p generalizing m with
  | ret a => rfl
  | load x k ih => exact ih (m x) m
  | store x v k ih => exact ih (Function.update m x v)

@[simp] lemma accesses_bind (p : Prog A V α) (f : α → Prog A V β) (m : A → V) :
    accesses (p >>= f) m = accesses p m ++ accesses (f (run p m).1) (run p m).2 := by
  induction p generalizing m with
  | ret a => rfl
  | load x k ih => exact congrArg (x :: ·) (ih (m x) m)
  | store x v k ih => exact congrArg (x :: ·) (ih (Function.update m x v))

/-! ### Locality -/

/-- A program leaves alone every address it does not touch. -/
lemma run_of_notMem_accesses (p : Prog A V α) (m : A → V) {y : A} (hy : y ∉ accesses p m) :
    (run p m).2 y = m y := by
  induction p generalizing m with
  | ret a => rfl
  | load x k ih =>
    simp only [accesses, List.mem_cons, not_or] at hy
    exact ih (m x) m hy.2
  | store x v k ih =>
    simp only [accesses, List.mem_cons, not_or] at hy
    rw [run, ih _ hy.2, Function.update_of_ne hy.1]

/-- Memories that agree on the touched addresses give the same trace, the same result, and
final memories that agree wherever the initial ones did. -/
lemma run_congr (p : Prog A V α) {m m' : A → V} (h : ∀ x ∈ accesses p m, m' x = m x) :
    accesses p m' = accesses p m ∧ (run p m').1 = (run p m).1 ∧
      ∀ y, m' y = m y → (run p m').2 y = (run p m).2 y := by
  induction p generalizing m m' with
  | ret a => exact ⟨rfl, rfl, fun _ hy => hy⟩
  | load x k ih =>
    simp only [accesses, List.mem_cons, forall_eq_or_imp] at h
    simp only [accesses, run, h.1]
    obtain ⟨htrace, hres, hmem⟩ := ih (m x) h.2
    exact ⟨by rw [htrace], hres, hmem⟩
  | store x v k ih =>
    simp only [accesses, List.mem_cons, forall_eq_or_imp] at h
    have hupd : ∀ y, m' y = m y → Function.update m' x v y = Function.update m x v y := by
      intro y hy
      by_cases hxy : y = x
      · subst hxy; simp
      · simp [Function.update_of_ne hxy, hy]
    obtain ⟨htrace, hres, hmem⟩ := ih (fun y hy => hupd y (h.2 y hy))
    exact ⟨by simp only [accesses, htrace], hres, fun y hy => hmem y (hupd y hy)⟩

/-! ### Specifications -/

/-- From memory `m`, `p` touches only addresses in `ok` and ends in a result and a memory
that satisfy `Q`. -/
structure Sat (ok : A → Prop) (p : Prog A V α) (m : A → V) (Q : α → (A → V) → Prop) : Prop where
  accesses_ok : ∀ x ∈ accesses p m, ok x
  post : Q (run p m).1 (run p m).2

variable {ok : A → Prop} {m : A → V} {Q : α → (A → V) → Prop}

namespace Sat

lemma pure {a : α} (h : Q a m) : Sat ok (pure a : Prog A V α) m Q :=
  ⟨by simp, h⟩

lemma read {x : A} {Q : V → (A → V) → Prop} (hx : ok x) (h : Q (m x) m) :
    Sat ok (read x) m Q :=
  ⟨by simpa using hx, h⟩

lemma write {x : A} {v : V} {Q : Unit → (A → V) → Prop} (hx : ok x)
    (h : Q () (Function.update m x v)) : Sat ok (write x v) m Q :=
  ⟨by simpa using hx, h⟩

/-- Sequencing: the first program's postcondition is the second's precondition. -/
lemma bind {p : Prog A V α} {f : α → Prog A V β} {R : β → (A → V) → Prop}
    (hp : Sat ok p m Q) (hf : ∀ a m', Q a m' → Sat ok (f a) m' R) : Sat ok (p >>= f) m R := by
  have h := hf _ _ hp.post
  refine ⟨fun x hx => ?_, ?_⟩
  · rw [accesses_bind, List.mem_append] at hx
    exact hx.elim (hp.accesses_ok x) (h.accesses_ok x)
  · rw [run_bind]
    exact h.post

lemma mono {p : Prog A V α} {ok' : A → Prop} {R : α → (A → V) → Prop} (hp : Sat ok p m Q)
    (hok : ∀ x, ok x → ok' x) (hQ : ∀ a m', Q a m' → R a m') : Sat ok' p m R :=
  ⟨fun x hx => hok x (hp.accesses_ok x hx), hQ _ _ hp.post⟩

lemma ite {c : Prop} [Decidable c] {p q : Prog A V α} (hp : c → Sat ok p m Q)
    (hq : ¬c → Sat ok q m Q) : Sat ok (if c then p else q) m Q := by
  split
  · exact hp ‹_›
  · exact hq ‹_›

end Sat

/-! ### Programs on disjoint parts of the memory -/

/-- Run one program for each index, one after another. -/
def each {ι : Type} (p : ι → Prog A V α) : List ι → Prog A V (List α)
  | [] => return []
  | i :: l => do
    let a ← p i
    let rest ← each p l
    return a :: rest

section

variable {ι : Type} {p : ι → Prog A V α} {own : ι → A → Prop} {l l' : List ι}

/-- Programs that each keep to their own addresses do not notice one another: each gives the
result it gives alone and leaves its own addresses as it leaves them alone. -/
lemma run_each (hown : ∀ i m, ∀ x ∈ accesses (p i) m, own i x)
    (hl : l.Pairwise fun i j => ∀ x, own i x → ¬ own j x) (m : A → V) :
    (run (each p l) m).1 = l.map (fun i => (run (p i) m).1) ∧
    (∀ i ∈ l, ∀ x, own i x → (run (each p l) m).2 x = (run (p i) m).2 x) ∧
    ∀ x, (∀ i ∈ l, ¬ own i x) → (run (each p l) m).2 x = m x := by
  induction l generalizing m with
  | nil => exact ⟨rfl, by simp, fun _ _ => rfl⟩
  | cons i l ih =>
    obtain ⟨hfirst, hrest⟩ := List.pairwise_cons.mp hl
    obtain ⟨hres, hmine, hothers⟩ := ih hrest (run (p i) m).2
    -- the first program leaves alone what it does not own
    have hkeep : ∀ x, ¬ own i x → (run (p i) m).2 x = m x := fun x hx =>
      run_of_notMem_accesses _ _ fun hmem => hx (hown i m x hmem)
    have hsame : ∀ j ∈ l, (run (p j) (run (p i) m).2).1 = (run (p j) m).1 ∧
        ∀ x, own j x → (run (p j) (run (p i) m).2).2 x = (run (p j) m).2 x := by
      intro j hj
      have hj' : ∀ x, own j x → (run (p i) m).2 x = m x := fun x hx =>
        hkeep x fun hi => hfirst j hj x hi hx
      obtain ⟨-, hval, hmem⟩ := run_congr (p j) fun x hx => hj' x (hown j m x hx)
      exact ⟨hval, fun x hx => hmem x (hj' x hx)⟩
    simp only [each, run_bind, run_pure, List.map_cons]
    refine ⟨?_, ?_, ?_⟩
    · rw [hres]
      exact congrArg _ (List.map_congr_left fun j hj => (hsame j hj).1)
    · intro j hj x hx
      rcases List.mem_cons.mp hj with rfl | hj
      · exact hothers x fun k hk hk' => hfirst k hk x hx hk'
      · rw [hmine j hj x hx, (hsame j hj).2 x hx]
    · intro x hx
      rw [List.forall_mem_cons] at hx
      rw [hothers x hx.2, hkeep x hx.1]

/-- The order in which such programs run does not matter to the memory. -/
lemma run_each_perm (hown : ∀ i m, ∀ x ∈ accesses (p i) m, own i x)
    (hl : l.Pairwise fun i j => ∀ x, own i x → ¬ own j x)
    (hl' : l'.Pairwise fun i j => ∀ x, own i x → ¬ own j x) (hperm : l.Perm l') (m : A → V) :
    (run (each p l') m).2 = (run (each p l) m).2 := by
  obtain ⟨-, hmine, hothers⟩ := run_each hown hl m
  obtain ⟨-, hmine', hothers'⟩ := run_each hown hl' m
  funext x
  by_cases hx : ∃ i ∈ l, own i x
  · obtain ⟨i, hi, hix⟩ := hx
    rw [hmine i hi x hix, hmine' i (hperm.mem_iff.mp hi) x hix]
  · simp only [not_exists, not_and] at hx
    rw [hothers x hx, hothers' x fun i hi => hx i (hperm.mem_iff.mpr hi)]

end

end

end Mem
