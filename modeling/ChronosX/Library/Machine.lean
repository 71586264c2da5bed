import Mathlib.Tactic.Common

/-!
# Machines that answer calls

A machine answers each call with a reply and a new state. A machine whose calls commute with an
abstraction of its state gives the replies of the abstract machine.
-/

namespace Machine

variable {S T C R : Type*}

/-- The replies to a sequence of calls, and the state afterwards. -/
def run (step : S → C → R × S) : S → List C → List R × S
  | s, []            => ([], s)
  | s, call :: calls =>
    let answer := step s call
    let later := run step answer.2 calls
    (answer.1 :: later.1, later.2)

variable {step : S → C → R × S}

/-- Calls that commute with an abstraction of the state are answered as by the abstract machine. -/
lemma run_simulates {step' : T → C → R × T} (abs : S → T)
    (h : ∀ s call, step' (abs s) call = ((step s call).1, abs (step s call).2)) (s : S)
    (calls : List C) :
    run step' (abs s) calls = ((run step s calls).1, abs (run step s calls).2) := by
  induction calls generalizing s with
  | nil => rfl
  | cons call calls ih =>
    simp only [run, h, ih]

end Machine
