import HopperBench.Library.StoppingRun

/-!
# Checks in a fixed order

A contract lists conditions, each with the error of its violation, and the first
violated one decides.  A run refuses in order when it stops with exactly that
error and its state untouched.  The rules take one check off the front of the
run and one condition off the front of the list.
-/

set_option autoImplicit false

namespace OrderedChecks

open StoppingRun

variable {S E F A B : Type}

def firstViolated : List (Bool × F) → Option F
  | [] => none
  | (holds, e) :: rest => if holds then firstViolated rest else some e

theorem firstViolated_eq_none {conditions : List (Bool × F)} :
    firstViolated conditions = none ↔ ∀ condition ∈ conditions, condition.1 = true := by
  induction conditions with
  | nil => simp [firstViolated]
  | cons condition rest ih =>
      obtain ⟨_ | _, e⟩ := condition
      · simp [firstViolated]
      · simp [firstViolated, ih]

/-- Where a condition is violated, the run stops with the error of the first such
condition and has changed nothing. -/
def RefusesInOrder (raise : F → E) (x : Exec S E A) (s : S) (conditions : List (Bool × F)) :
    Prop :=
  ∀ e, firstViolated conditions = some e → x.run s = (.error (raise e), s)

section Rules

variable {raise : F → E} {x : Exec S E A} {s : S} {rest : List (Bool × F)} {c : Prop}
  [Decidable c] {e : F}

theorem refuses_nil : RefusesInOrder raise x s [] := by
  intro e none
  cases none

theorem refuses_cons (passes : c → RefusesInOrder raise x s rest)
    (stops : ¬c → x.run s = (.error (raise e), s)) :
    RefusesInOrder raise x s ((decide c, e) :: rest) := by
  intro e' first
  by_cases holds : c
  · rw [firstViolated, if_pos (decide_eq_true holds)] at first
    exact passes holds e' first
  · rw [firstViolated, if_neg (by simpa using holds)] at first
    cases first
    exact stops holds

theorem refuses_bind_ok {k : A → Exec S E B} {a : A} {conditions : List (Bool × F)}
    (first : x.run s = (.ok a, s)) (after : RefusesInOrder raise (k a) s conditions) :
    RefusesInOrder raise (x >>= k) s conditions := by
  intro e violated
  rw [Exec.run_bind_ok first]
  exact after e violated

theorem refuses_require {k : Unit → Exec S E B}
    (passes : c → RefusesInOrder raise (k ()) s rest) :
    RefusesInOrder raise (Exec.require c (raise e) >>= k) s ((decide c, e) :: rest) := by
  refine refuses_cons ?_ ?_
  · intro holds
    exact refuses_bind_ok (Exec.require_eq_ok.mpr ⟨holds, rfl⟩) (passes holds)
  · intro fails
    exact Exec.run_require_bind_error fails

theorem refuses_lift {r : Except E A} {k : A → Exec S E B}
    (passes : c → ∃ a, r = .ok a ∧ RefusesInOrder raise (k a) s rest)
    (fails : ¬c → r = .error (raise e)) :
    RefusesInOrder raise (Exec.lift r >>= k) s ((decide c, e) :: rest) := by
  refine refuses_cons ?_ ?_
  · intro holds
    obtain ⟨a, value, after⟩ := passes holds
    exact refuses_bind_ok (Exec.lift_eq_ok.mpr ⟨value, rfl⟩) after
  · intro violated
    exact Exec.run_lift_bind_error (fails violated)

end Rules

end OrderedChecks
