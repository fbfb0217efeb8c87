/-!
# Sequences of transactions

`runAll` runs one transaction after another and `tally` adds up an amount over
the same run.  An invariant of every step is an invariant of the run, and a
measure that every step moves by its credit and debit is moved by the tallies
of both over the run.
-/

set_option autoImplicit false

namespace Transactions

variable {State Item : Type}

def runAll (step : State → Item → State) : State → List Item → State
  | s, [] => s
  | s, item :: rest => runAll step (step s item) rest

def tally (step : State → Item → State) (amount : State → Item → Nat) :
    State → List Item → Nat
  | _, [] => 0
  | s, item :: rest => amount s item + tally step amount (step s item) rest

theorem runAll_invariant {step : State → Item → State} {allowed : Item → Prop}
    {inv : State → Prop}
    (preserves : ∀ s item, allowed item → inv s → inv (step s item)) :
    ∀ (items : List Item) (s : State), (∀ item ∈ items, allowed item) → inv s →
      inv (runAll step s items) := by
  intro items
  induction items with
  | nil => intro s _ start; exact start
  | cons item rest ih =>
      intro s allAllowed start
      have headAllowed : allowed item := allAllowed item (by simp)
      have restAllowed : ∀ other ∈ rest, allowed other := by
        intro other member
        exact allAllowed other (by simp [member])
      exact ih (step s item) restAllowed (preserves s item headAllowed start)

theorem runAll_measure {step : State → Item → State} {allowed : Item → Prop}
    {measure : State → Nat} {credit debit : State → Item → Nat}
    (moves : ∀ s item, allowed item →
      measure (step s item) + debit s item = measure s + credit s item) :
    ∀ (items : List Item) (s : State), (∀ item ∈ items, allowed item) →
      measure (runAll step s items) + tally step debit s items =
        measure s + tally step credit s items := by
  intro items
  induction items with
  | nil => intro s _; rfl
  | cons item rest ih =>
      intro s allAllowed
      have headMove := moves s item (allAllowed item (by simp))
      have restMove := ih (step s item) fun other member => allAllowed other (by simp [member])
      simp only [runAll, tally]
      omega

/-- A measure that no step lowers by more than its debit beyond its credit. -/
theorem runAll_measure_ge {step : State → Item → State} {allowed : Item → Prop}
    {measure : State → Nat} {credit debit : State → Item → Nat}
    (moves : ∀ s item, allowed item →
      measure s + credit s item ≤ measure (step s item) + debit s item) :
    ∀ (items : List Item) (s : State), (∀ item ∈ items, allowed item) →
      measure s + tally step credit s items ≤
        measure (runAll step s items) + tally step debit s items := by
  intro items
  induction items with
  | nil => intro s _; exact Nat.le_refl _
  | cons item rest ih =>
      intro s allAllowed
      have headMove := moves s item (allAllowed item (by simp))
      have restMove := ih (step s item) fun other member => allAllowed other (by simp [member])
      simp only [runAll, tally]
      omega

end Transactions
