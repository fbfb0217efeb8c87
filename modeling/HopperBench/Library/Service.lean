import HopperBench.Library.Transactions

/-!
# Services

A service answers each operation on its state: it accepts it and moves to a next
state, or refuses it and stays.  One service simulates another when related
states give the same answer and stay related; related states then give the same
answers over any run.
-/

set_option autoImplicit false

namespace Service

open Transactions

variable {S T V Op : Type}

abbrev Step (S Op : Type) := S → Op → Option S

def after (step : Step S Op) (s : S) (op : Op) : S := (step s op).getD s

def answers (step : Step S Op) : S → List Op → List Bool
  | _, [] => []
  | s, op :: rest => (step s op).isSome :: answers step (after step s op) rest

def ifAccepted (step : Step S Op) (amount : Op → Nat) (s : S) (op : Op) : Nat :=
  if (step s op).isSome then amount op else 0

theorem after_of_none {step : Step S Op} {s : S} {op : Op} (refused : step s op = none) :
    after step s op = s := by
  rw [after, refused, Option.getD_none]

theorem after_of_some {step : Step S Op} {s t : S} {op : Op} (accepted : step s op = some t) :
    after step s op = t := by
  rw [after, accepted, Option.getD_some]

/-- Related states refuse together, or accept and stay related. -/
def Simulates (rel : S → T → Prop) (allowed : Op → Prop) (step : Step S Op) (step' : Step T Op) :
    Prop :=
  ∀ s t op, allowed op → rel s t → (step s op = none ∧ step' t op = none) ∨
    ∃ s' t', step s op = some s' ∧ step' t op = some t' ∧ rel s' t'

section Runs

variable {rel : S → T → Prop} {allowed : Op → Prop} {step : Step S Op} {step' : Step T Op}

theorem Simulates.after (simulates : Simulates rel allowed step step') {s : S} {t : T} {op : Op}
    (isAllowed : allowed op) (related : rel s t) :
    (step s op).isSome = (step' t op).isSome ∧
      rel (after step s op) (Service.after step' t op) := by
  rcases simulates s t op isAllowed related with
    ⟨refused, refused'⟩ | ⟨s', t', accepted, accepted', kept⟩
  · rw [after_of_none refused, after_of_none refused', refused, refused']
    exact ⟨rfl, related⟩
  · rw [after_of_some accepted, after_of_some accepted', accepted, accepted']
    exact ⟨rfl, kept⟩

/-- Over any run the answers agree and the states stay related. -/
theorem Simulates.run (simulates : Simulates rel allowed step step') :
    ∀ (ops : List Op) (s : S) (t : T), (∀ op ∈ ops, allowed op) → rel s t →
      answers step s ops = answers step' t ops ∧
        rel (runAll (Service.after step) s ops) (runAll (Service.after step') t ops) := by
  intro ops
  induction ops with
  | nil => intro s t _ related; exact ⟨rfl, related⟩
  | cons op rest ih =>
      intro s t allAllowed related
      obtain ⟨alike, kept⟩ := simulates.after (allAllowed op List.mem_cons_self) related
      obtain ⟨answered, final⟩ := ih (Service.after step s op) (Service.after step' t op)
        (fun later member => allAllowed later (List.mem_cons_of_mem op member)) kept
      exact ⟨by rw [answers, answers, alike, answered], final⟩

theorem Simulates.tally (simulates : Simulates rel allowed step step') (amount : Op → Nat) :
    ∀ (ops : List Op) (s : S) (t : T), (∀ op ∈ ops, allowed op) → rel s t →
      Transactions.tally (Service.after step) (ifAccepted step amount) s ops =
        Transactions.tally (Service.after step') (ifAccepted step' amount) t ops := by
  intro ops
  induction ops with
  | nil => intro s t _ _; rfl
  | cons op rest ih =>
      intro s t allAllowed related
      obtain ⟨alike, kept⟩ := simulates.after (allAllowed op List.mem_cons_self) related
      rw [Transactions.tally, Transactions.tally, ifAccepted, ifAccepted, alike,
        ih _ _ (fun later member => allAllowed later (List.mem_cons_of_mem op member)) kept]

end Runs

section Terms

variable {Op' : Type} (step : Step S Op) (terms : Op' → Op)

/-- A service asked in other terms. -/
def inTerms : Step S Op' := fun s op => step s (terms op)

theorem answers_inTerms : ∀ (ops : List Op') (s : S),
    answers (inTerms step terms) s ops = answers step s (ops.map terms) := by
  intro ops
  induction ops with
  | nil => intro s; rfl
  | cons op rest ih => intro s; exact congrArg _ (ih _)

theorem runAll_inTerms : ∀ (ops : List Op') (s : S),
    runAll (after (inTerms step terms)) s ops = runAll (after step) s (ops.map terms) := by
  intro ops
  induction ops with
  | nil => intro s; rfl
  | cons op rest ih => intro s; exact ih _

theorem tally_inTerms (amount : Op → Nat) : ∀ (ops : List Op') (s : S),
    Transactions.tally (after (inTerms step terms))
        (ifAccepted (inTerms step terms) fun op => amount (terms op)) s ops =
      Transactions.tally (after step) (ifAccepted step amount) s (ops.map terms) := by
  intro ops
  induction ops with
  | nil => intro s; rfl
  | cons op rest ih => intro s; exact congrArg _ (ih _)

end Terms

def answersTo (step : Step S Op) (own : Op → Bool) : S → List Op → List Bool
  | _, [] => []
  | s, op :: rest =>
      if own op then (step s op).isSome :: answersTo step own (after step s op) rest
      else answersTo step own (after step s op) rest

theorem Simulates.answersTo {rel : S → T → Prop} {allowed : Op → Prop} {step : Step S Op}
    {step' : Step T Op} (simulates : Simulates rel allowed step step') (own : Op → Bool) :
    ∀ (ops : List Op) (s : S) (t : T), (∀ op ∈ ops, allowed op) → rel s t →
      Service.answersTo step own s ops = Service.answersTo step' own t ops := by
  intro ops
  induction ops with
  | nil => intro s t _ _; rfl
  | cons op rest ih =>
      intro s t allAllowed related
      obtain ⟨alike, kept⟩ := simulates.after (allAllowed op List.mem_cons_self) related
      rw [Service.answersTo, Service.answersTo, alike,
        ih _ _ (fun later member => allAllowed later (List.mem_cons_of_mem op member)) kept]

theorem answersTo_inTerms {Op' : Type} (step : Step S Op) (terms : Op' → Op) (own : Op → Bool) :
    ∀ (ops : List Op') (s : S), answersTo (inTerms step terms) (fun op => own (terms op)) s ops =
      answersTo step own s (ops.map terms) := by
  intro ops
  induction ops with
  | nil => intro s; rfl
  | cons op rest ih =>
      intro s
      have next : after (inTerms step terms) s op = after step s (terms op) := rfl
      rw [List.map_cons, answersTo, answersTo, next, ih]
      rfl

/-- Where the operations that are not one's own leave a part of the state alone,
and the answers to one's own and the next value of the part depend on nothing
else, a run without them gives the same answers and ends in the same part. -/
theorem run_alone {step : Step S Op} (view : S → V) {own : Op → Bool} {allowed : Op → Prop}
    (others : ∀ s op, allowed op → own op = false → view (after step s op) = view s)
    (locally : ∀ s t op, allowed op → own op = true → view s = view t →
      (step s op).isSome = (step t op).isSome ∧
        view (after step s op) = view (after step t op)) :
    ∀ (ops : List Op) (s t : S), (∀ op ∈ ops, allowed op) → view s = view t →
      answersTo step own s ops = answersTo step own t (ops.filter own) ∧
        view (runAll (after step) s ops) = view (runAll (after step) t (ops.filter own)) := by
  intro ops
  induction ops with
  | nil => intro s t _ alike; exact ⟨rfl, alike⟩
  | cons op rest ih =>
      intro s t allAllowed alike
      have headAllowed := allAllowed op List.mem_cons_self
      have restAllowed : ∀ later ∈ rest, allowed later :=
        fun later member => allAllowed later (List.mem_cons_of_mem op member)
      cases mine : own op with
      | true =>
          obtain ⟨answered, next⟩ := locally s t op headAllowed mine alike
          obtain ⟨later, final⟩ := ih _ _ restAllowed next
          rw [List.filter_cons_of_pos mine, answersTo, answersTo, if_pos mine, if_pos mine,
            answered, later]
          exact ⟨rfl, final⟩
      | false =>
          rw [List.filter_cons_of_neg (by rw [mine]; exact Bool.false_ne_true), answersTo,
            if_neg (by rw [mine]; exact Bool.false_ne_true)]
          exact ih _ _ restAllowed ((others s op headAllowed mine).trans alike)

end Service
