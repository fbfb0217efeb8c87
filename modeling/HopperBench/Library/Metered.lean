import HopperBench.Library.StoppingRun

/-!
# Runs on a meter

A run that pays for what it does out of a meter and halts when the meter is
empty, and that leaves lines in a log.  A run has a *bill* at a state when, from
every meter over that state, it pays the same units and ends in the same way, or
is exhausted before; what it logs may show the meter.  Bills compose: the bill of
a sequence is the sum of the bills of its parts.
-/

set_option autoImplicit false

namespace Metered

open StoppingRun

variable {S L E A B : Type}

structure Meter (S L : Type) where
  state : S
  remaining : Nat
  lines : List L

/-- A run is stopped by its program, or by the meter. -/
inductive Halt (E : Type) where
  | stopped (e : E)
  | exhausted
deriving DecidableEq

abbrev Run (S L E A : Type) := Exec (Meter S L) (Halt E) A

def spend (n : Nat) : Run S L E Unit := fun m =>
  if n ≤ m.remaining then (.ok (), ⟨m.state, m.remaining - n, m.lines⟩)
  else (.error .exhausted, ⟨m.state, 0, m.lines⟩)

def log (lines : List L) : Run S L E Unit :=
  Exec.modify fun m => ⟨m.state, m.remaining, m.lines ++ lines⟩

/-- Log what is left in the meter. -/
def report (render : Nat → L) : Run S L E Unit :=
  Exec.modify fun m => ⟨m.state, m.remaining, m.lines ++ [render m.remaining]⟩

def ended : Except E A → Except (Halt E) A
  | .ok a => .ok a
  | .error e => .error (.stopped e)

def uncharged (x : Exec S E A) : Run S L E A := fun m =>
  (ended (x.run m.state).1, ⟨(x.run m.state).2, m.remaining, m.lines⟩)

@[simp] theorem ended_eq_ok {r : Except E A} {a : A} : ended r = .ok a ↔ r = .ok a := by
  cases r <;> simp [ended]

theorem spend_eq_ok {n : Nat} {m t : Meter S L} {u : Unit} :
    (spend n : Run S L E Unit).run m = (.ok u, t) ↔
      n ≤ m.remaining ∧ t = ⟨m.state, m.remaining - n, m.lines⟩ := by
  unfold Exec.run spend
  by_cases enough : n ≤ m.remaining <;> simp [enough, eq_comm]

theorem log_eq_ok {lines : List L} {m t : Meter S L} {u : Unit} :
    (log lines : Run S L E Unit).run m = (.ok u, t) ↔
      t = ⟨m.state, m.remaining, m.lines ++ lines⟩ := by
  simp [log, eq_comm]

theorem report_eq_ok {render : Nat → L} {m t : Meter S L} {u : Unit} :
    (report render : Run S L E Unit).run m = (.ok u, t) ↔
      t = ⟨m.state, m.remaining, m.lines ++ [render m.remaining]⟩ := by
  simp [report, eq_comm]

theorem uncharged_eq_ok {x : Exec S E A} {m t : Meter S L} {a : A} :
    (uncharged x).run m = (.ok a, t) ↔
      ∃ s, x.run m.state = (.ok a, s) ∧ t = ⟨s, m.remaining, m.lines⟩ := by
  change (ended (x.run m.state).1, Meter.mk (x.run m.state).2 m.remaining m.lines) = _ ↔ _
  rcases x.run m.state with ⟨r, s⟩
  simp only [Prod.mk.injEq, ended_eq_ok]
  constructor
  · intro given
    exact ⟨s, ⟨given.1, rfl⟩, given.2.symm⟩
  · rintro ⟨_, ⟨returned, rfl⟩, rfl⟩
    exact ⟨returned, rfl⟩

/-! ## Bills -/

/-- How a run ends from one state, what it pays, and what it logs when it starts
with a given number of units. -/
structure Bill (S L E A : Type) where
  result : Except E A
  state : S
  units : Nat
  lines : Nat → List L

structure Bills (x : Run S L E A) (s : S) (bill : Bill S L E A) : Prop where
  paid : ∀ n lines, bill.units ≤ n → x.run ⟨s, n, lines⟩ =
    (ended bill.result, ⟨bill.state, n - bill.units, lines ++ bill.lines n⟩)
  unpaid : ∀ n lines, n < bill.units → ∃ m, x.run ⟨s, n, lines⟩ = (.error .exhausted, m)

section Rules

variable {x : Run S L E A} {k : A → Run S L E B} {s : S}

theorem bills_pure (a : A) (s : S) :
    Bills (pure a : Run S L E A) s ⟨.ok a, s, 0, fun _ => []⟩ where
  paid := by
    intro n lines _
    rw [List.append_nil, Nat.sub_zero]
    rfl
  unpaid := fun _ _ impossible => absurd impossible (Nat.not_lt_zero _)

theorem bills_spend (n : Nat) (s : S) :
    Bills (spend n : Run S L E Unit) s ⟨.ok (), s, n, fun _ => []⟩ where
  paid := by
    intro _ _ enough
    rw [List.append_nil]
    exact spend_eq_ok.mpr ⟨enough, rfl⟩
  unpaid := by
    intro left lines short
    exact ⟨⟨s, 0, lines⟩, if_neg (Nat.not_le.mpr short)⟩

theorem bills_log (lines : List L) (s : S) :
    Bills (log lines : Run S L E Unit) s ⟨.ok (), s, 0, fun _ => lines⟩ where
  paid := fun _ _ _ => rfl
  unpaid := fun _ _ impossible => absurd impossible (Nat.not_lt_zero _)

theorem bills_report (render : Nat → L) (s : S) :
    Bills (report render : Run S L E Unit) s ⟨.ok (), s, 0, fun n => [render n]⟩ where
  paid := fun _ _ _ => rfl
  unpaid := fun _ _ impossible => absurd impossible (Nat.not_lt_zero _)

theorem bills_uncharged (x : Exec S E A) (s : S) :
    Bills (uncharged x : Run S L E A) s ⟨(x.run s).1, (x.run s).2, 0, fun _ => []⟩ where
  paid := by
    intro n lines _
    rw [List.append_nil]
    rfl
  unpaid := fun _ _ impossible => absurd impossible (Nat.not_lt_zero _)

theorem Bills.bind_error {bill : Bill S L E A} {e : E} (first : Bills x s bill)
    (stopped : bill.result = .error e) :
    Bills (x >>= k) s ⟨.error e, bill.state, bill.units, bill.lines⟩ where
  paid := by
    intro n lines enough
    have ran := first.paid n lines enough
    rw [stopped] at ran
    exact Exec.run_bind_error ran
  unpaid := by
    intro n lines short
    obtain ⟨m, exhausted⟩ := first.unpaid n lines short
    exact ⟨m, Exec.run_bind_error exhausted⟩

theorem Bills.bind_ok {bill : Bill S L E A} {a : A} {rest : Bill S L E B} (first : Bills x s bill)
    (returned : bill.result = .ok a) (then_ : Bills (k a) bill.state rest) :
    Bills (x >>= k) s
      ⟨rest.result, rest.state, bill.units + rest.units,
        fun n => bill.lines n ++ rest.lines (n - bill.units)⟩ where
  paid := by
    intro n lines enough
    have both : bill.units + rest.units ≤ n := enough
    have ran := first.paid n lines (by omega)
    rw [returned] at ran
    rw [Exec.run_bind_ok ran, then_.paid _ _ (by omega), List.append_assoc, Nat.sub_sub]
  unpaid := by
    intro n lines short
    have notBoth : n < bill.units + rest.units := short
    rcases Nat.lt_or_ge n bill.units with early | enough
    · obtain ⟨m, exhausted⟩ := first.unpaid n lines early
      exact ⟨m, Exec.run_bind_error exhausted⟩
    · have ran := first.paid n lines enough
      rw [returned] at ran
      obtain ⟨m, exhausted⟩ := then_.unpaid (n - bill.units) (lines ++ bill.lines n) (by omega)
      exact ⟨m, (Exec.run_bind_ok ran).trans exhausted⟩

/-- A run that returned has paid its bill. -/
theorem Bills.of_ok {bill : Bill S L E A} {n : Nat} {lines : List L} {a : A} {t : Meter S L}
    (bills : Bills x s bill) (ok : x.run ⟨s, n, lines⟩ = (.ok a, t)) :
    bill.result = .ok a ∧ bill.units ≤ n ∧
      t = ⟨bill.state, n - bill.units, lines ++ bill.lines n⟩ := by
  rcases Nat.lt_or_ge n bill.units with short | enough
  · obtain ⟨m, exhausted⟩ := bills.unpaid n lines short
    rw [exhausted] at ok
    cases ok
  · rw [bills.paid n lines enough] at ok
    cases result : bill.result with
    | error e =>
        rw [result] at ok
        cases ok
    | ok a' =>
        rw [result] at ok
        cases ok
        exact ⟨rfl, enough, rfl⟩

/-- A run has a bill at every state, and each line it may log is one of `Q`. -/
def Billed (Q : L → Prop) (x : Run S L E A) : Prop :=
  ∀ s, ∃ bill, Bills x s bill ∧ ∀ n, ∀ line ∈ bill.lines n, Q line

variable {Q : L → Prop}

theorem billed_pure (a : A) : Billed Q (pure a : Run S L E A) :=
  fun s => ⟨_, bills_pure a s, fun _ _ impossible => absurd impossible List.not_mem_nil⟩

theorem billed_spend (n : Nat) : Billed Q (spend n : Run S L E Unit) :=
  fun s => ⟨_, bills_spend n s, fun _ _ impossible => absurd impossible List.not_mem_nil⟩

theorem billed_log {lines : List L} (each : ∀ line ∈ lines, Q line) :
    Billed Q (log lines : Run S L E Unit) := fun s => ⟨_, bills_log lines s, fun _ => each⟩

theorem billed_report {render : Nat → L} (each : ∀ n, Q (render n)) :
    Billed Q (report render : Run S L E Unit) := by
  intro s
  refine ⟨_, bills_report render s, ?_⟩
  intro n line member
  rw [List.mem_singleton.mp member]
  exact each n

theorem billed_uncharged (x : Exec S E A) : Billed Q (uncharged x : Run S L E A) :=
  fun s => ⟨_, bills_uncharged x s, fun _ _ impossible => absurd impossible List.not_mem_nil⟩

theorem Billed.bind (first : Billed Q x) (rest : ∀ a, Billed Q (k a)) : Billed Q (x >>= k) := by
  intro s
  obtain ⟨bill, bills, each⟩ := first s
  cases result : bill.result with
  | error e => exact ⟨_, bills.bind_error result, each⟩
  | ok a =>
      obtain ⟨bill', bills', each'⟩ := rest a bill.state
      refine ⟨_, bills.bind_ok result bills', ?_⟩
      intro n line member
      rcases List.mem_append.mp member with early | late
      · exact each n line early
      · exact each' (n - bill.units) line late

theorem Billed.weaken {P : L → Prop} (billed : Billed Q x) (weaker : ∀ line, Q line → P line) :
    Billed P x := by
  intro s
  obtain ⟨bill, bills, each⟩ := billed s
  exact ⟨bill, bills, fun n line member => weaker line (each n line member)⟩

end Rules

/-! ## Where a run ends -/

/-- From the state `s`, however much is in the meter, the run ends in `P`. -/
def EndsIn (P : S → Prop) (s : S) (x : Run S L E A) : Prop :=
  ∀ n lines, x.Meets ⟨s, n, lines⟩ (fun _ t => P t.state) fun _ t => P t.state

/-- The run leaves the state alone, and what it returns is in `Q`. -/
def Looks (Q : A → Prop) (x : Run S L E A) : Prop :=
  ∀ m, x.Meets m (fun a t => t.state = m.state ∧ Q a) fun _ t => t.state = m.state

section Ends

variable {P : S → Prop} {s : S} {Q : A → Prop} {x : Run S L E A} {k : A → Run S L E B}

theorem EndsIn.after_look (looks : Looks Q x) (here : P s)
    (rest : ∀ a, Q a → EndsIn P s (k a)) : EndsIn P s (x >>= k) := by
  intro n lines
  rw [Exec.meets_bind]
  refine (looks ⟨s, n, lines⟩).mono ?_ ?_
  · rintro a ⟨_, n', lines'⟩ ⟨rfl, returned⟩
    exact rest a returned n' lines'
  · rintro _ ⟨_, n', lines'⟩ rfl
    exact here

theorem EndsIn.before (first : EndsIn P s x) (rest : ∀ a s', P s' → EndsIn P s' (k a)) :
    EndsIn P s (x >>= k) := by
  intro n lines
  rw [Exec.meets_bind]
  exact (first n lines).mono (fun a t ended => rest a t.state ended t.remaining t.lines)
    fun _ _ ended => ended

theorem EndsIn.after_gets {f : S → A} (rest : EndsIn P s (k (f s))) :
    EndsIn P s (uncharged (Exec.gets f) >>= k) := fun n lines => rest n lines

theorem Looks.endsIn (looks : Looks Q x) (here : P s) : EndsIn P s x := by
  intro n lines
  refine (looks ⟨s, n, lines⟩).mono ?_ ?_
  · rintro _ t ⟨same, -⟩
    rw [same]
    exact here
  · intro _ t same
    rw [same]
    exact here

theorem looks_pure {a : A} (returned : Q a) : Looks Q (pure a : Run S L E A) :=
  fun _ => ⟨rfl, returned⟩

theorem looks_spend (n : Nat) : Looks (fun _ => True) (spend n : Run S L E Unit) := by
  intro m
  unfold Exec.Meets Exec.run spend
  by_cases enough : n ≤ m.remaining <;> simp [enough]

theorem looks_log (lines : List L) :
    Looks (fun _ => True) (log lines : Run S L E Unit) :=
  fun _ => ⟨rfl, trivial⟩

theorem looks_report (render : Nat → L) :
    Looks (fun _ => True) (report render : Run S L E Unit) :=
  fun _ => ⟨rfl, trivial⟩

theorem Looks.bind {C : Type} {Q' : C → Prop} {l : A → Run S L E C} (first : Looks Q x)
    (rest : ∀ a, Q a → Looks Q' (l a)) : Looks Q' (x >>= l) := by
  intro m
  rw [Exec.meets_bind]
  refine (first m).mono ?_ fun _ _ same => same
  rintro a t ⟨same, returned⟩
  refine (rest a returned t).mono ?_ ?_
  · rintro _ _ ⟨later, holds⟩
    exact ⟨later.trans same, holds⟩
  · intro _ _ later
    exact later.trans same

theorem looks_uncharged {y : Exec S E A} (reads : y.Reads)
    (returns : ∀ s a t, y.run s = (.ok a, t) → Q a) : Looks Q (uncharged y : Run S L E A) := by
  intro m
  refine Exec.meets_iff.mpr ⟨?_, ?_⟩
  · intro a t ok
    obtain ⟨s, ran, rfl⟩ := uncharged_eq_ok.mp ok
    exact ⟨(reads m.state m.state rfl).good_of_ok ran, returns _ a s ran⟩
  · intro e t stopped
    have left : t = ⟨(y.run m.state).2, m.remaining, m.lines⟩ := (congrArg Prod.snd stopped).symm
    rw [left]
    rcases ended : y.run m.state with ⟨_ | a, s⟩
    · exact (reads m.state m.state rfl).bad_of_error ended
    · exact (reads m.state m.state rfl).good_of_ok ended

end Ends

/-! ## Forgetting the meter -/

/-- But for what it pays and logs, the run is `y`. -/
def Erases (x : Run S L E A) (y : Exec S E A) : Prop :=
  ∀ s, ∃ bill, Bills x s bill ∧ bill.result = (y.run s).1 ∧ bill.state = (y.run s).2

section Erases

variable {x : Run S L E A} {y : Exec S E A} {k : A → Run S L E B} {l : A → Exec S E B}

theorem erases_pure (a : A) : Erases (pure a : Run S L E A) (pure a) :=
  fun s => ⟨_, bills_pure a s, rfl, rfl⟩

theorem erases_spend (n : Nat) : Erases (spend n : Run S L E Unit) (pure ()) :=
  fun s => ⟨_, bills_spend n s, rfl, rfl⟩

theorem erases_log (lines : List L) : Erases (log lines : Run S L E Unit) (pure ()) :=
  fun s => ⟨_, bills_log lines s, rfl, rfl⟩

theorem erases_report (render : Nat → L) : Erases (report render : Run S L E Unit) (pure ()) :=
  fun s => ⟨_, bills_report render s, rfl, rfl⟩

theorem erases_uncharged (y : Exec S E A) : Erases (uncharged y : Run S L E A) y :=
  fun s => ⟨_, bills_uncharged y s, rfl, rfl⟩

theorem Erases.bind (first : Erases x y) (rest : ∀ a, Erases (k a) (l a)) :
    Erases (x >>= k) (y >>= l) := by
  intro s
  obtain ⟨bill, bills, result, state⟩ := first s
  rcases ended : y.run s with ⟨e | a, t⟩
  · rw [ended] at result state
    rw [Exec.run_bind_error ended]
    exact ⟨_, bills.bind_error result, rfl, state⟩
  · rw [ended] at result state
    obtain rfl : bill.state = t := state
    obtain ⟨bill', bills', result', state'⟩ := rest a bill.state
    rw [Exec.run_bind_ok ended]
    exact ⟨_, bills.bind_ok result bills', result', state'⟩

theorem Erases.congr {y' : Exec S E A} (erases : Erases x y) (same : ∀ s, y.run s = y'.run s) :
    Erases x y' := by
  intro s
  rw [← same s]
  exact erases s

theorem Erases.run_eq_ok {n : Nat} {lines : List L} {s : S} {a : A} {t : Meter S L}
    (erases : Erases x y) (ok : x.run ⟨s, n, lines⟩ = (.ok a, t)) :
    y.run s = (.ok a, t.state) := by
  obtain ⟨bill, bills, result, state⟩ := erases s
  obtain ⟨returned, -, rfl⟩ := bills.of_ok ok
  exact Prod.ext (result.symm.trans returned) state.symm

/-- On a meter that is full enough the run returns exactly when the unmetered run
does. -/
theorem Erases.returns_iff (erases : Erases x y) (s : S) :
    ∃ units, ∀ n lines a, units ≤ n →
      ((x.run ⟨s, n, lines⟩).1 = .ok a ↔ (y.run s).1 = .ok a) := by
  obtain ⟨bill, bills, result, -⟩ := erases s
  refine ⟨bill.units, ?_⟩
  intro n lines a enough
  rw [bills.paid n lines enough, ended_eq_ok, result]

end Erases

end Metered
