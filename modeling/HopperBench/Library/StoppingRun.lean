/-!
# Runs that may stop

A run reads and replaces a state and then either returns a value or stops with
a reason.  The state reached at a stop is kept, so a caller can still see what
was written before it.  The second half gives the rules of reasoning: what a
successful run says about its parts, a two-sided postcondition (`Meets`), the
invariant rule of a counting loop, runs that stop without a trace or only for
given reasons, and agreement of two runs in lockstep.
-/

set_option autoImplicit false

namespace StoppingRun

/-- A computation over state `S` that returns an `A` or stops with an `E`. -/
def Exec (S E A : Type) : Type := S → Except E A × S

namespace Exec

variable {S E A B : Type}

def run (x : Exec S E A) (s : S) : Except E A × S := x s

def ret (a : A) : Exec S E A := fun s => (.ok a, s)

def stop (e : E) : Exec S E A := fun s => (.error e, s)

def andThen (x : Exec S E A) (k : A → Exec S E B) : Exec S E B := fun s =>
  match x.run s with
  | (.ok a, t) => (k a).run t
  | (.error e, t) => (.error e, t)

instance : Monad (Exec S E) where
  pure := ret
  bind := andThen

def lift (r : Except E A) : Exec S E A := fun s => (r, s)

def require (c : Prop) [Decidable c] (e : E) : Exec S E Unit :=
  if c then ret () else stop e

def gets (f : S → A) : Exec S E A := fun s => (.ok (f s), s)

def modify (f : S → S) : Exec S E Unit := fun s => (.ok (), f s)

/-- `while i < bound { a = step i a; i += 1 }`, where the first argument counts
the `bound - i` rounds that are left. -/
def countUp (step : Nat → A → Exec S E A) : Nat → Nat → A → Exec S E A
  | 0, _, a => pure a
  | left + 1, i, a => do
      let next ← step i a
      countUp step left (i + 1) next

/-! ## Running the pieces -/

@[simp] theorem run_pure (a : A) (s : S) : (pure a : Exec S E A).run s = (.ok a, s) := rfl

@[simp] theorem run_stop (e : E) (s : S) : (stop e : Exec S E A).run s = (.error e, s) := rfl

@[simp] theorem run_lift (r : Except E A) (s : S) : (lift r : Exec S E A).run s = (r, s) := rfl

@[simp] theorem run_gets (f : S → A) (s : S) :
    (gets f : Exec S E A).run s = (.ok (f s), s) := rfl

@[simp] theorem run_modify (f : S → S) (s : S) :
    (modify f : Exec S E Unit).run s = (.ok (), f s) := rfl

theorem run_bind (x : Exec S E A) (k : A → Exec S E B) (s : S) :
    (x >>= k).run s =
      match x.run s with
      | (.ok a, t) => (k a).run t
      | (.error e, t) => (.error e, t) := rfl

theorem run_bind_ok {x : Exec S E A} {k : A → Exec S E B} {s t : S} {a : A}
    (first : x.run s = (.ok a, t)) : (x >>= k).run s = (k a).run t := by
  rw [run_bind, first]

theorem run_bind_error {x : Exec S E A} {k : A → Exec S E B} {s t : S} {e : E}
    (first : x.run s = (.error e, t)) : (x >>= k).run s = (.error e, t) := by
  rw [run_bind, first]

theorem bind_bind {C : Type} (x : Exec S E A) (k : A → Exec S E B) (l : B → Exec S E C) :
    (x >>= k) >>= l = x >>= fun a => k a >>= l := by
  funext s
  change ((x >>= k) >>= l).run s = (x >>= fun a => k a >>= l).run s
  rw [run_bind, run_bind, run_bind]
  rcases x.run s with ⟨_ | a, t⟩ <;> rfl

theorem run_require (c : Prop) [Decidable c] (e : E) (s : S) :
    (require c e : Exec S E Unit).run s = (if c then .ok () else .error e, s) := by
  by_cases holds : c <;> simp [require, holds, run, ret, stop]

/-! ## What a successful run says -/

theorem bind_eq_ok {x : Exec S E A} {k : A → Exec S E B} {s u : S} {b : B} :
    (x >>= k).run s = (.ok b, u) ↔
      ∃ a t, x.run s = (.ok a, t) ∧ (k a).run t = (.ok b, u) := by
  rw [run_bind]
  rcases first : x.run s with ⟨_ | a, t⟩
  · simp
  · constructor
    · intro rest
      exact ⟨a, t, rfl, rest⟩
    · intro given
      obtain ⟨a', t', same, rest⟩ := given
      cases same
      exact rest

theorem require_eq_ok {c : Prop} [Decidable c] {e : E} {s t : S} {u : Unit} :
    (require c e : Exec S E Unit).run s = (.ok u, t) ↔ c ∧ s = t := by
  rw [run_require]
  by_cases holds : c <;> simp [holds]

theorem lift_eq_ok {r : Except E A} {s t : S} {a : A} :
    (lift r : Exec S E A).run s = (.ok a, t) ↔ r = .ok a ∧ s = t := by
  simp

/-! One rule for each part that only looks at the state, so that a successful run
reads as the list of what its parts found. -/

section Parts

variable {k : A → Exec S E B} {s u : S} {b : B}

theorem require_bind_eq_ok {c : Prop} [Decidable c] {e : E} {rest : Unit → Exec S E B} :
    (require c e >>= rest).run s = (.ok b, u) ↔ c ∧ (rest ()).run s = (.ok b, u) := by
  rw [run_bind, run_require]
  by_cases holds : c <;> simp [holds]

theorem lift_bind_eq_ok {r : Except E A} :
    (lift r >>= k).run s = (.ok b, u) ↔ ∃ a, r = .ok a ∧ (k a).run s = (.ok b, u) := by
  rw [run_bind]
  cases r <;> simp

theorem run_lift_bind_ok {r : Except E A} {a : A} (returned : r = .ok a) :
    (lift r >>= k).run s = (k a).run s := by
  rw [returned]
  rfl

theorem run_lift_bind_error {r : Except E A} {e : E} (failed : r = .error e) :
    (lift r >>= k).run s = (.error e, s) := by
  rw [failed]
  rfl

theorem run_require_bind {c : Prop} [Decidable c] {e : E} {rest : Unit → Exec S E B} (holds : c) :
    (require c e >>= rest).run s = (rest ()).run s := by
  rw [run_bind, run_require, if_pos holds]

theorem run_require_bind_error {c : Prop} [Decidable c] {e : E} {rest : Unit → Exec S E B}
    (fails : ¬c) : (require c e >>= rest).run s = (.error e, s) := by
  rw [run_bind, run_require, if_neg fails]

theorem run_gets_bind (f : S → A) : (gets f >>= k).run s = (k (f s)).run s := rfl

end Parts

theorem run_eq_of_fst {x : Exec S E A} {s : S} {r : Except E A} (result : (x.run s).1 = r) :
    x.run s = (r, (x.run s).2) := by
  rw [← result]

/-- When a run succeeds under `c` and only with the one state `t`. -/
theorem fst_eq_ok_iff {x : Exec S E A} {s t : S} {a : A} {c : Prop}
    (accepted : ∀ {u : S}, x.run s = (.ok a, u) ↔ c ∧ u = t) : (x.run s).1 = .ok a ↔ c := by
  constructor
  · intro ok
    exact (accepted.mp (run_eq_of_fst ok)).1
  · intro holds
    rw [accepted.mpr ⟨holds, rfl⟩]

/-! ## Two-sided postconditions -/

/-- The run from `s` ends in a `good` return or in a `bad` stop. -/
def Meets (x : Exec S E A) (s : S) (good : A → S → Prop) (bad : E → S → Prop) : Prop :=
  match x.run s with
  | (.ok a, t) => good a t
  | (.error e, t) => bad e t

section Rules

variable {good : A → S → Prop} {bad : E → S → Prop} {s : S}

theorem meets_iff {x : Exec S E A} :
    x.Meets s good bad ↔
      (∀ a t, x.run s = (.ok a, t) → good a t) ∧
      (∀ e t, x.run s = (.error e, t) → bad e t) := by
  unfold Meets
  rcases x.run s with ⟨_ | a, t⟩
  · simp
  · simp

theorem Meets.good_of_ok {x : Exec S E A} {a : A} {t : S} (meets : x.Meets s good bad)
    (ok : x.run s = (.ok a, t)) : good a t := (meets_iff.mp meets).1 a t ok

theorem Meets.bad_of_error {x : Exec S E A} {e : E} {t : S} (meets : x.Meets s good bad)
    (error : x.run s = (.error e, t)) : bad e t := (meets_iff.mp meets).2 e t error

theorem meets_of_ok {x : Exec S E A} (goods : ∀ a t, x.run s = (.ok a, t) → good a t) :
    x.Meets s good fun _ _ => True :=
  meets_iff.mpr ⟨goods, fun _ _ _ => trivial⟩

theorem Meets.mono {x : Exec S E A} {good' : A → S → Prop} {bad' : E → S → Prop}
    (meets : x.Meets s good bad) (goods : ∀ a t, good a t → good' a t)
    (bads : ∀ e t, bad e t → bad' e t) : x.Meets s good' bad' := by
  rw [meets_iff] at meets ⊢
  exact ⟨fun a t ok => goods a t (meets.1 a t ok), fun e t error => bads e t (meets.2 e t error)⟩

theorem Meets.congr {x y : Exec S E A} (meets : y.Meets s good bad)
    (same : x.run s = y.run s) : x.Meets s good bad := by
  unfold Meets
  rw [same]
  exact meets

theorem meets_of_error {x : Exec S E A} {e : E} {t : S} (stopped : x.run s = (.error e, t))
    (isBad : bad e t) : x.Meets s good bad := by
  unfold Meets
  rw [stopped]
  exact isBad

theorem meets_outcome {x : Exec S E A} {property : Except E A × S → Prop} :
    x.Meets s (fun a t => property (.ok a, t)) (fun e t => property (.error e, t)) ↔
      property (x.run s) := by
  unfold Meets
  rcases x.run s with ⟨_ | a, t⟩ <;> rfl

theorem meets_gets {f : S → A} : (gets f : Exec S E A).Meets s good bad ↔ good (f s) s := Iff.rfl

theorem meets_lift {r : Except E A} :
    (lift r : Exec S E A).Meets s good bad ↔
      (∀ a, r = .ok a → good a s) ∧ (∀ e, r = .error e → bad e s) := by
  cases r <;> simp [Meets]

theorem meets_require {c : Prop} [Decidable c] {e : E} {good : Unit → S → Prop} :
    (require c e : Exec S E Unit).Meets s good bad ↔ (c → good () s) ∧ (¬c → bad e s) := by
  unfold Meets
  rw [run_require]
  by_cases holds : c <;> simp [holds]

theorem meets_bind {x : Exec S E A} {k : A → Exec S E B} {good : B → S → Prop} :
    (x >>= k).Meets s good bad ↔ x.Meets s (fun a t => (k a).Meets t good bad) bad := by
  unfold Meets
  rw [run_bind]
  rcases x.run s with ⟨_ | a, t⟩ <;> rfl

/-- The invariant rule: what every round below the bound carries from `i` to
`i + 1`, the whole loop carries from its first index to its last. -/
theorem countUp_meets {step : Nat → A → Exec S E A} {inv : Nat → A → S → Prop} {bound : Nat}
    (round : ∀ i a t, i < bound → inv i a t → (step i a).Meets t (inv (i + 1)) bad) :
    ∀ (left i : Nat) (a : A) (t : S), i + left = bound → inv i a t →
      (countUp step left i a).Meets t (inv bound) bad := by
  intro left
  induction left with
  | zero =>
      intro i a t reached start
      have atBound : i = bound := by omega
      subst atBound
      exact start
  | succ left ih =>
      intro i a t reached start
      simp only [countUp]
      rw [meets_bind]
      refine (round i a t (by omega) start).mono ?_ (fun _ _ h => h)
      intro next u carried
      exact ih (i + 1) next u (by omega) carried

end Rules

/-! ## Runs that keep a property of the state -/

/-- Whether the run returns or stops, `P` still holds. -/
def Keeps (P : S → Prop) (x : Exec S E A) : Prop :=
  ∀ s, P s → x.Meets s (fun _ => P) fun _ => P

section Keeps

variable {P : S → Prop}

theorem keeps_pure (a : A) : (pure a : Exec S E A).Keeps P := fun _ holds => holds

theorem keeps_stop (e : E) : (stop e : Exec S E A).Keeps P := fun _ holds => holds

theorem keeps_lift (r : Except E A) : (lift r : Exec S E A).Keeps P := by
  intro s holds
  rw [meets_lift]
  exact ⟨fun _ _ => holds, fun _ _ => holds⟩

theorem keeps_require (c : Prop) [Decidable c] (e : E) :
    (require c e : Exec S E Unit).Keeps P := by
  intro s holds
  rw [meets_require]
  exact ⟨fun _ => holds, fun _ => holds⟩

theorem keeps_gets (f : S → A) : (gets f : Exec S E A).Keeps P := fun _ holds => holds

theorem Keeps.bind {x : Exec S E A} {k : A → Exec S E B} (first : x.Keeps P)
    (rest : ∀ a, (k a).Keeps P) : (x >>= k).Keeps P := by
  intro s holds
  rw [meets_bind]
  exact (first s holds).mono (fun a t kept => rest a t kept) (fun _ _ kept => kept)

theorem Keeps.kept_of_ok {x : Exec S E A} (keeps : x.Keeps P) {s t : S} {a : A} (holds : P s)
    (ok : x.run s = (.ok a, t)) : P t := (keeps s holds).good_of_ok ok

theorem keeps_forM {T : Type} {f : T → Exec S E PUnit} (each : ∀ a, (f a).Keeps P) :
    ∀ xs : List T, (xs.forM f).Keeps P := by
  intro xs
  induction xs with
  | nil => exact keeps_pure _
  | cons a rest ih => exact (each a).bind fun _ => ih

theorem keeps_foldlM {T : Type} {f : A → T → Exec S E A} (each : ∀ a b, (f a b).Keeps P) :
    ∀ (xs : List T) (a : A), (xs.foldlM f a).Keeps P := by
  intro xs
  induction xs with
  | nil => intro a; exact keeps_pure a
  | cons b rest ih =>
      intro a
      exact (each a b).bind fun next => ih next

theorem keeps_countUp {step : Nat → A → Exec S E A} (round : ∀ i a, (step i a).Keeps P) :
    ∀ (left i : Nat) (a : A), (countUp step left i a).Keeps P := by
  intro left
  induction left with
  | zero => intro i a; exact keeps_pure a
  | succ left ih =>
      intro i a
      exact (round i a).bind fun next => ih (i + 1) next

end Keeps

/-! ## Runs that stop without a trace -/

def Reads (x : Exec S E A) : Prop := ∀ s, x.Keeps (· = s)

def Returns (x : Exec S E A) : Prop := ∀ s, ∃ a t, x.run s = (.ok a, t)

/-- A stop leaves the state as it was at the start. -/
def Atomic (x : Exec S E A) : Prop := ∀ s e t, x.run s = (.error e, t) → t = s

theorem Reads.keeps {x : Exec S E A} (reads : x.Reads) (P : S → Prop) : x.Keeps P := by
  intro s holds
  refine (reads s s rfl).mono ?_ ?_
  · rintro _ _ rfl
    exact holds
  · rintro _ _ rfl
    exact holds

theorem Reads.bind {x : Exec S E A} {k : A → Exec S E B} (first : x.Reads)
    (rest : ∀ a, (k a).Reads) : (x >>= k).Reads :=
  fun s => (first s).bind fun a => rest a s

theorem reads_lift (r : Except E A) : (lift r : Exec S E A).Reads := fun _ => keeps_lift r

theorem reads_require (c : Prop) [Decidable c] (e : E) : (require c e : Exec S E Unit).Reads :=
  fun _ => keeps_require c e

theorem reads_gets (f : S → A) : (gets f : Exec S E A).Reads := fun _ => keeps_gets f

theorem reads_stop (e : E) : (stop e : Exec S E A).Reads := fun _ => keeps_stop e

theorem Returns.atomic {x : Exec S E A} (returns : x.Returns) : x.Atomic := by
  intro s e t stopped
  obtain ⟨a, u, ok⟩ := returns s
  rw [ok] at stopped
  cases stopped

theorem Atomic.snd_eq {x : Exec S E A} (atomic : x.Atomic) {s : S}
    (refused : ∀ a, (x.run s).1 ≠ .ok a) : (x.run s).2 = s := by
  rcases ended : x.run s with ⟨e | a, t⟩
  · exact atomic s e t ended
  · rw [ended] at refused
    exact absurd rfl (refused a)

theorem returns_modify (f : S → S) : (modify f : Exec S E Unit).Returns :=
  fun s => ⟨(), f s, rfl⟩

theorem Returns.bind {x : Exec S E A} {k : A → Exec S E B} (first : x.Returns)
    (rest : ∀ a, (k a).Returns) : (x >>= k).Returns := by
  intro s
  obtain ⟨a, t, ok⟩ := first s
  obtain ⟨b, u, ok'⟩ := rest a t
  exact ⟨b, u, (run_bind_ok ok).trans ok'⟩

/-- Checks that leave the state alone, and then a part in `Q`. -/
inductive ChecksFirst (Q : Exec S E A → Prop) : Exec S E A → Prop where
  | stop (e : E) : ChecksFirst Q (stop e)
  | last {x : Exec S E A} (isLast : Q x) : ChecksFirst Q x
  | check {B : Type} {first : Exec S E B} {k : B → Exec S E A} (reads : first.Reads)
      (rest : ∀ b, ChecksFirst Q (k b)) : ChecksFirst Q (first >>= k)

section ChecksFirst

variable {Q : Exec S E A → Prop} {x : Exec S E A}

theorem ChecksFirst.keeps {P : S → Prop} (checks : ChecksFirst Q x)
    (lasts : ∀ y, Q y → y.Keeps P) : x.Keeps P := by
  induction checks with
  | stop e => exact keeps_stop e
  | last isLast => exact lasts _ isLast
  | check reads _ ih => exact (reads.keeps P).bind ih

theorem ChecksFirst.atomic (checks : ChecksFirst Q x) (lasts : ∀ y, Q y → y.Atomic) :
    x.Atomic := by
  induction checks with
  | stop e =>
      intro s _ _ stopped
      cases stopped
      rfl
  | last isLast => exact lasts _ isLast
  | @check B first k reads _ ih =>
      intro s e t stopped
      rcases ended : first.run s with ⟨_ | b, u⟩
      · have unread : u = s := (reads s s rfl).bad_of_error ended
        rw [run_bind_error ended] at stopped
        cases stopped
        exact unread
      · obtain rfl : u = s := (reads s s rfl).good_of_ok ended
        rw [run_bind_ok ended] at stopped
        exact ih b u e t stopped

end ChecksFirst

/-! ## Runs that stop only for given reasons -/

/-- Every stop has a reason in `P`. -/
def StopsWith (P : E → Prop) (x : Exec S E A) : Prop :=
  ∀ s e t, x.run s = (.error e, t) → P e

section StopsWith

variable {P : E → Prop}

theorem Returns.stopsWith {x : Exec S E A} (returns : x.Returns) : x.StopsWith P := by
  intro s e t stopped
  obtain ⟨a, u, ok⟩ := returns s
  rw [ok] at stopped
  cases stopped

theorem returns_gets (f : S → A) : (gets f : Exec S E A).Returns := fun s => ⟨f s, s, rfl⟩

theorem returns_pure (a : A) : (pure a : Exec S E A).Returns := fun s => ⟨a, s, rfl⟩

theorem stopsWith_stop {e : E} (isReason : P e) : (stop e : Exec S E A).StopsWith P := by
  intro s e' t stopped
  cases stopped
  exact isReason

theorem stopsWith_lift {r : Except E A} (reasons : ∀ e, r = .error e → P e) :
    (lift r : Exec S E A).StopsWith P := by
  intro s e t stopped
  exact reasons e (congrArg Prod.fst stopped)

theorem stopsWith_require {c : Prop} [Decidable c] {e : E} (isReason : P e) :
    (require c e : Exec S E Unit).StopsWith P := by
  intro s e' t stopped
  rw [run_require] at stopped
  by_cases holds : c
  · rw [if_pos holds] at stopped
    cases stopped
  · rw [if_neg holds] at stopped
    cases stopped
    exact isReason

theorem StopsWith.bind {x : Exec S E A} {k : A → Exec S E B} (first : x.StopsWith P)
    (rest : ∀ a s t, x.run s = (.ok a, t) → (k a).StopsWith P) : (x >>= k).StopsWith P := by
  intro s e u stopped
  rcases ended : x.run s with ⟨e' | a, t⟩
  · rw [run_bind_error ended] at stopped
    cases stopped
    exact first s _ _ ended
  · rw [run_bind_ok ended] at stopped
    exact rest a s t ended t e u stopped

theorem stopsWith_countUp {step : Nat → A → Exec S E A} {bound : Nat}
    (round : ∀ i a, i < bound → (step i a).StopsWith P) :
    ∀ (left i : Nat) (a : A), i + left = bound → (countUp step left i a).StopsWith P := by
  intro left
  induction left with
  | zero => intro i a _; exact (returns_pure a).stopsWith
  | succ left ih =>
      intro i a reached
      exact (round i a (by omega)).bind fun next _ _ _ => ih (i + 1) next (by omega)

end StopsWith

/-! ## Two runs in lockstep -/

/-- Both runs from `s` stop alike, or return values related by `rel`, and leave
the same state. -/
def Agree (rel : A → B → Prop) (x : Exec S E A) (y : Exec S E B) (s : S) : Prop :=
  (∃ e t, x.run s = (.error e, t) ∧ y.run s = (.error e, t)) ∨
    ∃ a b t, x.run s = (.ok a, t) ∧ y.run s = (.ok b, t) ∧ rel a b

theorem Agree.bind {C D : Type} {rel : A → B → Prop} {rel' : C → D → Prop}
    {x : Exec S E A} {y : Exec S E B} {k : A → Exec S E C} {l : B → Exec S E D} {s : S}
    (first : Agree rel x y s) (rest : ∀ a b t, rel a b → Agree rel' (k a) (l b) t) :
    Agree rel' (x >>= k) (y >>= l) s := by
  rcases first with ⟨e, t, left, right⟩ | ⟨a, b, t, left, right, related⟩
  · exact .inl ⟨e, t, run_bind_error left, run_bind_error right⟩
  · have tail := rest a b t related
    simpa only [Agree, run_bind_ok left, run_bind_ok right] using tail

theorem Agree.mono {rel rel' : A → B → Prop} {x : Exec S E A} {y : Exec S E B} {s : S}
    (agree : Agree rel x y s) (weaker : ∀ a b, rel a b → rel' a b) : Agree rel' x y s := by
  rcases agree with stopped | ⟨a, b, t, left, right, related⟩
  · exact .inl stopped
  · exact .inr ⟨a, b, t, left, right, weaker a b related⟩

theorem agree_refl {x : Exec S E A} {s : S} : Agree Eq x x s := by
  rcases ended : x.run s with ⟨_ | a, t⟩
  · exact .inl ⟨_, t, ended, ended⟩
  · exact .inr ⟨a, a, t, ended, ended, rfl⟩

theorem agree_bind_pure {rel : A → B → Prop} {x : Exec S E A} {f : A → B} {s : S}
    (related : ∀ a, rel a (f a)) : Agree rel x (x >>= fun a => pure (f a)) s := by
  rcases ended : x.run s with ⟨_ | a, t⟩
  · exact .inl ⟨_, t, ended, run_bind_error ended⟩
  · exact .inr ⟨a, f a, t, ended, run_bind_ok ended, related a⟩

theorem agree_require {rel : A → B → Prop} {c : Prop} [Decidable c] {e : E}
    {x : Exec S E A} {y : Exec S E B} {s : S} (rest : c → Agree rel x y s) :
    Agree rel (require c e >>= fun _ => x) (require c e >>= fun _ => y) s := by
  by_cases holds : c
  · have goesOn : (require c e : Exec S E Unit).run s = (.ok (), s) := by
      rw [run_require, if_pos holds]
    simpa only [Agree, run_bind_ok goesOn] using rest holds
  · have stops : (require c e : Exec S E Unit).run s = (.error e, s) := by
      rw [run_require, if_neg holds]
    exact .inl ⟨e, s, run_bind_error stops, run_bind_error stops⟩

theorem Agree.congr {rel : A → B → Prop} {x x' : Exec S E A} {y y' : Exec S E B} {s : S}
    (agree : Agree rel x' y' s) (left : x.run s = x'.run s) (right : y.run s = y'.run s) :
    Agree rel x y s := by
  unfold Agree
  rw [left, right]
  exact agree

theorem agree_of_run_eq {x y : Exec S E A} {s : S} (same : x.run s = y.run s) : Agree Eq x y s :=
  agree_refl.congr rfl same.symm

theorem Agree.run_eq {x y : Exec S E A} {s : S} (agree : Agree Eq x y s) :
    x.run s = y.run s := by
  rcases agree with ⟨e, t, left, right⟩ | ⟨a, b, t, left, right, same⟩
  · rw [left, right]
  · rw [left, right, same]

theorem agree_countUp {rel : Nat → A → B → Prop} {step : Nat → A → Exec S E A}
    {step' : Nat → B → Exec S E B} {bound : Nat}
    (round : ∀ i a b t, i < bound → rel i a b →
      Agree (rel (i + 1)) (step i a) (step' i b) t) :
    ∀ (left i : Nat) (a : A) (b : B) (s : S), i + left = bound → rel i a b →
      Agree (rel bound) (countUp step left i a) (countUp step' left i b) s := by
  intro left
  induction left with
  | zero =>
      intro i a b s reached related
      have atBound : i = bound := by omega
      subst atBound
      exact .inr ⟨a, b, s, rfl, rfl, related⟩
  | succ left ih =>
      intro i a b s reached related
      simp only [countUp]
      refine (round i a b s (by omega) related).bind ?_
      intro a' b' t carried
      exact ih (i + 1) a' b' t (by omega) carried

end Exec

end StoppingRun

/-! ## Cursors

A cursor hands out items one at a time.  `Yields next item exhausted c xs` says what
a run may rely on: from `c` the calls answer with the items of `xs` in order, and the
call after the last one answers `exhausted`. -/

namespace Cursor

variable {C A R : Type}

def Yields (next : C → R × C) (item : A → R) (exhausted : R) : C → List A → Prop
  | c, [] => (next c).1 = exhausted
  | c, a :: rest => (next c).1 = item a ∧ Yields next item exhausted (next c).2 rest

/-- The cursor that is the list of what it has left to hand out. -/
def listNext (item : A → R) (exhausted : R) : List A → R × List A
  | [] => (exhausted, [])
  | a :: rest => (item a, rest)

theorem yields_list (item : A → R) (exhausted : R) :
    ∀ xs : List A, Yields (listNext item exhausted) item exhausted xs xs := by
  intro xs
  induction xs with
  | nil => rfl
  | cons a rest ih => exact ⟨rfl, ih⟩

end Cursor
