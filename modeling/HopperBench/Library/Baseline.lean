import HopperBench.Library.Sweep

/-!
# Figures against a baseline

Subjects are measured one after the other, some of them only where they are
present, and every result is set against the one of a baseline subject.  Two
unsigned figures differ by a signed word, which is their difference as numbers
while both are below `2 ^ 63`.
-/

set_option autoImplicit false

namespace Baseline

open CheckedWord Sweep

/-! ## Signed differences -/

/-- `a as i64 - b as i64` -/
def difference (a b : UInt64) : Option Int64 := signedSub a.toInt64 b.toInt64

def Above (a b : UInt64) (d : Int64) : Prop := d.toInt = (a.toNat : Int) - b.toNat

section Differences

variable {a b : UInt64}

theorem difference_of_small (aSmall : a.toNat < 2 ^ 63) (bSmall : b.toNat < 2 ^ 63) :
    Succeeds (difference a b) (Above a b) := by
  unfold difference signedSub Above
  rw [toInt_toInt64 aSmall, toInt_toInt64 bSmall]
  exact succeeds_signed (by omega)

theorem Above.unique {d e : Int64} (first : Above a b d) (second : Above a b e) : d = e :=
  Int64.toInt_inj.mp (first.trans second.symm)

theorem difference_eq_some (aSmall : a.toNat < 2 ^ 63) (bSmall : b.toNat < 2 ^ 63) {d : Int64} :
    difference a b = some d ↔ Above a b d := by
  obtain ⟨e, known, exact⟩ := difference_of_small aSmall bSmall
  rw [known, Option.some.injEq]
  constructor
  · intro same
    exact same ▸ exact
  · intro above
    exact exact.unique above

theorem above_self {d : Int64} : Above a a d ↔ d = 0 := by
  rw [Above, Int.sub_self, ← Int64.toInt_inj]
  rfl

end Differences

section Report

variable {E S R F : Type}

/-- The baseline stays among the subjects whether it is present or not. -/
def retain (isBaseline present : S → Bool) (subjects : List S) : List S :=
  subjects.filter fun subject => present subject || isBaseline subject

theorem retain_cons {isBaseline present : S → Bool} {baseline : S}
    (named : isBaseline baseline = true) (others : List S) :
    retain isBaseline present (baseline :: others) =
      baseline :: retain isBaseline present others := by
  rw [retain, List.filter_cons_of_pos (by rw [named, Bool.or_true])]
  rfl

section Definitions

variable (isBaseline : R → Bool) (missing : E) (figures : R → Except E F)
  (relate : F → R → Except E R)

/-- The results with their columns against the first result of the baseline. -/
def compare (results : List R) : Except E (List R) := do
  let baseline ← match results.find? isBaseline with
    | some baseline => .ok baseline
    | none => .error missing
  let against ← figures baseline
  results.mapM (relate against)

def report (measure : S → Except E R) (subjects : List S) : Except E (List R) := do
  let results ← subjects.mapM measure
  compare isBaseline missing figures relate results

end Definitions

/-- What a report relies on: what a result says of its subject, that the baseline's
result is recognised and has the figures, and what a filled row says. -/
structure Rules (isBaseline : R → Bool) (figures : R → Except E F) (relate : F → R → Except E R)
    (measure : S → Except E R) (reported : S → R → Prop) (compared : F → R → R → Prop)
    (baseline : S) (subjects : List S) : Prop where
  measured : ∀ subject ∈ baseline :: subjects, ∀ result,
    measure subject = .ok result ↔ reported subject result
  named : ∀ result, reported baseline result → isBaseline result = true
  figured : ∀ result, reported baseline result → ∃ against, figures result = .ok against
  related : ∀ first against, reported baseline first → figures first = .ok against →
    ∀ subject result row, reported subject result →
      (relate against result = .ok row ↔ compared against result row)
  filled : ∀ first against, reported baseline first → figures first = .ok against →
    ∀ subject result, reported subject result → ∃ row, compared against result row

theorem exists_forall₂ {relation : S → R → Prop} {subjects : List S}
    (related : ∀ subject ∈ subjects, ∃ result, relation subject result) :
    ∃ results, List.Forall₂ relation subjects results := by
  induction subjects with
  | nil => exact ⟨[], .nil⟩
  | cons subject subjects ih =>
      obtain ⟨result, first⟩ := related subject List.mem_cons_self
      obtain ⟨results, rest⟩ := ih fun other member =>
        related other (List.mem_cons_of_mem subject member)
      exact ⟨result :: results, .cons first rest⟩

theorem exists_subject {relation : S → R → Prop} {subjects : List S} {results : List R}
    (related : List.Forall₂ relation subjects results) :
    ∀ result ∈ results, ∃ subject, relation subject result := by
  induction related with
  | nil => simp
  | cons first _ ih => exact List.forall_mem_cons.mpr ⟨⟨_, first⟩, ih⟩

section Rows

variable {isBaseline : R → Bool} {missing : E} {figures : R → Except E F}
  {relate : F → R → Except E R} {measure : S → Except E R} {reported : S → R → Prop}
  {compared : F → R → R → Prop} {baseline : S} {subjects : List S}
  (rules : Rules isBaseline figures relate measure reported compared baseline subjects)

include rules

theorem Rules.measured_all {results : List R} :
    (baseline :: subjects).mapM measure = .ok results ↔ ∃ first others, results = first :: others ∧
      List.Forall₂ reported (baseline :: subjects) (first :: others) := by
  rw [mapM_eq_ok, measured_iff_forall₂ rules.measured]
  constructor
  · intro given
    cases given with
    | cons first rest => exact ⟨_, _, rfl, .cons first rest⟩
  · intro given
    obtain ⟨first, others, rfl, known⟩ := given
    exact known

theorem Rules.compare_eq_ok {first : R} {others rows : List R} {against : F}
    (known : List.Forall₂ reported (baseline :: subjects) (first :: others))
    (figuresKnown : figures first = .ok against) :
    compare isBaseline missing figures relate (first :: others) = .ok rows ↔
      List.Forall₂ (compared against) (first :: others) rows := by
  have baselineKnown : reported baseline first := by
    cases known with
    | cons head _ => exact head
  have found : (first :: others).find? isBaseline = some first :=
    List.find?_cons_of_pos (rules.named first baselineKnown)
  simp only [compare, found, bind_eq_ok, figuresKnown, Except.ok.injEq, exists_eq_left', mapM_eq_ok]
  apply measured_iff_forall₂
  intro result member row
  obtain ⟨subject, resultKnown⟩ := exists_subject known result member
  exact rules.related first against baselineKnown figuresKnown subject result row resultKnown

theorem Rules.report_eq_ok {rows : List R} :
    report isBaseline missing figures relate measure (baseline :: subjects) = .ok rows ↔
      ∃ first others against,
        List.Forall₂ reported (baseline :: subjects) (first :: others) ∧
        figures first = .ok against ∧ List.Forall₂ (compared against) (first :: others) rows := by
  rw [report, bind_eq_ok]
  constructor
  · intro given
    obtain ⟨results, measured, answered⟩ := given
    obtain ⟨first, others, rfl, known⟩ := rules.measured_all.mp measured
    obtain ⟨against, figuresKnown⟩ : ∃ against, figures first = .ok against := by
      cases known with
      | cons head _ => exact rules.figured first head
    exact ⟨first, others, against, known, figuresKnown,
      (rules.compare_eq_ok known figuresKnown).mp answered⟩
  · intro given
    obtain ⟨first, others, against, known, figuresKnown, related⟩ := given
    exact ⟨_, rules.measured_all.mpr ⟨_, _, rfl, known⟩,
      (rules.compare_eq_ok known figuresKnown).mpr related⟩

theorem Rules.report_eq_error {e : E}
    (failed : report isBaseline missing figures relate measure (baseline :: subjects) = .error e) :
    ∃ subject ∈ baseline :: subjects, measure subject = .error e := by
  cases measured : (baseline :: subjects).mapM measure with
  | error e' =>
      rw [report, measured] at failed
      cases failed
      obtain ⟨front, subject, back, _, split, _, stopped⟩ := mapM_eq_error.mp measured
      exact ⟨subject, by rw [split]; exact List.mem_append_right _ List.mem_cons_self, stopped⟩
  | ok results =>
      obtain ⟨first, others, rfl, known⟩ := rules.measured_all.mp measured
      have baselineKnown : reported baseline first := by
        cases known with
        | cons head _ => exact head
      obtain ⟨against, figuresKnown⟩ := rules.figured first baselineKnown
      obtain ⟨rows, related⟩ : ∃ rows, List.Forall₂ (compared against) (first :: others) rows := by
        apply exists_forall₂
        intro result member
        obtain ⟨subject, resultKnown⟩ := exists_subject known result member
        exact rules.filled first against baselineKnown figuresKnown subject result resultKnown
      rw [report, measured] at failed
      cases ((rules.compare_eq_ok known figuresKnown).mpr related).symm.trans failed

end Rows

end Report

end Baseline
