import HopperBench.Library.CheckedWord
import Mathlib.Algebra.Order.BigOperators.Group.List
import Mathlib.Data.List.Forall2
import Mathlib.Data.Nat.Cast.Basic

/-!
# Sweeps

A sweep measures one sample after another and stops at the first that fails.
The results are collected in order, or added up in a machine word and divided by
their number.
-/

set_option autoImplicit false

namespace Sweep

open CheckedWord

variable {E A B : Type}

/-- The results of the samples, one by one. -/
def Measured (measure : A → Except E B) : List A → List B → Prop :=
  List.Forall₂ fun a b => measure a = .ok b

theorem bind_eq_ok {x : Except E A} {k : A → Except E B} {b : B} :
    (x >>= k) = .ok b ↔ ∃ a, x = .ok a ∧ k a = .ok b := by
  cases x <;> simp [bind, Except.bind]

theorem bind_eq_error {x : Except E A} {k : A → Except E B} {e : E} :
    (x >>= k) = .error e ↔ x = .error e ∨ ∃ a, x = .ok a ∧ k a = .error e := by
  cases x <;> simp [bind, Except.bind]

theorem mapM_eq_ok {measure : A → Except E B} {as : List A} {bs : List B} :
    as.mapM measure = .ok bs ↔ Measured measure as bs := by
  induction as generalizing bs with
  | nil =>
      rw [List.mapM_nil]
      constructor
      · intro ok
        cases ok
        exact .nil
      · intro measured
        cases measured
        rfl
  | cons a as ih =>
      rw [List.mapM_cons]
      constructor
      · intro ok
        cases first : measure a with
        | error e =>
            rw [first] at ok
            cases ok
        | ok b =>
            cases rest : as.mapM measure with
            | error e =>
                rw [first, rest] at ok
                cases ok
            | ok later =>
                rw [first, rest] at ok
                cases ok
                exact .cons first (ih.mp rest)
      · intro measured
        cases measured with
        | cons first rest =>
            rw [first, ih.mpr rest]
            rfl

theorem exists_measured {measure : A → Except E B} {as : List A} :
    (∃ bs, Measured measure as bs) ↔ ∀ a ∈ as, ∃ b, measure a = .ok b := by
  induction as with
  | nil => exact iff_of_true ⟨[], .nil⟩ (List.forall_mem_nil _)
  | cons a as ih =>
      rw [List.forall_mem_cons, ← ih]
      constructor
      · rintro ⟨_, measured⟩
        cases measured with
        | cons first rest => exact ⟨⟨_, first⟩, _, rest⟩
      · rintro ⟨⟨b, first⟩, bs, rest⟩
        exact ⟨b :: bs, .cons first rest⟩

/-- A sweep that fails has the error of its first failing sample. -/
theorem mapM_eq_error {measure : A → Except E B} {as : List A} {e : E} :
    as.mapM measure = .error e ↔ ∃ front a back bs, as = front ++ a :: back ∧
      Measured measure front bs ∧ measure a = .error e := by
  constructor
  · intro failed
    induction as with
    | nil => cases failed
    | cons a as ih =>
        rw [List.mapM_cons, bind_eq_error] at failed
        rcases failed with first | ⟨b, first, failed⟩
        · exact ⟨[], a, as, [], rfl, .nil, first⟩
        · rcases bind_eq_error.mp failed with rest | ⟨_, _, impossible⟩
          · obtain ⟨front, a', back, bs, rfl, measured, stopped⟩ := ih rest
            exact ⟨a :: front, a', back, b :: bs, rfl, .cons first measured, stopped⟩
          · cases impossible
  · intro given
    obtain ⟨front, a, back, bs, rfl, measured, stopped⟩ := given
    induction measured with
    | nil => rw [List.nil_append, List.mapM_cons, stopped]; rfl
    | cons first _ ih => rw [List.cons_append, List.mapM_cons, first, ih]; rfl

/-! ## Averages -/

def addSample (measure : A → Except E UInt64) (overflow : E) (total : UInt64) (a : A) :
    Except E UInt64 := do
  let units ← measure a
  match checkedAdd total units with
  | some sum => .ok sum
  | none => .error overflow

def totalFrom (measure : A → Except E UInt64) (overflow : E) (total : UInt64) (as : List A) :
    Except E UInt64 := as.foldlM (addSample measure overflow) total

def average (measure : A → Except E UInt64) (overflow : E) (as : List A) : Except E UInt64 := do
  let total ← totalFrom measure overflow 0 as
  .ok (total / UInt64.ofNat as.length)

def sum (results : List UInt64) : Nat := (results.map UInt64.toNat).sum

section Totals

variable {measure : A → Except E UInt64} {overflow : E}

theorem addSample_eq_ok {total next : UInt64} {a : A} :
    addSample measure overflow total a = .ok next ↔
      ∃ units, measure a = .ok units ∧ total.toNat + units.toNat = next.toNat := by
  unfold addSample
  cases measure a with
  | error e => simp [bind, Except.bind]
  | ok units =>
      simp only [bind, Except.bind, Except.ok.injEq, exists_eq_left']
      cases added : checkedAdd total units with
      | none =>
          have beyond := checkedAdd_eq_none.mp added
          have bound := next.toNat_lt
          simp only [reduceCtorEq, false_iff]
          omega
      | some next' =>
          have value := checkedAdd_eq_some.mp added
          simp only [Except.ok.injEq]
          constructor
          · rintro rfl
            exact value.symm
          · intro same
            exact UInt64.toNat_inj.mp (by omega)

theorem totalFrom_eq_ok {as : List A} {total t : UInt64} :
    totalFrom measure overflow total as = .ok t ↔
      ∃ results, Measured measure as results ∧ t.toNat = total.toNat + sum results := by
  unfold totalFrom
  induction as generalizing total with
  | nil =>
      rw [List.foldlM_nil]
      constructor
      · intro ok
        cases ok
        exact ⟨[], .nil, rfl⟩
      · rintro ⟨_, measured, value⟩
        cases measured
        have same : t = total := UInt64.toNat_inj.mp value
        rw [same]
        rfl
  | cons a as ih =>
      rw [List.foldlM_cons]
      constructor
      · intro ok
        cases added : addSample measure overflow total a with
        | error e =>
            rw [added] at ok
            cases ok
        | ok next =>
            rw [added] at ok
            obtain ⟨units, first, value⟩ := addSample_eq_ok.mp added
            obtain ⟨results, measured, rest⟩ := ih.mp ok
            refine ⟨units :: results, .cons first measured, ?_⟩
            rw [rest, ← value, sum, sum, List.map_cons, List.sum_cons, Nat.add_assoc]
      · rintro ⟨_, measured, value⟩
        cases measured with
        | @cons _ units _ results first rest =>
            have bound := t.toNat_lt
            have split : sum (units :: results) = units.toNat + sum results := by
              rw [sum, sum, List.map_cons, List.sum_cons]
            have fits : total.toNat + units.toNat < 2 ^ 64 := by omega
            have next : (total + units).toNat = total.toNat + units.toNat := by
              rw [UInt64.toNat_add, Nat.mod_eq_of_lt fits]
            have added : addSample measure overflow total a = .ok (total + units) :=
              addSample_eq_ok.mpr ⟨units, first, next.symm⟩
            rw [added]
            exact ih.mpr ⟨results, rest, by omega⟩

theorem average_eq_ok {as : List A} {q : UInt64} (short : as.length < 2 ^ 64) :
    average measure overflow as = .ok q ↔ ∃ results, Measured measure as results ∧
      sum results < 2 ^ 64 ∧ q.toNat = sum results / as.length := by
  have count : (UInt64.ofNat as.length).toNat = as.length := toNat_ofNat_of_fits short
  unfold average
  constructor
  · intro ok
    cases totalled : totalFrom measure overflow 0 as with
    | error e =>
        rw [totalled] at ok
        cases ok
    | ok t =>
        rw [totalled] at ok
        cases ok
        obtain ⟨results, measured, value⟩ := totalFrom_eq_ok.mp totalled
        have total : t.toNat = sum results := by rw [value, UInt64.toNat_zero, Nat.zero_add]
        exact ⟨results, measured, total ▸ t.toNat_lt, by rw [UInt64.toNat_div, count, total]⟩
  · rintro ⟨results, measured, fits, value⟩
    have total : (UInt64.ofNat (sum results)).toNat = sum results := toNat_ofNat_of_fits fits
    have totalled : totalFrom measure overflow 0 as = .ok (UInt64.ofNat (sum results)) :=
      totalFrom_eq_ok.mpr ⟨results, measured, by rw [total, UInt64.toNat_zero, Nat.zero_add]⟩
    have quotient : UInt64.ofNat (sum results) / UInt64.ofNat as.length = q := by
      rw [← UInt64.toNat_inj, UInt64.toNat_div, total, count, value]
    rw [totalled]
    exact congrArg Except.ok quotient

theorem measured_iff {measure : A → Except E B} {passes : A → Prop} {value : A → B} :
    ∀ {as : List A}, (∀ a ∈ as, ∀ b, measure a = .ok b ↔ passes a ∧ value a = b) →
      ∀ {bs : List B}, Measured measure as bs ↔ (∀ a ∈ as, passes a) ∧ bs = as.map value := by
  intro as
  induction as with
  | nil =>
      intro _ bs
      simp [Measured]
  | cons a as ih =>
      intro exact bs
      have exactLater : ∀ other ∈ as, ∀ b, measure other = .ok b ↔
          passes other ∧ value other = b :=
        fun other member => exact other (List.mem_cons_of_mem a member)
      constructor
      · intro measured
        cases measured with
        | cons first rest =>
            obtain ⟨passed, rfl⟩ := (exact a List.mem_cons_self _).mp first
            obtain ⟨others, rfl⟩ := (ih exactLater).mp rest
            exact ⟨List.forall_mem_cons.mpr ⟨passed, others⟩, rfl⟩
      · intro given
        obtain ⟨passed, rfl⟩ := given
        obtain ⟨first, others⟩ := List.forall_mem_cons.mp passed
        exact .cons ((exact a List.mem_cons_self _).mpr ⟨first, rfl⟩)
          ((ih exactLater).mpr ⟨others, rfl⟩)

theorem measured_iff_forall₂ {measure : A → Except E B} {relation : A → B → Prop} {as : List A}
    (exact : ∀ a ∈ as, ∀ b, measure a = .ok b ↔ relation a b) {bs : List B} :
    Measured measure as bs ↔ List.Forall₂ relation as bs := by
  induction as generalizing bs with
  | nil => simp [Measured]
  | cons a as ih =>
      have exactLater : ∀ other ∈ as, ∀ b, measure other = .ok b ↔ relation other b :=
        fun other member => exact other (List.mem_cons_of_mem a member)
      constructor
      · intro measured
        cases measured with
        | cons first rest =>
            exact .cons ((exact a List.mem_cons_self _).mp first) ((ih exactLater).mp rest)
      · intro related
        cases related with
        | cons first rest =>
            exact .cons ((exact a List.mem_cons_self _).mpr first) ((ih exactLater).mpr rest)

theorem average_of_known {as : List A} {passes : A → Prop} {value : A → UInt64}
    (short : as.length < 2 ^ 64)
    (exact : ∀ a ∈ as, ∀ b, measure a = .ok b ↔ passes a ∧ value a = b) {q : UInt64} :
    average measure overflow as = .ok q ↔ (∀ a ∈ as, passes a) ∧ sum (as.map value) < 2 ^ 64 ∧
      q.toNat = sum (as.map value) / as.length := by
  rw [average_eq_ok short]
  constructor
  · intro given
    obtain ⟨results, measured, fits, mean⟩ := given
    obtain ⟨passed, rfl⟩ := (measured_iff exact).mp measured
    exact ⟨passed, fits, mean⟩
  · intro given
    obtain ⟨passed, fits, mean⟩ := given
    exact ⟨_, (measured_iff exact).mpr ⟨passed, rfl⟩, fits, mean⟩

theorem sum_le_of_bounded {results : List UInt64} {bound : Nat}
    (bounded : ∀ r ∈ results, r.toNat ≤ bound) : sum results ≤ results.length * bound := by
  have each := List.sum_le_card_nsmul (results.map UInt64.toNat) bound (by
    intro n member
    obtain ⟨r, inResults, rfl⟩ := List.mem_map.mp member
    exact bounded r inResults)
  rwa [List.length_map, nsmul_eq_mul, Nat.cast_id] at each

theorem exists_mean {results : List UInt64} {bound : Nat} (small : results.length * bound < 2 ^ 64)
    (bounded : ∀ r ∈ results, r.toNat ≤ bound) :
    sum results < 2 ^ 64 ∧ ∃ q : UInt64, q.toNat = sum results / results.length := by
  have total := sum_le_of_bounded bounded
  have quotient : sum results / results.length ≤ sum results := Nat.div_le_self _ _
  exact ⟨by omega, UInt64.ofNat (sum results / results.length),
    toNat_ofNat_of_fits (by omega)⟩

end Totals

end Sweep
