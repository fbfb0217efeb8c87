import Mathlib.Algebra.Order.Ring.Nat

/-!
# Checked 64-bit words

`checkedAdd` and `checkedSub` return `none` where the exact result is not a
64-bit word, and `narrow` turns a natural number into a word or fails.  Every
lemma is about `toNat`, so that the callers' arithmetic is linear arithmetic
over the naturals.  The signed operations do the same with `toInt`.  `Succeeds`
follows a computation of several such steps through.
-/

set_option autoImplicit false

namespace CheckedWord

def checkedAdd (a b : UInt64) : Option UInt64 :=
  if a.toNat + b.toNat < 2 ^ 64 then some (a + b) else none

def checkedSub (a b : UInt64) : Option UInt64 :=
  if b.toNat ≤ a.toNat then some (a - b) else none

def narrow (n : Nat) : Option UInt64 :=
  if n < 2 ^ 64 then some (UInt64.ofNat n) else none

theorem toNat_ofNat_of_fits {n : Nat} (fits : n < 2 ^ 64) : (UInt64.ofNat n).toNat = n :=
  UInt64.toNat_ofNat_of_lt' fits

theorem checkedAdd_eq_some {a b c : UInt64} :
    checkedAdd a b = some c ↔ c.toNat = a.toNat + b.toNat := by
  have bound := c.toNat_lt
  unfold checkedAdd
  by_cases fits : a.toNat + b.toNat < 2 ^ 64
  · rw [if_pos fits, Option.some.injEq, ← UInt64.toNat_inj, UInt64.toNat_add,
      Nat.mod_eq_of_lt fits]
    exact eq_comm
  · rw [if_neg fits]
    constructor
    · intro impossible
      cases impossible
    · intro exact
      omega

/-- The sum itself, where the caller needs it as a word. -/
theorem checkedAdd_eq_some_add {a b c : UInt64} :
    checkedAdd a b = some c ↔ a.toNat + b.toNat < 2 ^ 64 ∧ c = a + b := by
  unfold checkedAdd
  by_cases fits : a.toNat + b.toNat < 2 ^ 64
  · rw [if_pos fits, Option.some.injEq, and_iff_right fits]
    exact eq_comm
  · rw [if_neg fits]
    constructor
    · intro impossible
      cases impossible
    · intro fitting
      obtain ⟨exact, _⟩ := fitting
      exact absurd exact fits

theorem checkedAdd_eq_none {a b : UInt64} :
    checkedAdd a b = none ↔ 2 ^ 64 ≤ a.toNat + b.toNat := by
  unfold checkedAdd
  by_cases fits : a.toNat + b.toNat < 2 ^ 64
  · simp only [if_pos fits, reduceCtorEq, false_iff]
    omega
  · simp only [if_neg fits, true_iff]
    omega

theorem checkedSub_eq_some {a b c : UInt64} :
    checkedSub a b = some c ↔ c.toNat + b.toNat = a.toNat := by
  unfold checkedSub
  by_cases enough : b.toNat ≤ a.toNat
  · rw [if_pos enough, Option.some.injEq, ← UInt64.toNat_inj,
      UInt64.toNat_sub_of_le a b (UInt64.le_iff_toNat_le.mpr enough)]
    omega
  · rw [if_neg enough]
    constructor
    · intro impossible
      cases impossible
    · intro exact
      omega

theorem checkedSub_eq_none {a b : UInt64} :
    checkedSub a b = none ↔ a.toNat < b.toNat := by
  unfold checkedSub
  by_cases enough : b.toNat ≤ a.toNat
  · simp [enough]
  · simp only [if_neg enough, true_iff]
    omega

/-! The words of results that stay in range, in the form of the two lemmas above. -/

theorem exists_sum {a b : UInt64} (fits : a.toNat + b.toNat < 2 ^ 64) :
    ∃ c : UInt64, c.toNat = a.toNat + b.toNat :=
  ⟨a + b, checkedAdd_eq_some.mp (checkedAdd_eq_some_add.mpr ⟨fits, rfl⟩)⟩

theorem exists_difference {a b : UInt64} (enough : b.toNat ≤ a.toNat) :
    ∃ c : UInt64, c.toNat + b.toNat = a.toNat :=
  ⟨a - b, checkedSub_eq_some.mp (if_pos enough)⟩

theorem narrow_eq_some {n : Nat} {w : UInt64} : narrow n = some w ↔ w.toNat = n := by
  have bound := w.toNat_lt
  unfold narrow
  by_cases fits : n < 2 ^ 64
  · rw [if_pos fits, Option.some.injEq, ← UInt64.toNat_inj, UInt64.toNat_ofNat_of_lt' fits]
    exact eq_comm
  · rw [if_neg fits]
    constructor
    · intro impossible
      cases impossible
    · intro exact
      omega

theorem narrow_eq_none {n : Nat} : narrow n = none ↔ 2 ^ 64 ≤ n := by
  unfold narrow
  by_cases fits : n < 2 ^ 64
  · simp only [if_pos fits, reduceCtorEq, false_iff]
    omega
  · simp only [if_neg fits, true_iff]
    omega

def checkedMul (a b : UInt64) : Option UInt64 := narrow (a.toNat * b.toNat)

/-! ## Signed words -/

def narrowSigned (n : Int) : Option Int64 :=
  if -2 ^ 63 ≤ n ∧ n < 2 ^ 63 then some (Int64.ofInt n) else none

def signedAdd (a b : Int64) : Option Int64 := narrowSigned (a.toInt + b.toInt)

def signedSub (a b : Int64) : Option Int64 := narrowSigned (a.toInt - b.toInt)

def signedMul (a b : Int64) : Option Int64 := narrowSigned (a.toInt * b.toInt)

/-! The casts between the two readings, where they keep the number. -/

theorem toNat_toUInt64 {w : Int64} {n : Nat} (value : w.toInt = n) : w.toUInt64.toNat = n := by
  have nonneg : 0 ≤ w := Int64.le_iff_toInt_le.mpr (by rw [value]; exact Int.natCast_nonneg n)
  rw [Int64.toNat_toUInt64_of_le nonneg, ← Int64.toNat_toInt, value, Int.toNat_natCast]

theorem toInt_toInt64 {w : UInt64} (small : w.toNat < 2 ^ 63) : w.toInt64.toInt = w.toNat := by
  rw [← Int64.toInt_toBitVec, UInt64.toBitVec_toInt64]
  exact BitVec.toInt_eq_toNat_of_lt (by rw [UInt64.toNat_toBitVec]; omega)

/-! ## Computations in range -/

def Succeeds {A : Type} (x : Option A) (post : A → Prop) : Prop := ∃ a, x = some a ∧ post a

section Succeeds

variable {A B : Type} {x : Option A} {post : A → Prop} {a b : UInt64}

theorem succeeds_some {v : A} (holds : post v) : Succeeds (some v) post := ⟨v, rfl, holds⟩

theorem Succeeds.bind {next : A → Option B} {result : B → Prop} (first : Succeeds x post)
    (rest : ∀ v, post v → Succeeds (next v) result) : Succeeds (x >>= next) result := by
  obtain ⟨v, value, holds⟩ := first
  rw [value]
  exact rest v holds

theorem succeeds_add (fits : a.toNat + b.toNat < 2 ^ 64) :
    Succeeds (checkedAdd a b) fun c => c.toNat = a.toNat + b.toNat := by
  obtain ⟨c, exact⟩ := exists_sum fits
  exact ⟨c, checkedAdd_eq_some.mpr exact, exact⟩

theorem succeeds_sub (enough : b.toNat ≤ a.toNat) :
    Succeeds (checkedSub a b) fun c => c.toNat = a.toNat - b.toNat := by
  obtain ⟨c, exact⟩ := exists_difference enough
  exact ⟨c, checkedSub_eq_some.mpr exact, by omega⟩

/-- With the factor as a number, so that the product by a literal is linear. -/
theorem succeeds_mul {k : Nat} (factor : a.toNat = k) (fits : k * b.toNat < 2 ^ 64) :
    Succeeds (checkedMul a b) fun c => c.toNat = k * b.toNat := by
  subst factor
  exact ⟨_, if_pos fits, toNat_ofNat_of_fits fits⟩

theorem succeeds_signed {n : Int} (fits : -2 ^ 63 ≤ n ∧ n < 2 ^ 63) :
    Succeeds (narrowSigned n) fun w => w.toInt = n :=
  ⟨_, if_pos fits, Int64.toInt_ofInt_of_le fits.1 fits.2⟩

end Succeeds

end CheckedWord
