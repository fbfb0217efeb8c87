import Mathlib.Algebra.BigOperators.Intervals
import Mathlib.Algebra.Order.BigOperators.GroupWithZero.List
import Mathlib.Algebra.Order.Floor.Semifield
import Mathlib.Tactic.Linarith

/-!
# Products rounded down at every factor

`floorChain amount factors` multiplies a natural number by one factor after the
other and drops the fraction each time.  The result never exceeds the exact
product.  Each rounding drops less than one unit, and what it drops would have
been scaled by the factors still to come, so the loss stays below `lossBound`.
-/

set_option autoImplicit false

namespace FloorChain

variable {K : Type} [Field K]

/-- The sum over the factors of the product of the factors behind it. -/
def lossBound (factors : List K) : K :=
  ∑ j ∈ Finset.range factors.length, (factors.drop (j + 1)).prod

theorem lossBound_cons (factor : K) (rest : List K) :
    lossBound (factor :: rest) = lossBound rest + rest.prod := by
  simp only [lossBound, List.length_cons, Finset.sum_range_succ', List.drop_succ_cons,
    List.drop_zero]

variable [LinearOrder K] [FloorSemiring K]

def floorChain (amount : ℕ) (factors : List K) : ℕ :=
  factors.foldl (fun amount factor => ⌊(amount : K) * factor⌋₊) amount

theorem floorChain_cons (amount : ℕ) (factor : K) (rest : List K) :
    floorChain amount (factor :: rest) = floorChain ⌊(amount : K) * factor⌋₊ rest := rfl

variable [IsStrictOrderedRing K]

theorem floorChain_le : ∀ (factors : List K) (amount : ℕ), (∀ factor ∈ factors, 0 ≤ factor) →
    (floorChain amount factors : K) ≤ amount * factors.prod := by
  intro factors
  induction factors with
  | nil =>
      intro amount _
      simp [floorChain]
  | cons factor rest ih =>
      intro amount nonneg
      have factorNonneg : 0 ≤ factor := nonneg factor List.mem_cons_self
      have restNonneg : ∀ later ∈ rest, 0 ≤ later := fun later member =>
        nonneg later (List.mem_cons_of_mem _ member)
      have rounded : (⌊(amount : K) * factor⌋₊ : K) ≤ amount * factor :=
        Nat.floor_le (mul_nonneg amount.cast_nonneg factorNonneg)
      rw [floorChain_cons, List.prod_cons]
      calc (floorChain ⌊(amount : K) * factor⌋₊ rest : K)
          ≤ ⌊(amount : K) * factor⌋₊ * rest.prod := ih _ restNonneg
        _ ≤ amount * factor * rest.prod :=
            mul_le_mul_of_nonneg_right rounded (List.prod_nonneg restNonneg)
        _ = amount * (factor * rest.prod) := mul_assoc _ _ _

/-- One rounding moves the exact product of the rest by at most that product. -/
theorem product_le_of_floor (amount : ℕ) (factor : K) {rest : List K}
    (restNonneg : ∀ later ∈ rest, 0 ≤ later) :
    (amount : K) * (factor * rest.prod) ≤ ⌊(amount : K) * factor⌋₊ * rest.prod + rest.prod := by
  have dropped : (amount : K) * factor ≤ ⌊(amount : K) * factor⌋₊ + 1 :=
    (Nat.lt_floor_add_one _).le
  calc (amount : K) * (factor * rest.prod)
      = amount * factor * rest.prod := (mul_assoc _ _ _).symm
    _ ≤ (⌊(amount : K) * factor⌋₊ + 1) * rest.prod :=
        mul_le_mul_of_nonneg_right dropped (List.prod_nonneg restNonneg)
    _ = ⌊(amount : K) * factor⌋₊ * rest.prod + rest.prod := add_one_mul _ _

theorem product_lt_floorChain_add : ∀ (factors : List K) (amount : ℕ), factors ≠ [] →
    (∀ factor ∈ factors, 0 ≤ factor) →
      (amount : K) * factors.prod < floorChain amount factors + lossBound factors := by
  intro factors
  induction factors with
  | nil => intro amount nonempty; exact absurd rfl nonempty
  | cons factor rest ih =>
      intro amount _ nonneg
      have restNonneg : ∀ later ∈ rest, 0 ≤ later := fun later member =>
        nonneg later (List.mem_cons_of_mem _ member)
      rw [floorChain_cons, lossBound_cons, List.prod_cons]
      by_cases last : rest = []
      · -- only the last rounding is strict on its own
        subst last
        have dropped := Nat.lt_floor_add_one ((amount : K) * factor)
        simpa [floorChain, lossBound] using dropped
      · have behind := ih ⌊(amount : K) * factor⌋₊ last restNonneg
        have here := product_le_of_floor amount factor restNonneg
        linarith

theorem floorChain_le_of_prod_le_one {factors : List K} (amount : ℕ)
    (nonneg : ∀ factor ∈ factors, 0 ≤ factor) (small : factors.prod ≤ 1) :
    floorChain amount factors ≤ amount := by
  have bound : (floorChain amount factors : K) ≤ amount :=
    (floorChain_le factors amount nonneg).trans
      (mul_le_of_le_one_right amount.cast_nonneg small)
  exact_mod_cast bound

end FloorChain
