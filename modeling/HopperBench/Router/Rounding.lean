import HopperBench.Library.FloorChain
import HopperBench.Router.Refinement
import Mathlib.Data.Rat.Floor

/-!
# What the hops round away

Over exact rationals the fold of the runner is a chain of products rounded down
at every hop, so the route never pays out more than its exact rate, and it falls
short of it by less than one unit for each hop, scaled by the later rates.
-/

set_option autoImplicit false

namespace HopperBench.Rounding

open FloorChain HopperBench.RouterBench

def ratio (rate : UInt32 × UInt32) : ℚ := rate.1.toNat / rate.2.toNat

theorem ratio_nonneg (rate : UInt32 × UInt32) : 0 ≤ ratio rate :=
  div_nonneg (Nat.cast_nonneg _) (Nat.cast_nonneg _)

theorem ratios_nonneg (rates : List (UInt32 × UInt32)) : ∀ r ∈ rates.map ratio, 0 ≤ r := by
  intro r member
  obtain ⟨rate, _, rfl⟩ := List.mem_map.mp member
  exact ratio_nonneg rate

theorem swapOut_floor {amount out : UInt64} {rate : UInt32 × UInt32}
    (payout : MockAmm.swapOut amount rate.1 rate.2 = .ok out) :
    out.toNat = ⌊(amount.toNat : ℚ) * ratio rate⌋₊ := by
  obtain ⟨_, paid⟩ := MockAmm.swapOut_eq_ok.mp payout
  rw [paid, ratio, ← mul_div_assoc, ← Nat.cast_mul, Nat.floor_div_eq_div]

theorem folds_floorChain : ∀ (rates : List (UInt32 × UInt32)) (amount : UInt64)
    (hops : List (UInt64 × UInt64)), Folds amount rates hops →
      (Stops.finalOut amount hops).toNat = floorChain amount.toNat (rates.map ratio) := by
  intro rates
  induction rates with
  | nil =>
      intro amount hops noHops
      obtain rfl : hops = [] := noHops
      rfl
  | cons rate rest ih =>
      intro amount hops folds
      obtain ⟨out, tail, payout, rfl, tailFolds⟩ := folds
      rw [List.map_cons, floorChain_cons, ← swapOut_floor payout]
      exact ih out tail tailFolds

/-- A computed route pays at most its exact rate, loses less than one unit a hop
scaled by the rates behind it, and cannot grow when the rates shrink. -/
theorem rounding_loss {initial out : UInt64} {rates : List (UInt32 × UInt32)}
    {hops : List (UInt64 × UInt64)} (computed : expectedHops initial rates = .ok hops)
    (lastOut : hops.getLast?.map Prod.snd = some out) :
    let exactOut : ℚ := initial.toNat * (rates.map ratio).prod
    (out.toNat : ℚ) ≤ exactOut ∧
      exactOut - out.toNat <
        ∑ j ∈ Finset.range rates.length, ((rates.drop (j + 1)).map ratio).prod ∧
      ((rates.map ratio).prod ≤ 1 → out.toNat ≤ initial.toNat) := by
  intro exactOut
  have folds : Folds initial rates hops := expectedHops_eq_ok.mp computed
  have chained : out.toNat = floorChain initial.toNat (rates.map ratio) := by
    rw [← folds_floorChain rates initial hops folds,
      Refinement.finalOut_of_getLast hops initial out lastOut]
  have nonempty : rates.map ratio ≠ [] := by
    intro noRatios
    obtain rfl : rates = [] := List.map_eq_nil_iff.mp noRatios
    obtain rfl : hops = [] := folds
    simp at lastOut
  have bound : lossBound (rates.map ratio) =
      ∑ j ∈ Finset.range rates.length, ((rates.drop (j + 1)).map ratio).prod := by
    simp only [lossBound, List.length_map, List.map_drop]
  rw [chained]
  refine ⟨floorChain_le _ _ (ratios_nonneg rates), ?_, floorChain_le_of_prod_le_one _
    (ratios_nonneg rates)⟩
  rw [← bound, sub_lt_iff_lt_add']
  exact product_lt_floorChain_add _ _ nonempty (ratios_nonneg rates)

/-- Ten units through thirds, halves and a tripling: two of the exact five are lost. -/
theorem rounding_loss_of_ten :
    expectedHops 10 [(1, 3), (1, 2), (3, 1)] = .ok [(10, 3), (3, 1), (1, 3)] ∧
      (10 : ℚ) * ([(1, 3), (1, 2), (3, 1)].map ratio).prod = 5 ∧
      (3 : ℚ) ≤ 5 ∧ (5 : ℚ) - 3 < 3 / 2 + 3 + 1 ∧ 3 ≤ 10 := by
  have computed : expectedHops 10 [(1, 3), (1, 2), (3, 1)] =
      .ok [(10, 3), (3, 1), (1, 3)] := by decide
  have lastOut : ([(10, 3), (3, 1), (1, 3)] : List (UInt64 × UInt64)).getLast?.map Prod.snd =
      some 3 := rfl
  obtain ⟨below, near, shrinks⟩ := rounding_loss computed lastOut
  have third : ratio (1, 3) = 1 / 3 := by simp [ratio]
  have half : ratio (1, 2) = 1 / 2 := by simp [ratio]
  have triple : ratio (3, 1) = 3 := by simp [ratio]
  have product : ([(1, 3), (1, 2), (3, 1)].map ratio).prod = 1 / 2 := by
    simp only [List.map_cons, List.map_nil, List.prod_cons, List.prod_nil, third, half, triple]
    norm_num
  have loss : ∑ j ∈ Finset.range 3, (([(1, 3), (1, 2), (3, 1)].drop (j + 1)).map ratio).prod =
      3 / 2 + 3 + 1 := by
    simp only [Finset.sum_range_succ, Finset.sum_range_zero, List.drop_succ_cons, List.drop_zero,
      List.map_cons, List.map_nil, List.prod_cons, List.prod_nil, half, triple]
    norm_num
  have sent : ((10 : UInt64).toNat : ℚ) = 10 := rfl
  have received : ((3 : UInt64).toNat : ℚ) = 3 := rfl
  have five : (10 : ℚ) * (1 / 2) = 5 := by norm_num
  rw [product, sent, received, five] at below near
  rw [product] at shrinks ⊢
  exact ⟨computed, five, below, near.trans_eq loss, shrinks (by norm_num)⟩

end HopperBench.Rounding
