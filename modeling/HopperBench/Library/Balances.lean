import Mathlib.Data.Fintype.BigOperators
import Mathlib.Algebra.Order.BigOperators.Group.Finset

/-!
# Balances and moves

A balance sheet gives every holder a natural number.  `move` takes `n` from
one holder and gives it to another, one after the other, so that a move from a
holder to itself changes nothing.  Moves keep the sum over every set of
holders that contains both ends.
-/

set_option autoImplicit false

namespace Balances

variable {Holder : Type} [DecidableEq Holder]

def move (sheet : Holder → Nat) (src dst : Holder) (n : Nat) : Holder → Nat :=
  let debited := Function.update sheet src (sheet src - n)
  Function.update debited dst (debited dst + n)

section Reading

variable {sheet : Holder → Nat} {src dst : Holder} {n : Nat}

theorem move_src (distinct : src ≠ dst) : move sheet src dst n src = sheet src - n := by
  simp [move, Function.update_of_ne distinct]

theorem move_dst (distinct : src ≠ dst) : move sheet src dst n dst = sheet dst + n := by
  simp [move, Function.update_of_ne distinct.symm]

theorem move_other {holder : Holder} (notSrc : holder ≠ src) (notDst : holder ≠ dst) :
    move sheet src dst n holder = sheet holder := by
  simp [move, Function.update_of_ne notSrc, Function.update_of_ne notDst]

end Reading

/-! ## Sums -/

theorem sum_update (holders : Finset Holder) (sheet : Holder → Nat) {holder : Holder}
    (member : holder ∈ holders) (value : Nat) :
    ∑ h ∈ holders, Function.update sheet holder value h + sheet holder =
      ∑ h ∈ holders, sheet h + value := by
  have after := Finset.sum_update_of_mem member sheet value
  have before := Finset.add_sum_erase holders sheet member
  rw [← Finset.sdiff_singleton_eq_erase] at before
  omega

theorem sum_move (holders : Finset Holder) (sheet : Holder → Nat) {src dst : Holder} {n : Nat}
    (srcMember : src ∈ holders) (dstMember : dst ∈ holders) (enough : n ≤ sheet src) :
    ∑ h ∈ holders, move sheet src dst n h = ∑ h ∈ holders, sheet h := by
  have debit := sum_update holders sheet srcMember (sheet src - n)
  have credit := sum_update holders (Function.update sheet src (sheet src - n)) dstMember
    (Function.update sheet src (sheet src - n) dst + n)
  simp only [move]
  omega

section Total

variable [Fintype Holder]

def total (sheet : Holder → Nat) : Nat := ∑ holder, sheet holder

theorem total_move {sheet : Holder → Nat} {src dst : Holder} {n : Nat}
    (enough : n ≤ sheet src) : total (move sheet src dst n) = total sheet :=
  sum_move Finset.univ sheet (Finset.mem_univ src) (Finset.mem_univ dst) enough

theorem pair_le_total (sheet : Holder → Nat) {left right : Holder} (distinct : left ≠ right) :
    sheet left + sheet right ≤ total sheet := by
  have parts := Finset.add_sum_erase Finset.univ sheet (Finset.mem_univ left)
  have inRest : sheet right ≤ ∑ h ∈ Finset.univ.erase left, sheet h :=
    Finset.single_le_sum_of_canonicallyOrdered
      (Finset.mem_erase.mpr ⟨distinct.symm, Finset.mem_univ right⟩)
  unfold total
  omega

omit [DecidableEq Holder] in
theorem total_eq_sum (sheet : Holder → Nat) (holders : Finset Holder)
    (empty : ∀ holder, holder ∉ holders → sheet holder = 0) :
    total sheet = ∑ holder ∈ holders, sheet holder :=
  (Finset.sum_subset (Finset.subset_univ holders) fun holder _ => empty holder).symm

end Total

end Balances
