import Mathlib.Data.List.Flatten

/-!
# Separators between groups

A list is written with a separator in front of every position from which a
multiple of `size` elements is left, the first position excepted.  What comes out
is a group of one to `size` elements and full groups behind it, each after a
separator.
-/

set_option autoImplicit false

namespace Grouping

variable {A : Type}

/-- The loop, from position `i` of `len` on. -/
def separateFrom (size : Nat) (sep : A) (len : Nat) : Nat → List A → List A
  | _, [] => []
  | i, a :: rest =>
      if 0 < i ∧ (len - i) % size = 0 then sep :: a :: separateFrom size sep len (i + 1) rest
      else a :: separateFrom size sep len (i + 1) rest

def separate (size : Nat) (sep : A) (xs : List A) : List A :=
  separateFrom size sep xs.length 0 xs

/-- `out` is `xs` in full groups after an incomplete one of `short` elements. -/
structure Groups (size : Nat) (sep : A) (short : Nat) (xs out : List A) (head : List A)
    (groups : List (List A)) : Prop where
  headLength : head.length = short
  full : ∀ group ∈ groups, group.length = size
  elements : xs = head ++ groups.flatten
  written : out = head ++ groups.flatMap (sep :: ·)

theorem succ_mod {size : Nat} (positive : 0 < size) (n : Nat) :
    (n + 1) % size = if n % size + 1 = size then 0 else n % size + 1 := by
  have below := Nat.mod_lt n positive
  have split : n + 1 = size * (n / size) + (n % size + 1) := by
    rw [← Nat.add_assoc, Nat.div_add_mod]
  rw [split, Nat.mul_add_mod]
  by_cases last : n % size + 1 = size
  · rw [if_pos last, last, Nat.mod_self]
  · rw [if_neg last, Nat.mod_eq_of_lt (by omega)]

section Loop

variable {size : Nat} (sep : A)

theorem separateFrom_groups (positive : 0 < size) (len : Nat) : ∀ (xs : List A) (i : Nat),
    0 < i → i + xs.length = len →
      ∃ head groups, Groups size sep (xs.length % size) xs (separateFrom size sep len i xs)
        head groups := by
  intro xs
  induction xs with
  | nil =>
      intro i _ _
      exact ⟨[], [], by simp, by simp, rfl, rfl⟩
  | cons a rest ih =>
      intro i started total
      have left : len - i = rest.length + 1 := by
        rw [List.length_cons] at total
        omega
      obtain ⟨head, groups, headLength, full, elements, written⟩ := ih (i + 1) (by omega)
        (by rw [List.length_cons] at total; omega)
      rw [separateFrom, left, List.length_cons, succ_mod positive]
      by_cases last : rest.length % size + 1 = size
      · -- the group that starts here is complete
        have complete : (a :: head).length = size := by
          rw [List.length_cons, headLength, last]
        rw [if_pos last, if_pos ⟨started, rfl⟩]
        refine ⟨[], (a :: head) :: groups, rfl, ?_, ?_, ?_⟩
        · exact List.forall_mem_cons.mpr ⟨complete, full⟩
        · rw [elements]
          rfl
        · rw [written]
          rfl
      · rw [if_neg last, if_neg fun both => absurd both.2 (by omega)]
        refine ⟨a :: head, groups, ?_, full, ?_, ?_⟩
        · rw [List.length_cons, headLength]
        · rw [elements]
          rfl
        · rw [written]
          rfl

theorem separate_groups (positive : 0 < size) {xs : List A} (nonempty : xs ≠ []) :
    ∃ head groups, 0 < head.length ∧ head.length ≤ size ∧
      Groups size sep head.length xs (separate size sep xs) head groups := by
  cases xs with
  | nil => exact absurd rfl nonempty
  | cons a rest =>
      obtain ⟨head, groups, headLength, full, elements, written⟩ :=
        separateFrom_groups sep positive (rest.length + 1) rest 1 (by decide) (by omega)
      have below := Nat.mod_lt rest.length positive
      refine ⟨a :: head, groups, by simp, ?_, rfl, full, ?_, ?_⟩
      · rw [List.length_cons, headLength]
        exact below
      · rw [elements]
        rfl
      · rw [separate, List.length_cons, separateFrom, if_neg (by simp), written]
        rfl

end Loop

theorem Groups.filter {size short : Nat} [DecidableEq A] {sep : A} {xs out head : List A}
    {groups : List (List A)} (written : Groups size sep short xs out head groups)
    (absent : sep ∉ xs) : out.filter (· ≠ sep) = xs := by
  have kept : ∀ ys : List A, sep ∉ ys → ys.filter (· ≠ sep) = ys := by
    intro ys without
    apply List.filter_eq_self.mpr
    intro a member
    have differs : a ≠ sep := fun same => without (same ▸ member)
    simpa using differs
  have later : ∀ gs : List (List A), sep ∉ gs.flatten →
      (gs.flatMap (sep :: ·)).filter (· ≠ sep) = gs.flatten := by
    intro gs
    induction gs with
    | nil => intro _; rfl
    | cons group rest ih =>
        intro without
        rw [List.flatten_cons, List.mem_append, not_or] at without
        rw [List.flatMap_cons, List.filter_append, List.filter_cons_of_neg (by simp),
          kept group without.1, ih without.2, List.flatten_cons]
  obtain ⟨_, _, rfl, rfl⟩ := written
  rw [List.mem_append, not_or] at absent
  rw [List.filter_append, kept head absent.1, later groups absent.2]

end Grouping
