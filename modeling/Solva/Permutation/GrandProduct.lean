import Mathlib.Algebra.BigOperators.Intervals
import Mathlib.Data.Multiset.ZeroCons
import Mathlib.Tactic.LinearCombination
import Solva.Sumcheck.Core

/-!
# Copies by a grand product

Values stand in cells with labels. That the values do not change when the labels are
permuted is checked by one product of fractions, row by row. From the product the
multisets of labelled values are the same, unless a challenge hits what was fixed before
it was drawn.
-/

namespace Solva.Permutation

open Polynomial

variable {F : Type*} [Field F]

/-! ## The product -/

/-- A column that starts and ends with zero and follows the fractions closes their product. -/
theorem prod_eq_of_rows {z num den : Nat → F} {last : Nat} {delta : F} (start : z 0 = 0)
    (stop : z (last + 1) = 0)
    (row : ∀ k ≤ last, (z k + if k = 0 then 1 else 0) * num k =
      (z (k + 1) + if k = last then delta else 0) * den k) :
    ∏ k ∈ Finset.range (last + 1), num k = delta * ∏ k ∈ Finset.range (last + 1), den k := by
  have until_row (m : Nat) (inside : m ≤ last) :
      ∏ k ∈ Finset.range m, num k =
        (z m + if m = 0 then 1 else 0) * ∏ k ∈ Finset.range m, den k := by
    induction m with
    | zero => rw [start, Finset.range_zero, Finset.prod_empty, Finset.prod_empty, if_pos rfl,
        zero_add, one_mul]
    | succ m ih =>
        have here := row m (Nat.le_of_succ_le inside)
        rw [if_neg (c := m = last) (Nat.ne_of_lt inside), add_zero] at here
        rw [Finset.prod_range_succ, Finset.prod_range_succ, ih (Nat.le_of_succ_le inside),
          if_neg (Nat.succ_ne_zero m), add_zero]
        linear_combination (∏ k ∈ Finset.range m, den k) * here
  have final := row last (Nat.le_refl last)
  rw [if_pos (c := last = last) rfl, stop, zero_add] at final
  rw [Finset.prod_range_succ, Finset.prod_range_succ, until_row last (Nat.le_refl last)]
  linear_combination (∏ k ∈ Finset.range last, den k) * final

/-! ## Labelled values -/

/-- The factor of a labelled value. -/
def factor (beta gamma : F) (entry : F × F) : F :=
  entry.1 + entry.2 * beta + gamma

/-- The product of the factors, before the last challenge. -/
noncomputable def product (beta : F) (entries : Multiset (F × F)) : F[X] :=
  (entries.map fun entry => X - C (-(entry.1 + entry.2 * beta))).prod

theorem eval_product (beta gamma : F) (entries : Multiset (F × F)) :
    (product beta entries).eval gamma = (entries.map (factor beta gamma)).prod := by
  rw [product, eval_multiset_prod, Multiset.map_map]
  congr 1
  apply Multiset.map_congr rfl
  intro entry _
  rw [Function.comp_apply, eval_sub, eval_X, eval_C, sub_neg_eq_add, add_comm, factor]

/-- At most one challenge makes two labelled values one. -/
theorem mixed_unique {entry other : F × F} (differ : entry ≠ other) {beta beta' : F}
    (first : entry.1 + entry.2 * beta = other.1 + other.2 * beta)
    (second : entry.1 + entry.2 * beta' = other.1 + other.2 * beta') : beta = beta' := by
  have scaled : (entry.2 - other.2) * (beta - beta') = 0 := by
    linear_combination first - second
  rcases mul_eq_zero.mp scaled with labels | same
  · exfalso
    apply differ
    have label := sub_eq_zero.mp labels
    rw [label] at first
    exact Prod.ext (add_right_cancel first) label
  · exact sub_eq_zero.mp same

/-- Two labelled values that this challenge alone makes one. -/
def Mixed (beta : F) (entries others : Multiset (F × F)) : Prop :=
  ∃ entry ∈ entries, ∃ other ∈ others,
    ∀ beta', entry.1 + entry.2 * beta' = other.1 + other.2 * beta' ↔ beta' = beta

/-- The same products are of the same labelled values, but for a challenge that was hit. -/
theorem eq_of_prod_eq {beta gamma : F} {entries others : Multiset (F × F)}
    (equal : (entries.map (factor beta gamma)).prod = (others.map (factor beta gamma)).prod) :
    entries = others ∨
      gamma ∈ Sumcheck.confused (product beta entries) (product beta others) ∨
      Mixed beta entries others := by
  by_cases same : product beta entries = product beta others
  · have roots := congrArg Polynomial.roots same
    have negated (entries : Multiset (F × F)) : product beta entries =
        ((entries.map fun entry => -(entry.1 + entry.2 * beta)).map fun a => X - C a).prod := by
      rw [product, Multiset.map_map]
      rfl
    rw [negated, negated, roots_multiset_prod_X_sub_C, roots_multiset_prod_X_sub_C] at roots
    have paired := Multiset.rel_map.mp (Multiset.rel_eq.mpr roots)
    by_cases mixed : Mixed beta entries others
    · exact Or.inr (Or.inr mixed)
    · left
      apply Multiset.rel_eq.mp
      apply paired.mono
      intro entry entry_mem other other_mem equal_
      by_contra differ
      have at_beta := neg_injective equal_
      refine mixed ⟨entry, entry_mem, other, other_mem, fun beta' => ?_⟩
      constructor
      · intro at_other
        exact mixed_unique differ at_other at_beta
      · rintro rfl
        exact at_beta
  · right
    left
    refine ⟨same, ?_⟩
    rw [eval_product, eval_product, equal]

end Solva.Permutation
