import Mathlib.Algebra.BigOperators.Ring.List
import Mathlib.Algebra.Field.Basic
import Mathlib.Tactic.FieldSimp

/-!
# Inverses in one batch

`batch_inverse` of the vendored UltraHonk verifier: the products of all prefixes, one
inversion of the last of them, and a sweep back that splits it into the inverses.
-/

namespace Solva.Verifier

variable {F : Type*}

section Operations

variable [Mul F]

/-- Step 1: the products of `acc` with each prefix. -/
def prefixProducts : F → List F → List F
  | _, [] => []
  | acc, value :: vals => acc * value :: prefixProducts (acc * value) vals

/-- Step 3, from the last value back to the second. Each value comes with the product of
those before it, and `invAcc` is the inverse of the product of all. -/
def sweepBack (invAcc : F) : List (F × F) → F × List F
  | [] => (invAcc, [])
  | (previous, value) :: later =>
      let swept := sweepBack invAcc later
      (swept.1 * value, swept.1 * previous :: swept.2)

/-- `batch_inverse`. -/
def batchInverse [Inv F] [Zero F] [DecidableEq F] : List F → Except String (List F)
  | [] => .ok []
  | first :: rest =>
      let out := first :: prefixProducts first rest
      let product := out.getLastD first
      if product = 0 then .error "denominator is zero"
      else
        let swept := sweepBack product⁻¹ (out.zip rest)
        .ok (swept.1 :: swept.2)

end Operations

variable [Field F]

theorem getLastD_prefixProducts (acc : F) (vals : List F) :
    (prefixProducts acc vals).getLastD acc = acc * vals.prod := by
  induction vals generalizing acc with
  | nil => rw [List.prod_nil, mul_one]; rfl
  | cons value vals ih =>
      rw [prefixProducts, List.getLastD_cons, ih, List.prod_cons, mul_assoc]

/-- The sweep leaves the inverse of what stands before the values. -/
theorem sweepBack_eq {acc : F} {vals : List F} (acc_ne : acc ≠ 0) (nonzero : 0 ∉ vals) :
    sweepBack (acc * vals.prod)⁻¹ ((acc :: prefixProducts acc vals).zip vals) =
      (acc⁻¹, vals.map (·⁻¹)) := by
  induction vals generalizing acc with
  | nil => rw [List.prod_nil, mul_one]; rfl
  | cons value vals ih =>
      rw [List.mem_cons, not_or] at nonzero
      have value_ne : value ≠ 0 := Ne.symm nonzero.1
      have later := ih (mul_ne_zero acc_ne value_ne) nonzero.2
      rw [prefixProducts, List.zip_cons_cons, sweepBack, List.prod_cons, ← mul_assoc, later,
        List.map_cons, Prod.mk.injEq, List.cons.injEq]
      constructor
      · field_simp
      · exact ⟨by field_simp, rfl⟩

/-- All values are inverted, unless one of them is zero. -/
theorem batchInverse_eq [DecidableEq F] (vals : List F) :
    batchInverse vals =
      if 0 ∈ vals then .error "denominator is zero" else .ok (vals.map (·⁻¹)) := by
  cases vals with
  | nil => rfl
  | cons first rest =>
      have product :
          (first :: prefixProducts first rest).getLastD first = (first :: rest).prod := by
        rw [List.getLastD_cons, getLastD_prefixProducts, List.prod_cons]
      rw [batchInverse]
      dsimp only
      rw [product]
      by_cases zero : (0 : F) ∈ first :: rest
      · rw [if_pos (List.prod_eq_zero_iff.mpr zero), if_pos zero]
      · have parts := zero
        rw [List.mem_cons, not_or] at parts
        rw [if_neg (fun none => zero (List.prod_eq_zero_iff.mp none)), if_neg zero, List.prod_cons,
          sweepBack_eq (Ne.symm parts.1) parts.2, List.map_cons]

end Solva.Verifier
