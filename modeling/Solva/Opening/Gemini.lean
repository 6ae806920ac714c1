import Mathlib.Algebra.Polynomial.Expand
import Mathlib.Algebra.Polynomial.Inductions
import Mathlib.Tactic.FieldSimp
import Mathlib.Tactic.LinearCombination
import Solva.Sumcheck.Core

/-!
# Openings of multilinear functions

A table of values is folded a coordinate at a time. As the coefficients of a polynomial,
the table folds by its even and odd part, so that the fold is checked at a square by the
values of the polynomial at both roots. What remains after all folds is the multilinear
function of the table at the challenges.
-/

namespace Solva.Opening

open Polynomial

variable {F : Type*} [Field F]

/-! ## One fold -/

/-- Even and odd coefficients, weighed with a challenge. -/
noncomputable def fold (u : F) (A : F[X]) : F[X] :=
  C (1 - u) * contract 2 A + C u * contract 2 (divX A)

theorem coeff_fold (u : F) (A : F[X]) (k : Nat) :
    (fold u A).coeff k = (1 - u) * A.coeff (k * 2) + u * A.coeff (k * 2 + 1) := by
  rw [fold, coeff_add, coeff_C_mul, coeff_C_mul, coeff_contract two_ne_zero,
    coeff_contract two_ne_zero, coeff_divX]

theorem even_add_odd (A : F[X]) :
    expand F 2 (contract 2 A) + X * expand F 2 (contract 2 (divX A)) = A := by
  ext n
  rcases Nat.even_or_odd' n with ⟨k, rfl | rfl⟩
  · have even : (expand F 2 (contract 2 A)).coeff (2 * k) = A.coeff (2 * k) := by
      rw [coeff_expand two_pos, if_pos (Nat.dvd_mul_right 2 k), coeff_contract two_ne_zero,
        Nat.mul_div_cancel_left k two_pos, Nat.mul_comm k 2]
    rw [coeff_add, even]
    cases k with
    | zero => rw [Nat.mul_zero, coeff_X_mul_zero, add_zero]
    | succ k =>
        have odd : ¬2 ∣ 2 * k + 1 := by omega
        rw [Nat.mul_succ, coeff_X_mul, coeff_expand two_pos, if_neg odd, add_zero]
  · have odd : ¬2 ∣ 2 * k + 1 := by omega
    rw [coeff_add, coeff_X_mul, coeff_expand two_pos, coeff_expand two_pos, if_neg odd, zero_add,
      if_pos (Nat.dvd_mul_right 2 k), coeff_contract two_ne_zero, coeff_divX,
      Nat.mul_div_cancel_left k two_pos, Nat.mul_comm k 2]

/-- The fold at a square, from the values at both roots. -/
theorem eval_fold (u x : F) (A : F[X]) :
    2 * x * (fold u A).eval (x ^ 2) =
      (x * (1 - u) + u) * A.eval x + (x * (1 - u) - u) * A.eval (-x) := by
  have at_root (y : F) : A.eval y =
      (contract 2 A).eval (y ^ 2) + y * (contract 2 (divX A)).eval (y ^ 2) := by
    have split := congrArg (eval y) (even_add_odd A)
    rw [eval_add, eval_mul, eval_X, expand_eval, expand_eval] at split
    exact split.symm
  rw [at_root x, at_root (-x), neg_sq, fold, eval_add, eval_mul, eval_mul, eval_C, eval_C]
  ring

/-- The fold of a polynomial with a pole of order one, which must not be there. -/
theorem eval_fold_pole (u s x : F) (A : F[X]) (x_ne : x ≠ 0) :
    2 * x * ((X * fold u A + C (u * s)).eval (x ^ 2)) =
      x ^ 2 * ((x * (1 - u) + u) * (A.eval x + x⁻¹ * s) +
        (x * (1 - u) - u) * (A.eval (-x) - x⁻¹ * s)) := by
  have whole := eval_fold u x A
  rw [eval_add, eval_mul, eval_X, eval_C]
  field_simp
  linear_combination x * whole

/-! ## All folds -/

/-- What is left after a run of folds. -/
noncomputable def foldAll : List F → F[X] → F[X]
  | [], A => A
  | u :: us, A => foldAll us (fold u A)

/-- The number of a row, the first coordinate lowest. -/
def index : List Bool → Nat
  | [] => 0
  | bit :: bits => index bits * 2 + bit.toNat

/-- The point of a row. -/
def point (bits : List Bool) : List F :=
  bits.map fun bit => if bit then 1 else 0

/-- At the point of a row stands its entry. -/
theorem extend_point (table : List Bool → F) (bits : List Bool) :
    Sumcheck.extend table (point bits) = table bits := by
  induction bits generalizing table with
  | nil => rfl
  | cons bit bits ih =>
      rw [point, List.map_cons, ← point, Sumcheck.extend, ih, ih]
      cases bit with
      | false => rw [if_neg Bool.false_ne_true, sub_zero, one_mul, zero_mul, add_zero]
      | true => rw [if_pos rfl, sub_self, zero_mul, one_mul, zero_add]

theorem point_mem_cube (bits : List Bool) :
    (point bits : List F) ∈ Sumcheck.cube bits.length := by
  induction bits with
  | nil => exact List.mem_singleton.mpr rfl
  | cons bit bits ih =>
      rw [point, List.map_cons, ← point, List.length_cons, Sumcheck.cube]
      cases bit with
      | false => exact List.mem_append_left _ (List.mem_map_of_mem ih)
      | true => exact List.mem_append_right _ (List.mem_map_of_mem ih)

theorem exists_point {n : Nat} {x : List F} (mem : x ∈ Sumcheck.cube n) :
    ∃ bits : List Bool, bits.length = n ∧ point bits = x := by
  induction n generalizing x with
  | zero => exact ⟨[], rfl, (List.mem_singleton.mp mem).symm⟩
  | succ n ih =>
      rw [Sumcheck.cube, List.mem_append, List.mem_map, List.mem_map] at mem
      rcases mem with ⟨rest, rest_mem, rfl⟩ | ⟨rest, rest_mem, rfl⟩
      · rcases ih rest_mem with ⟨bits, width, rfl⟩
        exact ⟨false :: bits, congrArg Nat.succ width, rfl⟩
      · rcases ih rest_mem with ⟨bits, width, rfl⟩
        exact ⟨true :: bits, congrArg Nat.succ width, rfl⟩

theorem index_lt (bits : List Bool) : index bits < 2 ^ bits.length := by
  induction bits with
  | nil => exact Nat.one_pos
  | cons bit bits ih =>
      have low := bit.toNat_lt
      rw [index, List.length_cons, pow_succ]
      omega

theorem exists_index {n k : Nat} (small : k < 2 ^ n) :
    ∃ bits : List Bool, bits.length = n ∧ index bits = k := by
  induction n generalizing k with
  | zero => exact ⟨[], rfl, (Nat.lt_one_iff.mp small).symm⟩
  | succ n ih =>
      have half : k / 2 < 2 ^ n := by
        rw [pow_succ] at small
        omega
      rcases ih half with ⟨bits, width, number⟩
      refine ⟨decide (k % 2 = 1) :: bits, by rw [List.length_cons, width], ?_⟩
      rw [index, number]
      rcases Nat.mod_two_eq_zero_or_one k with even | odd
      · rw [even]
        show k / 2 * 2 + 0 = k
        omega
      · rw [odd]
        show k / 2 * 2 + 1 = k
        omega

theorem extend_add (us : List F) (f g : List Bool → F) (a b : F) :
    Sumcheck.extend (fun bits => a * f bits + b * g bits) us =
      a * Sumcheck.extend f us + b * Sumcheck.extend g us := by
  induction us generalizing f g with
  | nil => rfl
  | cons u us ih =>
      rw [Sumcheck.extend, Sumcheck.extend, Sumcheck.extend, ih, ih]
      ring

theorem extend_sum {ι : Type*} (items : Finset ι) (a : ι → F) (f : ι → List Bool → F)
    (us : List F) :
    Sumcheck.extend (fun bits => ∑ i ∈ items, a i * f i bits) us =
      ∑ i ∈ items, a i * Sumcheck.extend (f i) us := by
  induction us generalizing f with
  | nil => rfl
  | cons u us ih =>
      rw [Sumcheck.extend, ih, ih, Finset.mul_sum, Finset.mul_sum, ← Finset.sum_add_distrib]
      apply Finset.sum_congr rfl
      intro i _
      rw [Sumcheck.extend]
      ring

theorem extend_zero (us : List F) : Sumcheck.extend (fun _ => 0) us = 0 := by
  induction us with
  | nil => rfl
  | cons u us ih => rw [Sumcheck.extend, ih, mul_zero, mul_zero, add_zero]

/-- The coefficients after all folds are multilinear in the challenges. -/
theorem coeff_foldAll (us : List F) (A : F[X]) (k : Nat) :
    (foldAll us A).coeff k =
      Sumcheck.extend (fun bits => A.coeff (index bits + 2 ^ us.length * k)) us := by
  induction us generalizing A k with
  | nil =>
      rw [foldAll, Sumcheck.extend, index, List.length_nil, pow_zero, one_mul, Nat.zero_add]
  | cons u us ih =>
      have place (bits : List Bool) : (index bits + 2 ^ us.length * k) * 2 =
          index bits * 2 + 2 ^ (us.length + 1) * k := by
        rw [pow_succ]
        ring
      rw [foldAll, ih, Sumcheck.extend]
      simp only [coeff_fold, extend_add, place, index, Bool.toNat_false, Bool.toNat_true,
        Nat.add_zero, List.length_cons]
      simp only [Nat.add_right_comm]

/-! ## The values at the squares -/

/-- A polynomial for each square. -/
noncomputable def values : F → List F[X] → List F
  | _, [] => []
  | r, A :: As => A.eval r :: values (r ^ 2) As

/-- The values at the other roots. -/
noncomputable def negatives : F → List F[X] → List F
  | _, [] => []
  | r, A :: As => A.eval (-r) :: negatives (r ^ 2) As

/-- The denominators of the folds. -/
def denominators : F → List F → List F
  | _, [] => []
  | r, u :: us => (r * (1 - u) + u) :: denominators (r ^ 2) us

/-- The value at a root of a square, from that of the fold and that at the other root. -/
def positive (r u negative folded : F) : F :=
  ((2 : Nat) * r * folded - negative * (r * (1 - u) - u)) * (r * (1 - u) + u)⁻¹

/-- The values at the squares that the values at the other roots and the last value make. -/
def positives : F → List (F × F) → F → List F
  | _, [], _ => []
  | r, (u, negative) :: rest, final =>
      let later := positives (r ^ 2) rest final
      positive r u negative (later.headD final) :: later

/-- The polynomials of an honest prover. -/
noncomputable def layers : List F → F[X] → List F[X]
  | [], _ => []
  | u :: us, A => A :: layers us (fold u A)

theorem length_layers (us : List F) (A : F[X]) : (layers us A).length = us.length := by
  induction us generalizing A with
  | nil => rfl
  | cons u us ih => rw [layers, List.length_cons, List.length_cons, ih]

theorem getElem?_zero_layers {us : List F} (nonempty : us ≠ []) (A : F[X]) :
    (layers us A)[0]? = some A := by
  cases us with
  | nil => exact absurd rfl nonempty
  | cons u us => rfl

theorem length_negatives (r : F) (As : List F[X]) : (negatives r As).length = As.length := by
  induction As generalizing r with
  | nil => rfl
  | cons A As ih => rw [negatives, List.length_cons, List.length_cons, ih]

theorem positives_layers {us : List F} {r final : F} {A : F[X]}
    (nonzero : ∀ d ∈ denominators r us, d ≠ 0) (last : foldAll us A = C final) :
    positives r (us.zip (negatives r (layers us A))) final = values r (layers us A) := by
  induction us generalizing r A with
  | nil => rfl
  | cons u us ih =>
      rw [denominators, List.forall_mem_cons] at nonzero
      have later := ih nonzero.2 last
      have current : (values (r ^ 2) (layers us (fold u A))).headD final =
          (fold u A).eval (r ^ 2) := by
        cases us with
        | nil =>
            rw [foldAll, foldAll] at last
            rw [last, eval_C]
            rfl
        | cons _ _ => rfl
      rw [layers, negatives, List.zip_cons_cons, positives, later, values, current, positive,
        Nat.cast_ofNat]
      have folded := eval_fold u r A
      congr 1
      rw [← div_eq_mul_inv, div_eq_iff nonzero.1, folded]
      ring

/-- What tells a polynomial from the fold of the one before it. -/
noncomputable def defects : List F → List F[X] → F → List F[X]
  | u :: us, A :: As, final => (As.headD (C final) - fold u A) :: defects us As final
  | _, _, _ => []

/-- The first of the values at the squares is that of the first polynomial. -/
theorem headD_positives {us : List F} {As : List F[X]} {negs : List F} {r final : F}
    (claimed : positives r (us.zip negs) final = values r As) :
    (positives r (us.zip negs) final).headD final = (As.headD (C final)).eval r := by
  rw [claimed]
  cases As with
  | nil => rw [values, List.headD_nil, List.headD_nil, eval_C]
  | cons A As => rw [values, List.headD_cons, List.headD_cons]

/-- With all claims true, every defect has its square as a root. -/
theorem defects_roots {us : List F} {As : List F[X]} {r final : F} (two_ne : (2 : F) ≠ 0)
    (r_ne : r ≠ 0) (nonzero : ∀ d ∈ denominators r us, d ≠ 0)
    (claimed : positives r (us.zip (negatives r As)) final = values r As) :
    ∀ value ∈ values (r ^ 2) (defects us As final), value = 0 := by
  induction us generalizing r As with
  | nil =>
      intro value mem
      cases mem
  | cons u us ih =>
      cases As with
      | nil =>
          intro value mem
          cases mem
      | cons A As =>
          rw [denominators, List.forall_mem_cons] at nonzero
          rw [negatives, List.zip_cons_cons, positives, values, List.cons.injEq] at claimed
          have current := headD_positives claimed.2
          rw [current, positive, Nat.cast_ofNat, ← div_eq_mul_inv, div_eq_iff nonzero.1] at claimed
          have folded := eval_fold u r A
          rw [defects, values, List.forall_mem_cons]
          constructor
          · have scaled :
                2 * r * ((As.headD (C final)).eval (r ^ 2) - (fold u A).eval (r ^ 2)) = 0 := by
              linear_combination claimed.1 - folded
            rw [eval_sub]
            exact (mul_eq_zero.mp scaled).resolve_left (mul_ne_zero two_ne r_ne)
          · exact ih (pow_ne_zero 2 r_ne) nonzero.2 claimed.2

theorem getElem?_values (r : F) (As : List F[X]) (j : Nat) :
    (values r As)[j]? = As[j]?.map (eval (r ^ 2 ^ j)) := by
  induction As generalizing r j with
  | nil => rfl
  | cons A As ih =>
      cases j with
      | zero =>
          rw [values, List.getElem?_cons_zero, List.getElem?_cons_zero, pow_zero, pow_one]
          rfl
      | succ j =>
          rw [values, List.getElem?_cons_succ, ih, List.getElem?_cons_succ, ← pow_mul, ← pow_succ']

theorem getElem?_negatives (r : F) (As : List F[X]) (j : Nat) :
    (negatives r As)[j]? = As[j]?.map (eval (-(r ^ 2 ^ j))) := by
  induction As generalizing r j with
  | nil => rfl
  | cons A As ih =>
      cases j with
      | zero =>
          rw [negatives, List.getElem?_cons_zero, List.getElem?_cons_zero, pow_zero, pow_one]
          rfl
      | succ j =>
          rw [negatives, List.getElem?_cons_succ, ih, List.getElem?_cons_succ, ← pow_mul,
            ← pow_succ']

theorem denominators_range (r : F) (u : Nat → F) (count : Nat) :
    denominators r ((List.range count).map u) =
      (List.range count).map fun j => r ^ 2 ^ j * (1 - u j) + u j := by
  induction count generalizing r u with
  | zero => rfl
  | succ count ih =>
      have square (j : Nat) : (r ^ 2) ^ 2 ^ j = r ^ 2 ^ (j + 1) := by
        rw [← pow_mul, pow_succ' 2 j]
      rw [List.range_succ_eq_map, List.map_cons, List.map_map, denominators, ih, List.map_cons,
        List.map_map, pow_zero, pow_one]
      simp only [square, Function.comp_def, Nat.succ_eq_add_one]

theorem length_positives (r : F) (pairs : List (F × F)) (final : F) :
    (positives r pairs final).length = pairs.length := by
  induction pairs generalizing r with
  | nil => rfl
  | cons pair pairs ih =>
      rw [positives, List.length_cons, ih, List.length_cons]

/-! ## A pole in the first layer -/

/-- What tells the next layer from the fold of one with a pole, which it must not have. -/
noncomputable def poleDefect (u s : F) (A next : F[X]) : F[X] :=
  X * (next - fold u A) - C (u * s)

theorem eval_poleDefect {r u s : F} {A next : F[X]} (two_ne : (2 : F) ≠ 0) (r_ne : r ≠ 0)
    (nonzero : r * (1 - u) + u ≠ 0)
    (claimed : positive r u (A.eval (-r) - r⁻¹ * s) (next.eval (r ^ 2)) = A.eval r + r⁻¹ * s) :
    (poleDefect u s A next).eval (r ^ 2) = 0 := by
  have folded := eval_fold_pole u s r A r_ne
  rw [positive, Nat.cast_ofNat, ← div_eq_mul_inv, div_eq_iff nonzero] at claimed
  have scaled : 2 * r * (poleDefect u s A next).eval (r ^ 2) = 0 := by
    rw [poleDefect, eval_sub, eval_mul, eval_X, eval_sub, eval_C]
    rw [eval_add, eval_mul, eval_X, eval_C] at folded
    linear_combination r ^ 2 * claimed - folded
  exact (mul_eq_zero.mp scaled).resolve_left (mul_ne_zero two_ne r_ne)

/-- Without this defect there is no pole in the fold. -/
theorem eq_fold_of_poleDefect {u s : F} {A next : F[X]} (none : poleDefect u s A next = 0) :
    next = fold u A ∧ u * s = 0 := by
  have constant := congrArg (coeff · 0) none
  rw [poleDefect, coeff_sub, coeff_X_mul_zero, coeff_C_zero, coeff_zero, zero_sub,
    neg_eq_zero] at constant
  rw [poleDefect, constant, C_0, sub_zero] at none
  exact ⟨sub_eq_zero.mp ((mul_eq_zero.mp none).resolve_left X_ne_zero), constant⟩

/-- Without defects, the first polynomial folds to the last value. -/
theorem foldAll_of_defects {us : List F} {As : List F[X]} {final : F}
    (count : us.length = As.length) (none : ∀ defect ∈ defects us As final, defect = 0) :
    foldAll us (As.headD (C final)) = C final := by
  induction us generalizing As with
  | nil =>
      rw [List.eq_nil_of_length_eq_zero count.symm, foldAll, List.headD_nil]
  | cons u us ih =>
      cases As with
      | nil => cases count
      | cons A As =>
          rw [defects, List.forall_mem_cons, sub_eq_zero] at none
          rw [List.headD_cons, foldAll, ← none.1]
          exact ih (Nat.succ.inj count) none.2

end Solva.Opening
