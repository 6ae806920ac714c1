import Mathlib.Algebra.Polynomial.Roots
import Mathlib.Algebra.Polynomial.Div
import Mathlib.Tactic.LinearCombination
import Mathlib.Tactic.Module

/-!
# Many openings in one check

A commitment of a polynomial is its value at a secret point, in a group. Claims about the
values of several commitments, each at a point of its own, are batched with the powers of
a challenge into one quotient and checked at one more challenge. The check passes on true
claims, and on others only for few of the challenges.
-/

namespace Solva.Opening

open Polynomial

variable {F G : Type*} [Field F] [AddCommGroup G] [Module F G]

/-! ## Claims -/

/-- The value of what is committed to, at a point. -/
structure Claim (F G : Type*) where
  commitment : G
  point : F
  value : F

/-- The commitment of a polynomial. -/
def commit (g : G) (τ : F) (f : F[X]) : G :=
  f.eval τ • g

/-- The claims of polynomials, at points and with values. -/
structure Opened (F : Type*) [Field F] where
  poly : F[X]
  point : F
  value : F

def Opened.claim (g : G) (τ : F) (opened : Opened F) : Claim F G :=
  ⟨commit g τ opened.poly, opened.point, opened.value⟩

/-- What is left of the claims at a point, with the powers of a challenge. -/
def batched (g : G) (ν z : F) : List (Claim F G) → G
  | [] => 0
  | claim :: rest =>
      (z - claim.point)⁻¹ • (claim.commitment - claim.value • g) + ν • batched g ν z rest

theorem batched_append (g : G) (ν z : F) (claims others : List (Claim F G)) :
    batched g ν z (claims ++ others) =
      batched g ν z claims + ν ^ claims.length • batched g ν z others := by
  induction claims with
  | nil => rw [List.nil_append, batched, List.length_nil, pow_zero, one_smul, zero_add]
  | cons claim rest ih =>
      rw [List.cons_append, batched, batched, ih, List.length_cons, pow_succ', smul_add, smul_smul,
        add_assoc]

/-- The check of a quotient and of the opening of what is left at a point. -/
def Accepts (g : G) (τ ν z : F) (claims : List (Claim F G)) (quotient opening : G) : Prop :=
  quotient - batched g ν z claims = (τ - z) • opening

/-! ## In polynomials -/

/-- What is left of the claims at a point, as a polynomial. -/
noncomputable def leftover (ν z : F) : List (Opened F) → F[X]
  | [] => 0
  | opened :: rest =>
      C (z - opened.point)⁻¹ * (opened.poly - C opened.value) + C ν * leftover ν z rest

/-- The quotient that an honest prover commits to. -/
noncomputable def quotient (ν : F) : List (Opened F) → F[X]
  | [] => 0
  | opened :: rest =>
      (opened.poly - C opened.value) /ₘ (X - C opened.point) + C ν * quotient ν rest

/-- The polynomial with the points as its roots. -/
noncomputable def vanishing : List (Opened F) → F[X]
  | [] => 1
  | opened :: rest => (X - C opened.point) * vanishing rest

/-- The claims over the common denominator. -/
noncomputable def numerator (ν : F) : List (Opened F) → F[X]
  | [] => 0
  | opened :: rest => (opened.poly - C opened.value) * vanishing rest +
      C ν * ((X - C opened.point) * numerator ν rest)

theorem batched_claims (g : G) (τ ν z : F) (claims : List (Opened F)) :
    batched g ν z (claims.map (Opened.claim g τ)) = (leftover ν z claims).eval τ • g := by
  induction claims with
  | nil => rw [List.map_nil, batched, leftover, eval_zero, zero_smul]
  | cons opened rest ih =>
      rw [List.map_cons, batched, ih, leftover, Opened.claim, commit, eval_add, eval_mul, eval_mul,
        eval_sub, eval_C, eval_C, eval_C, ← sub_smul, smul_smul, smul_smul, ← add_smul]

/-- Of committed polynomials, the check is one of their values at the secret. -/
theorem accepts_iff {g : G} (g_ne : ∀ x : F, x • g = 0 → x = 0) {τ ν z : F}
    {claims : List (Opened F)} {q w : F[X]} :
    Accepts g τ ν z (claims.map (Opened.claim g τ)) (commit g τ q) (commit g τ w) ↔
      (q - leftover ν z claims - (X - C z) * w).eval τ = 0 := by
  rw [Accepts, batched_claims, commit, commit, ← sub_smul, smul_smul, ← sub_eq_zero, ← sub_smul,
    eval_sub, eval_sub, eval_mul, eval_sub, eval_X, eval_C]
  constructor
  · exact g_ne _
  · intro zero
    rw [zero, zero_smul]

/-- Away from the points, what is left is the fraction of the numerator. -/
theorem eval_leftover {ν z : F} {claims : List (Opened F)}
    (apart : ∀ opened ∈ claims, z ≠ opened.point) :
    (leftover ν z claims).eval z * (vanishing claims).eval z = (numerator ν claims).eval z := by
  induction claims with
  | nil => rw [leftover, numerator, eval_zero, zero_mul]
  | cons opened rest ih =>
      rw [List.forall_mem_cons] at apart
      have nonzero : z - opened.point ≠ 0 := sub_ne_zero.mpr apart.1
      have inverse : (z - opened.point)⁻¹ * (z - opened.point) = 1 := inv_mul_cancel₀ nonzero
      rw [leftover, vanishing, numerator]
      simp only [eval_add, eval_mul, eval_sub, eval_C, eval_X]
      linear_combination ((opened.poly.eval z - opened.value) * (vanishing rest).eval z) * inverse +
        ν * (z - opened.point) * ih apart.2

/-! ## Completeness -/

theorem eval_quotient {ν z : F} {claims : List (Opened F)}
    (true_ : ∀ opened ∈ claims, opened.poly.eval opened.point = opened.value)
    (apart : ∀ opened ∈ claims, z ≠ opened.point) :
    (quotient ν claims).eval z = (leftover ν z claims).eval z := by
  induction claims with
  | nil => rfl
  | cons opened rest ih =>
      rw [List.forall_mem_cons] at true_ apart
      have root : IsRoot (opened.poly - C opened.value) opened.point := by
        rw [IsRoot.def, eval_sub, eval_C, true_.1, sub_self]
      have divided := congrArg (eval z) (mul_divByMonic_eq_iff_isRoot.mpr root)
      have nonzero : z - opened.point ≠ 0 := sub_ne_zero.mpr apart.1
      rw [eval_mul, eval_sub, eval_X, eval_C] at divided
      rw [quotient, leftover, eval_add, eval_mul, eval_C, eval_add, eval_mul, eval_mul, eval_C,
        eval_C, ih true_.2 apart.2, ← divided, inv_mul_cancel_left₀ nonzero]

/-- The polynomial whose commitment opens what is left. -/
noncomputable def opening (ν z : F) (claims : List (Opened F)) : F[X] :=
  (quotient ν claims - leftover ν z claims) /ₘ (X - C z)

/-- True claims pass, whatever the challenges, as long as the last one is none of the
points. -/
theorem accepts_of_true {g : G} {τ ν z : F} {claims : List (Opened F)}
    (true_ : ∀ opened ∈ claims, opened.poly.eval opened.point = opened.value)
    (apart : ∀ opened ∈ claims, z ≠ opened.point) :
    Accepts g τ ν z (claims.map (Opened.claim g τ)) (commit g τ (quotient ν claims))
      (commit g τ (opening ν z claims)) := by
  have root : IsRoot (quotient ν claims - leftover ν z claims) z := by
    rw [IsRoot.def, eval_sub, eval_quotient true_ apart, sub_self]
  have divided := congrArg (eval τ) (mul_divByMonic_eq_iff_isRoot.mpr root)
  rw [eval_mul, eval_sub, eval_sub, eval_X, eval_C] at divided
  rw [Accepts, batched_claims, commit, commit, ← sub_smul, smul_smul, opening, divided]

/-! ## Soundness -/

/-- The polynomial that a challenge of a false claim is a root of. -/
noncomputable def falsity (ν : F) (q : F[X]) (claims : List (Opened F)) : F[X] :=
  q * vanishing claims - numerator ν claims

theorem eval_vanishing_ne_zero {claims : List (Opened F)} {x : F}
    (apart : ∀ opened ∈ claims, x ≠ opened.point) : (vanishing claims).eval x ≠ 0 := by
  induction claims with
  | nil =>
      rw [vanishing, eval_one]
      exact one_ne_zero
  | cons opened rest ih =>
      rw [List.forall_mem_cons] at apart
      rw [vanishing, eval_mul, eval_sub, eval_X, eval_C]
      exact mul_ne_zero (sub_ne_zero.mpr apart.1) (ih apart.2)

theorem eval_vanishing_of_mem {claims : List (Opened F)} {opened : Opened F}
    (mem : opened ∈ claims) : (vanishing claims).eval opened.point = 0 := by
  induction claims with
  | nil => cases mem
  | cons first rest ih =>
      rw [vanishing, eval_mul, eval_sub, eval_X, eval_C]
      rcases List.mem_cons.mp mem with rfl | later
      · rw [sub_self, zero_mul]
      · rw [ih later, mul_zero]

/-- At its point, a claim is all that is left of the numerator. -/
theorem true_of_eval_numerator {ν : F} (ν_ne : ν ≠ 0) {claims : List (Opened F)}
    (distinct : (claims.map Opened.point).Nodup) {opened : Opened F} (mem : opened ∈ claims)
    (zero : (numerator ν claims).eval opened.point = 0) :
    opened.poly.eval opened.point = opened.value := by
  induction claims with
  | nil => cases mem
  | cons first rest ih =>
      rw [List.map_cons, List.nodup_cons] at distinct
      rw [numerator, eval_add, eval_mul, eval_mul, eval_mul, eval_sub, eval_sub, eval_C, eval_C,
        eval_C, eval_X] at zero
      rcases List.mem_cons.mp mem with rfl | later
      · have apart : ∀ other ∈ rest, opened.point ≠ other.point := by
          intro other other_mem same
          exact distinct.1 (same ▸ List.mem_map_of_mem other_mem)
        rw [sub_self, zero_mul, mul_zero, add_zero] at zero
        exact sub_eq_zero.mp ((mul_eq_zero.mp zero).resolve_right (eval_vanishing_ne_zero apart))
      · have apart : opened.point - first.point ≠ 0 := by
          rw [sub_ne_zero]
          intro same
          exact distinct.1 (same ▸ List.mem_map_of_mem later)
        rw [eval_vanishing_of_mem later, mul_zero, zero_add] at zero
        have rest_zero := (mul_eq_zero.mp ((mul_eq_zero.mp zero).resolve_left ν_ne)).resolve_left
          apart
        exact ih distinct.2 later rest_zero

/-- Claims that pass are true, but for a secret that is the root of a polynomial of the
prover, or a last challenge that is a root of one fixed before it. -/
theorem true_of_accepts {g : G} (g_ne : ∀ x : F, x • g = 0 → x = 0) {τ ν z : F} (ν_ne : ν ≠ 0)
    {claims : List (Opened F)} {q w : F[X]} (distinct : (claims.map Opened.point).Nodup)
    (apart : ∀ opened ∈ claims, z ≠ opened.point)
    (accepted : Accepts g τ ν z (claims.map (Opened.claim g τ)) (commit g τ q) (commit g τ w)) :
    (∀ opened ∈ claims, opened.poly.eval opened.point = opened.value) ∨
      (q - leftover ν z claims - (X - C z) * w ≠ 0 ∧
        (q - leftover ν z claims - (X - C z) * w).eval τ = 0) ∨
      (falsity ν q claims ≠ 0 ∧ (falsity ν q claims).eval z = 0) := by
  have root := (accepts_iff g_ne).mp accepted
  by_cases identity : q - leftover ν z claims - (X - C z) * w = 0
  · have at_z := congrArg (eval z) identity
    rw [eval_sub, eval_sub, eval_mul, eval_sub, eval_X, eval_C, sub_self, zero_mul, sub_zero,
      eval_zero, sub_eq_zero] at at_z
    have false_root : (falsity ν q claims).eval z = 0 := by
      rw [falsity, eval_sub, eval_mul, at_z, eval_leftover apart, sub_self]
    by_cases fixed : falsity ν q claims = 0
    · left
      intro opened mem
      apply true_of_eval_numerator ν_ne distinct mem
      have at_point := congrArg (eval opened.point) fixed
      rw [falsity, eval_sub, eval_mul, eval_vanishing_of_mem mem, mul_zero, zero_sub, eval_zero,
        neg_eq_zero] at at_point
      exact at_point
    · exact Or.inr (Or.inr ⟨fixed, false_root⟩)
  · exact Or.inr (Or.inl ⟨identity, root⟩)

end Solva.Opening
