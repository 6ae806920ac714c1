import Mathlib.Tactic.LinearCombination
import Solva.Sumcheck.Core

/-!
# One sum for many claims

Claims that a function is zero at every point of the cube are put into one sum, each point
with the product of the challenges at its ones. Claims about several functions are put into
one before that, with a challenge for each but the first. A sum of zero leaves no claim
open, unless a challenge hits the one value that what came before it singles out.
-/

namespace Solva.Sumcheck

variable {F : Type*} [Field F] {n : Nat} {f h : List F → F}

/-! ## Sums -/

theorem cubeSum_add (n : Nat) (f h : List F → F) :
    cubeSum n (fun x => f x + h x) = cubeSum n f + cubeSum n h := by
  rw [cubeSum_eq_sum, cubeSum_eq_sum, cubeSum_eq_sum, List.sum_map_add]

theorem cubeSum_mul_left (n : Nat) (c : F) (f : List F → F) :
    cubeSum n (fun x => c * f x) = c * cubeSum n f := by
  rw [cubeSum_eq_sum, cubeSum_eq_sum, List.sum_map_mul_left]

theorem forall_mem_cube_succ {P : List F → Prop} :
    (∀ x ∈ cube (n + 1), P x) ↔ ∀ x ∈ cube n, P (0 :: x) ∧ P (1 :: x) := by
  simp only [cube, List.mem_append, List.mem_map]
  constructor
  · intro all x mem
    exact ⟨all _ (Or.inl ⟨x, mem, rfl⟩), all _ (Or.inr ⟨x, mem, rfl⟩)⟩
  · rintro all _ (⟨x, mem, rfl⟩ | ⟨x, mem, rfl⟩)
    · exact (all x mem).1
    · exact (all x mem).2

/-! ## Points -/

/-- Zero at every point of the cube. -/
def Vanishes (n : Nat) (f : List F → F) : Prop :=
  ∀ x ∈ cube n, f x = 0

/-- The first coordinate summed out, its one with a challenge. -/
def collapse (g : F) (f : List F → F) (x : List F) : F :=
  f (0 :: x) + g * f (1 :: x)

/-- The sum over the cube with a challenge for each coordinate. -/
def separated : List F → (List F → F) → F
  | [], f => f []
  | g :: gs, f => separated gs (collapse g f)

/-- A challenge makes all values vanish at once. -/
def Collapsed : List F → (List F → F) → Prop
  | [], _ => False
  | g :: gs, f =>
      (¬Vanishes (gs.length + 1) f ∧ Vanishes gs.length (collapse g f)) ∨
        Collapsed gs (collapse g f)

theorem vanishes_or_collapsed {gs : List F} (zero : separated gs f = 0) :
    Vanishes gs.length f ∨ Collapsed gs f := by
  induction gs generalizing f with
  | nil =>
      left
      intro x mem
      rw [List.length_nil, cube, List.mem_singleton] at mem
      rwa [mem]
  | cons g gs ih =>
      by_cases all : Vanishes (gs.length + 1) f
      · exact Or.inl all
      · rcases ih zero with vanishes | later
        · exact Or.inr (Or.inl ⟨all, vanishes⟩)
        · exact Or.inr (Or.inr later)

/-- At most one challenge does so. -/
theorem collapse_unique {g g' : F} (some_value : ¬Vanishes (n + 1) f)
    (first : Vanishes n (collapse g f)) (second : Vanishes n (collapse g' f)) : g = g' := by
  rcases eq_or_ne g g' with same | differ
  · exact same
  · exfalso
    apply some_value
    refine forall_mem_cube_succ.mpr fun x mem => ?_
    have sum := first x mem
    have sum' := second x mem
    rw [collapse] at sum sum'
    have at_one : (g - g') * f (1 :: x) = 0 := by
      linear_combination sum - sum'
    have one := (mul_eq_zero.mp at_one).resolve_left (sub_ne_zero.mpr differ)
    rw [one, mul_zero, add_zero] at sum
    exact ⟨sum, one⟩

/-- The function that the first challenges leave. -/
def collapseAll : List F → (List F → F) → List F → F
  | [], f => f
  | g :: gs, f => collapseAll gs (collapse g f)

/-- One of the challenges is the one value that the challenges before it single out. -/
theorem exists_single_of_collapsed {gs : List F} (collapsed : Collapsed gs f) :
    ∃ before g after, gs = before ++ g :: after ∧
      ∀ g', Vanishes after.length (collapse g' (collapseAll before f)) ↔ g' = g := by
  induction gs generalizing f with
  | nil => cases collapsed
  | cons g gs ih =>
      rcases collapsed with ⟨some_value, vanishes⟩ | later
      · refine ⟨[], g, gs, rfl, fun g' => ?_⟩
        constructor
        · intro other
          exact collapse_unique some_value other vanishes
        · rintro rfl
          exact vanishes
      · rcases ih later with ⟨before, single, after, rfl, only⟩
        exact ⟨g :: before, single, after, rfl, only⟩

/-- The factor of a point. -/
def weight (gs x : List F) : F :=
  (List.zipWith (fun g u => 1 + u * (g - 1)) gs x).prod

theorem weight_cons (g u : F) (gs x : List F) :
    weight (g :: gs) (u :: x) = (1 + u * (g - 1)) * weight gs x := by
  rw [weight, List.zipWith_cons_cons, List.prod_cons, weight]

/-- The sum, point by point. -/
theorem cubeSum_weight (gs : List F) (f : List F → F) :
    cubeSum gs.length (fun x => weight gs x * f x) = separated gs f := by
  induction gs generalizing f with
  | nil => exact one_mul (f [])
  | cons g gs ih =>
      rw [separated, ← ih, List.length_cons, cubeSum, ← cubeSum_add]
      congr 1
      funext x
      rw [weight_cons, weight_cons, collapse]
      ring

/-- The origin alone has the factor one. -/
theorem cubeSum_origin (gs : List F) (c : F) [DecidableEq F] :
    cubeSum gs.length (fun x => weight gs x * if x = List.replicate gs.length 0 then c else 0) =
      c := by
  rw [cubeSum_weight]
  induction gs generalizing c with
  | nil => rfl
  | cons g gs ih =>
      have step : collapse g (fun x => if x = List.replicate (gs.length + 1) 0 then c else 0) =
          fun x => if x = List.replicate gs.length 0 then c else 0 := by
        funext x
        rw [collapse, List.replicate_succ]
        simp only [List.cons.injEq, true_and, one_ne_zero, false_and, if_false, mul_zero, add_zero]
      rw [separated, List.length_cons, step, ih]

/-! ## Functions -/

/-- A challenge makes up for the claims before it. -/
def Hit : F → List (F × F) → Prop
  | _, [] => False
  | acc, term :: terms =>
      (term.1 ≠ 0 ∧ (∀ later ∈ terms, later.1 = 0) ∧ acc + term.1 * term.2 = 0) ∨
        Hit (acc + term.1 * term.2) terms

theorem zero_or_hit {acc : F} {terms : List (F × F)}
    (zero : terms.foldl (fun acc term => acc + term.1 * term.2) acc = 0) :
    (acc = 0 ∧ ∀ term ∈ terms, term.1 = 0) ∨ Hit acc terms := by
  induction terms generalizing acc with
  | nil => exact Or.inl ⟨zero, fun _ mem => absurd mem List.not_mem_nil⟩
  | cons term terms ih =>
      rcases ih zero with ⟨sum, rest⟩ | later
      · dsimp only at sum
        by_cases none : term.1 = 0
        · rw [none, zero_mul, add_zero] at sum
          exact Or.inl ⟨sum, List.forall_mem_cons.mpr ⟨none, rest⟩⟩
        · exact Or.inr (Or.inl ⟨none, rest, sum⟩)
      · exact Or.inr (Or.inr later)

end Solva.Sumcheck
