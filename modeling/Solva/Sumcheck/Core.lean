import Mathlib.LinearAlgebra.Lagrange

/-!
# Sums over the cube, a coordinate at a time

A claim about the sum of a function over all points of zeros and ones is reduced to a
claim about one point. Each round takes a polynomial in the next coordinate, checks its
values at zero and one against the target, and goes on with its value at a challenge.
Points are lists of coordinates.
-/

namespace Solva.Sumcheck

open Polynomial

variable {F : Type*} [Field F] {m n : Nat} {f : List F → F}

/-! ## The cube -/

/-- The sum over the points of `n` zeros and ones. -/
def cubeSum : Nat → (List F → F) → F
  | 0, f => f []
  | n + 1, f => cubeSum n (fun x => f (0 :: x)) + cubeSum n (fun x => f (1 :: x))

/-- The points of `n` zeros and ones. -/
def cube : Nat → List (List F)
  | 0 => [[]]
  | n + 1 => (cube n).map (0 :: ·) ++ (cube n).map (1 :: ·)

theorem cubeSum_eq_sum (n : Nat) (f : List F → F) : cubeSum n f = ((cube n).map f).sum := by
  induction n generalizing f with
  | zero => rw [cubeSum, cube, List.map_singleton, List.sum_singleton]
  | succ n ih =>
      rw [cubeSum, ih, ih, cube, List.map_append, List.sum_append, List.map_map, List.map_map]
      rfl

/-- In each of its `n` coordinates a polynomial of degree below `m`. -/
def LowDegree (m n : Nat) (f : List F → F) : Prop :=
  ∀ before after : List F, before.length + 1 + after.length = n →
    ∃ q : F[X], q.degree < m ∧ ∀ t, q.eval t = f (before ++ t :: after)

/-- With its first coordinate fixed. -/
theorem LowDegree.tail (low : LowDegree m (n + 1) f) (u : F) :
    LowDegree m n fun x => f (u :: x) := by
  intro before after width
  apply low (u :: before) after
  rw [List.length_cons]
  omega

/-- A sum of polynomials in one coordinate is one. -/
theorem exists_polynomial_cubeSum {g : F → List F → F}
    (low : ∀ x : List F, x.length = n → ∃ q : F[X], q.degree < m ∧ ∀ t, q.eval t = g t x) :
    ∃ q : F[X], q.degree < m ∧ ∀ t, q.eval t = cubeSum n (g t) := by
  induction n generalizing g with
  | zero => exact low [] rfl
  | succ n ih =>
      have half (b : F) : ∃ q : F[X], q.degree < m ∧
          ∀ t, q.eval t = cubeSum n fun x => g t (b :: x) := by
        apply ih
        intro x width
        exact low (b :: x) (by rw [List.length_cons, width])
      rcases half 0 with ⟨q0, degree0, eval0⟩
      rcases half 1 with ⟨q1, degree1, eval1⟩
      refine ⟨q0 + q1, (degree_add_le q0 q1).trans_lt (max_lt degree0 degree1), fun t => ?_⟩
      rw [eval_add, eval0, eval1, cubeSum]

/-! ## Multilinear functions -/

/-- Of degree at most one in each of its `n` coordinates. -/
def Multilinear (n : Nat) (e : List F → F) : Prop :=
  ∀ (before after : List F) (t : F), before.length + 1 + after.length = n →
    e (before ++ t :: after) =
      (1 - t) * e (before ++ 0 :: after) + t * e (before ++ 1 :: after)

/-- The polynomial of a multilinear function in one coordinate. -/
noncomputable def line (e : List F → F) (before after : List F) : F[X] :=
  C (e (before ++ 0 :: after)) + X * C (e (before ++ 1 :: after) - e (before ++ 0 :: after))

theorem natDegree_line (e : List F → F) (before after : List F) :
    (line e before after).natDegree ≤ 1 := by
  unfold line
  compute_degree

theorem Multilinear.eval_line {e : List F → F} (multilinear : Multilinear n e)
    {before after : List F} (width : before.length + 1 + after.length = n) (t : F) :
    (line e before after).eval t = e (before ++ t :: after) := by
  rw [multilinear before after t width, line, eval_add, eval_mul, eval_C, eval_C, eval_X]
  ring

/-- The multilinear function with the values of a table on the cube. -/
def extend : (List Bool → F) → List F → F
  | table, [] => table []
  | table, t :: x =>
      (1 - t) * extend (fun b => table (false :: b)) x + t * extend (fun b => table (true :: b)) x

theorem multilinear_extend (n : Nat) (table : List Bool → F) : Multilinear n (extend table) := by
  intro before after t width
  clear width
  induction before generalizing table with
  | nil =>
      rw [List.nil_append, List.nil_append, List.nil_append, extend, extend, extend]
      ring
  | cons u before ih =>
      rw [List.cons_append, List.cons_append, List.cons_append, extend, extend, extend, ih, ih]
      ring

/-! ## Rounds -/

/-- The polynomial through values at `0, …, m - 1`. -/
noncomputable def interpolant (values : Fin m → F) : F[X] :=
  Lagrange.interpolate Finset.univ (fun i : Fin m => ((i : Nat) : F)) values

/-- The value away from the nodes, by the first barycentric formula. -/
theorem eval_interpolant_of_apart {values : Fin m → F} {u : F}
    (apart : ∀ i : Fin m, u ≠ ((i : Nat) : F)) :
    (interpolant values).eval u = (∏ i : Fin m, (u - ((i : Nat) : F))) *
      ∑ i : Fin m, values i *
        ((∏ j ∈ Finset.univ.erase i, (((i : Nat) : F) - ((j : Nat) : F))) *
          (u - ((i : Nat) : F)))⁻¹ := by
  rw [interpolant, Lagrange.eval_interpolate_not_at_node _ fun i _ => apart i, Lagrange.eval_nodal]
  congr 1
  apply Finset.sum_congr rfl
  intro i _
  rw [Lagrange.nodalWeight, Finset.prod_inv_distrib, mul_inv]
  exact mul_comm _ _

/-- The polynomial of the sum over all coordinates but the first. -/
noncomputable def roundPolynomial (m n : Nat) (f : List F → F) : F[X] :=
  interpolant fun i : Fin m => cubeSum n fun x => f ((i : Nat) :: x)

/-- A polynomial that was sent, and the challenge that answered it. -/
structure Round (F : Type*) [Field F] where
  polynomial : F[X]
  challenge : F

/-- The point of the challenges. -/
noncomputable def point (rounds : List (Round F)) : List F :=
  rounds.map Round.challenge

/-- The rounds lead from a target to a last one. -/
def Passes : F → List (Round F) → F → Prop
  | target, [], last => last = target
  | target, round :: rest, last =>
      round.polynomial.eval 0 + round.polynomial.eval 1 = target ∧
        Passes (round.polynomial.eval round.challenge) rest last

/-- Every round sends the polynomial of the sum. -/
def Honest (m : Nat) : (List F → F) → List (Round F) → Prop
  | _, [] => True
  | f, round :: rest =>
      round.polynomial = roundPolynomial m rest.length f ∧
        Honest m (fun x => f (round.challenge :: x)) rest

/-- The challenges at which a wrong polynomial passes for the right one. -/
def confused (sent right : F[X]) : Set F :=
  {u | sent ≠ right ∧ sent.eval u = right.eval u}

/-- Some round sends a wrong polynomial, and its challenge does not tell. -/
def Fooled (m : Nat) : (List F → F) → List (Round F) → Prop
  | _, [] => False
  | f, round :: rest =>
      round.challenge ∈ confused round.polynomial (roundPolynomial m rest.length f) ∨
        Fooled m (fun x => f (round.challenge :: x)) rest

/-- The round where it happens, with what comes before and after. -/
theorem fooled_iff {rounds : List (Round F)} :
    Fooled m f rounds ↔ ∃ before round after, rounds = before ++ round :: after ∧
      round.challenge ∈ confused round.polynomial
        (roundPolynomial m after.length fun x => f (point before ++ x)) := by
  induction rounds generalizing f with
  | nil =>
      constructor
      · exact False.elim
      · rintro ⟨before, round, after, none, _⟩
        exact absurd none (by simp)
  | cons first rest ih =>
      constructor
      · rintro (here | later)
        · exact ⟨[], first, rest, rfl, here⟩
        · rcases ih.mp later with ⟨before, round, after, rfl, fooled⟩
          exact ⟨first :: before, round, after, rfl, fooled⟩
      · rintro ⟨before, round, after, split, fooled⟩
        cases before with
        | nil =>
            rcases List.cons.inj split with ⟨rfl, rfl⟩
            exact Or.inl fooled
        | cons start before =>
            rcases List.cons.inj split with ⟨rfl, rfl⟩
            exact Or.inr (ih.mpr ⟨before, round, after, rfl, fooled⟩)

/-- Round by round, with what comes before and after. -/
theorem honest_iff {rounds : List (Round F)} :
    Honest m f rounds ↔ ∀ before round after, rounds = before ++ round :: after →
      round.polynomial = roundPolynomial m after.length fun x => f (point before ++ x) := by
  induction rounds generalizing f with
  | nil =>
      constructor
      · intro _ before round after none
        exact absurd none (by simp)
      · intro _
        exact True.intro
  | cons first rest ih =>
      constructor
      · rintro ⟨here, later⟩ before round after split
        cases before with
        | nil =>
            rcases List.cons.inj split with ⟨rfl, rfl⟩
            exact here
        | cons start before =>
            rcases List.cons.inj split with ⟨rfl, rfl⟩
            exact ih.mp later before round after rfl
      · intro all
        constructor
        · exact all [] first rest rfl
        · apply ih.mpr
          intro before round after split
          exact all (first :: before) round after (by rw [split]; rfl)

/-- Fewer than `m` challenges fool a round of degree below `m`. -/
theorem encard_confused_lt {sent right : F[X]} (positive : 0 < m) (sent_degree : sent.degree < m)
    (right_degree : right.degree < m) : (confused sent right).encard < m := by
  classical
  by_cases same : sent = right
  · have none : confused sent right = ∅ := by
      ext u
      exact iff_of_false (fun fooled => fooled.1 same) (Set.notMem_empty u)
    rw [none, Set.encard_empty]
    exact_mod_cast positive
  · have nonzero : sent - right ≠ 0 := sub_ne_zero.mpr same
    have roots : confused sent right = ((sent - right).roots.toFinset : Set F) := by
      ext u
      rw [Finset.mem_coe, Multiset.mem_toFinset, mem_roots nonzero, IsRoot.def, eval_sub,
        sub_eq_zero]
      exact and_iff_right same
    have degree : (sent - right).degree < m :=
      (degree_sub_le sent right).trans_lt (max_lt sent_degree right_degree)
    have count := Multiset.toFinset_card_le (sent - right).roots |>.trans (card_roots' _)
    have small := (natDegree_lt_iff_degree_lt nonzero).mpr degree
    rw [roots, Set.encard_coe_eq_coe_finsetCard]
    exact_mod_cast count.trans_lt small

section Nodes

variable (nodes : Function.Injective fun i : Fin m => ((i : Nat) : F))

include nodes

theorem injOn_nodes :
    Set.InjOn (fun i : Fin m => ((i : Nat) : F)) (Finset.univ : Finset (Fin m)) :=
  nodes.injOn

theorem degree_interpolant (values : Fin m → F) : (interpolant values).degree < m := by
  have bound := Lagrange.degree_interpolate_lt values (injOn_nodes nodes)
  rwa [Finset.card_univ, Fintype.card_fin] at bound

theorem eval_interpolant (values : Fin m → F) (i : Fin m) :
    (interpolant values).eval ((i : Nat) : F) = values i :=
  Lagrange.eval_interpolate_at_node values (injOn_nodes nodes) (Finset.mem_univ i)

/-- The round polynomial is the sum at every value of the first coordinate. -/
theorem eval_roundPolynomial (low : LowDegree m (n + 1) f) (t : F) :
    (roundPolynomial m n f).eval t = cubeSum n fun x => f (t :: x) := by
  have polynomial : ∃ q : F[X], q.degree < m ∧ ∀ t, q.eval t = cubeSum n fun x => f (t :: x) := by
    apply exists_polynomial_cubeSum
    intro x width
    exact low [] x (by rw [List.length_nil, width]; omega)
  rcases polynomial with ⟨q, degree, eval⟩
  have same : q = roundPolynomial m n f := by
    apply Lagrange.eq_interpolate_of_eval_eq _ (injOn_nodes nodes)
    · rwa [Finset.card_univ, Fintype.card_fin]
    · intro i _
      exact eval _
  rw [← same, eval]

theorem degree_roundPolynomial : (roundPolynomial m n f).degree < m :=
  degree_interpolant nodes _

/-- Honest rounds pass exactly on the sum. -/
theorem passes_iff_of_honest {rounds : List (Round F)} {target : F}
    (low : LowDegree m rounds.length f) (honest : Honest m f rounds) :
    Passes target rounds (f (point rounds)) ↔ target = cubeSum rounds.length f := by
  induction rounds generalizing f target with
  | nil => exact eq_comm
  | cons round rest ih =>
      rcases honest with ⟨sent, honest⟩
      have eval (t : F) : round.polynomial.eval t = cubeSum rest.length fun x => f (t :: x) := by
        rw [sent]
        exact eval_roundPolynomial nodes low t
      have later : Passes (round.polynomial.eval round.challenge) rest
          (f (round.challenge :: point rest)) ↔ _ :=
        ih (low.tail round.challenge) honest
      rw [Passes, eval 0, eval 1]
      constructor
      · rintro ⟨checked, _⟩
        exact checked.symm
      · intro claimed
        exact ⟨claimed.symm, later.mpr (eval _)⟩

/-- Rounds that pass on a wrong sum were fooled. -/
theorem fooled_of_passes {rounds : List (Round F)} {target : F}
    (low : LowDegree m rounds.length f) (passes : Passes target rounds (f (point rounds)))
    (wrong : target ≠ cubeSum rounds.length f) : Fooled m f rounds := by
  induction rounds generalizing f target with
  | nil => exact absurd passes.symm wrong
  | cons round rest ih =>
      rcases passes with ⟨checked, passes⟩
      have eval := eval_roundPolynomial nodes low
      have differs : round.polynomial ≠ roundPolynomial m rest.length f := by
        intro same
        apply wrong
        rw [← checked, same, eval, eval]
        rfl
      by_cases agrees : round.polynomial.eval round.challenge =
          (roundPolynomial m rest.length f).eval round.challenge
      · exact Or.inl ⟨differs, agrees⟩
      · right
        apply ih (low.tail round.challenge) passes
        rwa [← eval]

end Nodes

end Solva.Sumcheck
