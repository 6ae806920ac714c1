import Mathlib.FieldTheory.Finite.Basic
import Mathlib.LinearAlgebra.Matrix.NonsingularInverse

/-!
# Permutations by rounds

The Poseidon2 construction over any commutative ring and any finite set of words. Full
rounds raise every word to a power between adding constants and a matrix; partial
rounds raise one word and have a matrix of their own. The construction is a bijection
when the power is one and the determinants of both matrices are units.
-/

namespace Solva.Rounds

open Function

/-- A power whose exponent is prime to the order of the multiplicative group. -/
theorem pow_bijective {K : Type*} [Field K] [Finite K] {degree : ℕ} (positive : degree ≠ 0)
    (coprime : (Nat.card K - 1).Coprime degree) : Bijective fun x : K => x ^ degree := by
  rw [← Nat.card_units] at coprime
  apply Finite.injective_iff_bijective.mp
  intro x y same
  have powers : x ^ degree = y ^ degree := same
  by_cases zero : x = 0
  · rw [zero, zero_pow positive] at powers
    rw [zero, eq_zero_of_pow_eq_zero powers.symm]
  · have other : y ≠ 0 := by
      rintro rfl
      rw [zero_pow positive] at powers
      exact zero (eq_zero_of_pow_eq_zero powers)
    have units : (Units.mk0 x zero) ^ degree = (Units.mk0 y other) ^ degree := by
      apply Units.ext
      rw [Units.val_pow_eq_pow_val, Units.val_pow_eq_pow_val]
      exact powers
    exact congrArg Units.val (coprime.pow_left_bijective.injective units)

section Layers

variable {ι R : Type*} [Fintype ι] [DecidableEq ι] [CommRing R]

/-- The parameters apart from the round constants. -/
structure Network (ι R : Type*) where
  degree : ℕ
  external : Matrix ι ι R
  internal : Matrix ι ι R
  /-- The word that partial rounds raise. -/
  word : ι

namespace Network

variable (network : Network ι R)

/-- Add the constants, raise every word, mix with the external matrix. -/
def fullRound (state constants : ι → R) : ι → R :=
  network.external.mulVec fun i => (state i + constants i) ^ network.degree

/-- Add the constant to one word, raise it, mix with the internal matrix. -/
def partialRound (state : ι → R) (constant : R) : ι → R :=
  network.internal.mulVec
    (update state network.word ((state network.word + constant) ^ network.degree))

/-- The external matrix, then full rounds, partial rounds and full rounds. -/
def permutation (front : List (ι → R)) (middle : List R) (back : List (ι → R)) (state : ι → R) :
    ι → R :=
  back.foldl network.fullRound (middle.foldl network.partialRound
    (front.foldl network.fullRound (network.external.mulVec state)))

/-- The power is a bijection and both matrices are nonsingular. -/
structure Invertible : Prop where
  power : Bijective fun x : R => x ^ network.degree
  external : IsUnit network.external.det
  internal : IsUnit network.internal.det

end Network

theorem mulVec_bijective {matrix : Matrix ι ι R} (unit : IsUnit matrix.det) :
    Bijective matrix.mulVec := by
  have invertible := (Matrix.isUnit_iff_isUnit_det matrix).mpr unit
  constructor
  · exact Matrix.mulVec_injective_of_isUnit invertible
  · exact Matrix.mulVec_surjective_iff_isUnit.mpr invertible

omit [Fintype ι] [CommRing R] in
theorem update_bijective (word : ι) {change : R → R} (bijective : Bijective change) :
    Bijective fun state : ι → R => update state word (change (state word)) := by
  constructor
  · intro left right same
    funext i
    by_cases at_word : i = word
    · subst at_word
      have raised := congrFun same i
      simp only [update_self] at raised
      exact bijective.injective raised
    · have kept := congrFun same i
      simpa only [update_of_ne at_word] using kept
  · intro state
    rcases bijective.surjective (state word) with ⟨value, value_eq⟩
    refine ⟨update state word value, ?_⟩
    simp only [update_self, update_idem, value_eq, update_eq_self]

/-- Rounds that are bijections for every constant, one after the other. -/
theorem foldl_bijective {σ κ : Type*} {round : σ → κ → σ}
    (bijective : ∀ constant, Bijective fun state => round state constant) (constants : List κ) :
    Bijective fun state => constants.foldl round state := by
  induction constants with
  | nil => exact bijective_id
  | cons constant constants ih => exact ih.comp (bijective constant)

namespace Network

variable {network : Network ι R} (invertible : network.Invertible)

include invertible

theorem fullRound_bijective (constants : ι → R) :
    Bijective fun state => network.fullRound state constants := by
  have words : Bijective fun (state : ι → R) i => (state i + constants i) ^ network.degree :=
    Bijective.piMap fun i => invertible.power.comp (Equiv.addRight (constants i)).bijective
  exact (mulVec_bijective invertible.external).comp words

theorem partialRound_bijective (constant : R) :
    Bijective fun state => network.partialRound state constant := by
  have raised := update_bijective network.word
    (invertible.power.comp (Equiv.addRight constant).bijective)
  exact (mulVec_bijective invertible.internal).comp raised

/-- No two states collide, and every state is reached. -/
theorem permutation_bijective (front : List (ι → R)) (middle : List R) (back : List (ι → R)) :
    Bijective (network.permutation front middle back) := by
  have opened := mulVec_bijective invertible.external
  have first := foldl_bijective (fullRound_bijective invertible) front
  have second := foldl_bijective (partialRound_bijective invertible) middle
  have third := foldl_bijective (fullRound_bijective invertible) back
  exact third.comp (second.comp (first.comp opened))

end Network

end Layers

end Solva.Rounds
