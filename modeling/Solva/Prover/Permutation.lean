import Mathlib.LinearAlgebra.Matrix.Determinant.Basic
import Mathlib.LinearAlgebra.Matrix.Notation
import Mathlib.Tactic.FinCases
import Mathlib.Tactic.Ring
import Solva.Field.Prime
import Solva.Field.Rounds
import Solva.Prover.Poseidon2

/-!
# The permutation as rounds

The straight-line additions of `tree.rs` are products with the matrices of the
construction, so the permutation is the construction at these matrices and constants,
and a bijection.
-/

namespace Solva.Prover.Poseidon2

open Bn254 Rounds

/-- The external matrix for four words. -/
def externalMatrix : Matrix (Fin 4) (Fin 4) Fr :=
  (!![5, 7, 1, 3; 4, 6, 1, 1; 1, 3, 5, 7; 1, 1, 4, 6] : Matrix (Fin 4) (Fin 4) Nat).map Nat.cast

def State.words (s : State) : Fin 4 → Fr :=
  ![s.s0, s.s1, s.s2, s.s3]

/-- All ones, and the diagonal of the file on top. -/
def internalMatrix : Matrix (Fin 4) (Fin 4) Fr :=
  Matrix.of (fun _ _ => 1) + Matrix.diagonal md.words

def network : Network (Fin 4) Fr :=
  ⟨5, externalMatrix, internalMatrix, 0⟩

theorem words_injective : Function.Injective State.words := by
  intro left right same
  rcases left with ⟨l0, l1, l2, l3⟩
  rcases right with ⟨r0, r1, r2, r3⟩
  have at0 : l0 = r0 := congrFun same 0
  have at1 : l1 = r1 := congrFun same 1
  have at2 : l2 = r2 := congrFun same 2
  have at3 : l3 = r3 := congrFun same 3
  rw [at0, at1, at2, at3]

theorem words_surjective : Function.Surjective State.words := by
  intro words
  refine ⟨⟨words 0, words 1, words 2, words 3⟩, ?_⟩
  funext i
  fin_cases i <;> rfl

/-! ## The layers -/

theorem sboxSingle_eq (x : Fr) : sboxSingle x = x ^ 5 := by
  rw [sboxSingle]
  ring

theorem words_matMulExternal (s : State) :
    (matMulExternal s).words = externalMatrix.mulVec s.words := by
  funext i
  rw [Matrix.mulVec, dotProduct, Fin.sum_univ_four]
  fin_cases i
  · show s.s3 + s.s3 + (s.s0 + s.s1) + _ =
        (5 : Nat) * s.s0 + (7 : Nat) * s.s1 + (1 : Nat) * s.s2 + (3 : Nat) * s.s3
    push_cast
    ring
  · show s.s0 + s.s1 + (s.s0 + s.s1) + _ + _ =
        (4 : Nat) * s.s0 + (6 : Nat) * s.s1 + (1 : Nat) * s.s2 + (1 : Nat) * s.s3
    push_cast
    ring
  · show s.s1 + s.s1 + (s.s2 + s.s3) + _ =
        (1 : Nat) * s.s0 + (3 : Nat) * s.s1 + (5 : Nat) * s.s2 + (7 : Nat) * s.s3
    push_cast
    ring
  · show s.s2 + s.s3 + (s.s2 + s.s3) + _ + _ =
        (1 : Nat) * s.s0 + (1 : Nat) * s.s1 + (4 : Nat) * s.s2 + (6 : Nat) * s.s3
    push_cast
    ring

theorem words_matMulInternal (s : State) :
    (matMulInternal s).words = internalMatrix.mulVec s.words := by
  have row (i : Fin 4) : internalMatrix.mulVec s.words i =
      s.words i * md.words i + (s.s0 + s.s1 + s.s2 + s.s3) := by
    rw [internalMatrix, Matrix.add_mulVec, Pi.add_apply, Matrix.mulVec_diagonal, Matrix.mulVec,
      dotProduct, Fin.sum_univ_four]
    simp only [Matrix.of_apply, one_mul]
    rw [add_comm, mul_comm]
    rfl
  funext i
  rw [row]
  fin_cases i <;> rfl

theorem words_fullRound (s c : State) :
    (fullRound s c).words = network.fullRound s.words c.words := by
  rw [fullRound, words_matMulExternal]
  congr 1
  funext i
  fin_cases i <;> exact sboxSingle_eq _

theorem words_partialRound (s : State) (c : Fr) :
    (partialRound s c).words = network.partialRound s.words c := by
  rw [partialRound, words_matMulInternal]
  congr 1
  funext i
  fin_cases i
  · exact sboxSingle_eq _
  · rfl
  · rfl
  · rfl

/-- Full rounds of the file are full rounds of the construction. -/
theorem words_foldl_fullRound (constants : List State) (s : State) :
    (constants.foldl fullRound s).words =
      (constants.map State.words).foldl network.fullRound s.words := by
  induction constants generalizing s with
  | nil => rfl
  | cons c constants ih =>
      rw [List.foldl_cons, ih, words_fullRound, List.map_cons, List.foldl_cons]

theorem words_foldl_partialRound (constants : List Fr) (s : State) :
    (constants.foldl partialRound s).words = constants.foldl network.partialRound s.words := by
  induction constants generalizing s with
  | nil => rfl
  | cons c constants ih => rw [List.foldl_cons, ih, words_partialRound, List.foldl_cons]

theorem words_permutation (s : State) :
    (permutation s).words = network.permutation (rcFirst.map State.words) rcPartial
      (rcLast.map State.words) s.words := by
  have external : network.external = externalMatrix := rfl
  rw [permutation, words_foldl_fullRound, words_foldl_partialRound, words_foldl_fullRound,
    words_matMulExternal, Network.permutation, external]

/-! ## Bijectivity -/

theorem card_fr : Nat.card Fr = p := by
  rw [Nat.card_eq_fintype_card, ZMod.card]

theorem det_externalMatrix : externalMatrix.det = -64 := by
  rw [externalMatrix, Matrix.det_succ_row_zero]
  simp [Fin.sum_univ_succ, Matrix.det_fin_three, Fin.succAbove]
  ring

/-- The determinant of all ones with a diagonal on top. -/
theorem det_ones_add_diagonal {R : Type*} [CommRing R] (d0 d1 d2 d3 : R) :
    (Matrix.of (fun _ _ => 1) + Matrix.diagonal ![d0, d1, d2, d3]).det =
      d0 * d1 * d2 * d3 + d1 * d2 * d3 + d0 * d2 * d3 + d0 * d1 * d3 + d0 * d1 * d2 := by
  rw [Matrix.det_succ_row_zero]
  simp [Fin.sum_univ_succ, Matrix.det_fin_three, Fin.succAbove, Matrix.diagonal]
  ring

theorem det_externalMatrix_ne_zero : externalMatrix.det ≠ 0 := by
  rw [det_externalMatrix]
  decide +kernel

theorem det_internalMatrix_ne_zero : internalMatrix.det ≠ 0 := by
  rw [internalMatrix, State.words, det_ones_add_diagonal]
  decide +kernel

theorem network_invertible : network.Invertible := by
  have field : Fact p.Prime := ⟨prime_p⟩
  constructor
  case power =>
    apply pow_bijective (by decide)
    rw [card_fr]
    decide +kernel
  case external => exact IsUnit.mk0 _ det_externalMatrix_ne_zero
  case internal => exact IsUnit.mk0 _ det_internalMatrix_ne_zero

theorem sboxSingle_bijective : Function.Bijective sboxSingle := by
  have power : sboxSingle = fun x => x ^ 5 := funext sboxSingle_eq
  rw [power]
  exact network_invertible.power

theorem permutation_bijective : Function.Bijective permutation := by
  have rounds : Function.Bijective (network.permutation (rcFirst.map State.words) rcPartial
      (rcLast.map State.words)) :=
    Network.permutation_bijective network_invertible _ _ _
  constructor
  · intro left right same
    apply words_injective
    apply rounds.injective
    rw [← words_permutation, ← words_permutation, same]
  · intro target
    rcases rounds.surjective target.words with ⟨words, words_eq⟩
    rcases words_surjective words with ⟨source, rfl⟩
    refine ⟨source, words_injective ?_⟩
    rw [words_permutation, words_eq]

/-- The permutation is the construction with the matrices and constants of the file,
and no two states collide. -/
theorem permutation_spec :
    (∀ s, (matMulExternal s).words = externalMatrix.mulVec s.words) ∧
    (∀ s, (matMulInternal s).words = internalMatrix.mulVec s.words) ∧
    (∀ x, sboxSingle x = x ^ 5) ∧
    (rcFirst.length = 4 ∧ rcPartial.length = 56 ∧ rcLast.length = 4) ∧
    (∀ s, (permutation s).words = network.permutation (rcFirst.map State.words) rcPartial
      (rcLast.map State.words) s.words) ∧
    (Function.Bijective sboxSingle ∧ IsUnit externalMatrix.det ∧ IsUnit internalMatrix.det) ∧
    Function.Bijective permutation := by
  constructor
  · exact words_matMulExternal
  constructor
  · exact words_matMulInternal
  constructor
  · exact sboxSingle_eq
  constructor
  · decide +kernel
  constructor
  · exact words_permutation
  constructor
  · exact ⟨sboxSingle_bijective, network_invertible.external, network_invertible.internal⟩
  · exact permutation_bijective

end Solva.Prover.Poseidon2
