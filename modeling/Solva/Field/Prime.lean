import Mathlib.Tactic.NormNum.Prime
import Solva.Field.Bn254
import Solva.Field.Lucas

/-!
# The BN254 scalar modulus is prime

The factors of `p - 1`, and of the larger factors less one, down to primes that are
checked by division.
-/

namespace Solva.Bn254

open Lucas

theorem prime_405928799 : Nat.Prime 405928799 := by
  have witness : IsWitness 405928799 22 32 [(2, 1), (11, 1), (3691, 1), (4999, 1)] := by
    decide +kernel
  apply prime_of_isWitness witness
  simp only [List.forall_mem_cons]
  norm_num

theorem prime_12048837557 : Nat.Prime 12048837557 := by
  have witness : IsWitness 12048837557 2 64 [(2, 2), (7, 2), (661, 1), (93001, 1)] := by
    decide +kernel
  apply prime_of_isWitness witness
  simp only [List.forall_mem_cons]
  norm_num

theorem prime_5156902474397 : Nat.Prime 5156902474397 := by
  have witness : IsWitness 5156902474397 2 64 [(2, 2), (107, 1), (12048837557, 1)] := by
    decide +kernel
  apply prime_of_isWitness witness
  simp only [List.forall_mem_cons]
  exact ⟨by norm_num, by norm_num, prime_12048837557, by simp⟩

theorem prime_1670836401704629 : Nat.Prime 1670836401704629 := by
  have witness : IsWitness 1670836401704629 2 64 [(2, 2), (3, 4), (5156902474397, 1)] := by
    decide +kernel
  apply prime_of_isWitness witness
  simp only [List.forall_mem_cons]
  exact ⟨by norm_num, by norm_num, prime_5156902474397, by simp⟩

theorem prime_639533339 : Nat.Prime 639533339 := by
  have witness : IsWitness 639533339 2 32 [(2, 1), (229, 1), (853, 1), (1637, 1)] := by
    decide +kernel
  apply prime_of_isWitness witness
  simp only [List.forall_mem_cons]
  norm_num

theorem prime_65865678001877903 : Nat.Prime 65865678001877903 := by
  have witness : IsWitness 65865678001877903 5 64
      [(2, 1), (83, 1), (379, 1), (1637, 1), (639533339, 1)] := by
    decide +kernel
  apply prime_of_isWitness witness
  simp only [List.forall_mem_cons]
  exact ⟨by norm_num, by norm_num, by norm_num, by norm_num, prime_639533339, by simp⟩

theorem prime_13818364434197438864469338081 : Nat.Prime 13818364434197438864469338081 := by
  have witness : IsWitness 13818364434197438864469338081 3 128
      [(2, 5), (5, 1), (823, 1), (1593227, 1), (65865678001877903, 1)] := by
    decide +kernel
  apply prime_of_isWitness witness
  simp only [List.forall_mem_cons]
  exact ⟨by norm_num, by norm_num, by norm_num, by norm_num, prime_65865678001877903, by simp⟩

/-- The field modulus is prime. -/
theorem prime_p : Nat.Prime p := by
  have witness : IsWitness p 5 256
      [(2, 28), (3, 2), (13, 1), (29, 1), (983, 1), (11003, 1), (237073, 1), (405928799, 1),
        (1670836401704629, 1), (13818364434197438864469338081, 1)] := by
    decide +kernel
  apply prime_of_isWitness witness
  simp only [List.forall_mem_cons]
  exact ⟨by norm_num, by norm_num, by norm_num, by norm_num, by norm_num, by norm_num, by norm_num,
    prime_405928799, prime_1670836401704629, prime_13818364434197438864469338081, by simp⟩

end Solva.Bn254
