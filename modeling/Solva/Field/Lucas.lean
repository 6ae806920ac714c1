import Mathlib.Data.List.Prime
import Mathlib.NumberTheory.LucasPrimality

/-!
# Primality by Lucas witnesses

Lucas's test with the powers computed by squaring, so that the kernel can evaluate a
witness for a prime of some hundred bits.
-/

namespace Solva.Lucas

/-- `base ^ exponent % n` for an exponent of at most `width` bits. -/
def powMod (n base : ℕ) : ℕ → ℕ → ℕ
  | 0, _ => 1 % n
  | width + 1, exponent =>
      powMod n base width (exponent / 2) ^ 2 * base ^ (exponent % 2) % n

theorem powMod_eq (n base : ℕ) {width exponent : ℕ} (fits : exponent < 2 ^ width) :
    powMod n base width exponent = base ^ exponent % n := by
  induction width generalizing exponent with
  | zero =>
      rw [Nat.pow_zero, Nat.lt_one_iff] at fits
      rw [fits, powMod, Nat.pow_zero]
  | succ width ih =>
      have half : exponent / 2 < 2 ^ width := by
        rw [Nat.pow_succ] at fits
        omega
      have parts : exponent / 2 * 2 + exponent % 2 = exponent := by omega
      calc powMod n base (width + 1) exponent
          = (base ^ (exponent / 2) % n) ^ 2 * base ^ (exponent % 2) % n := by
            rw [powMod, ih half]
        _ = (base ^ (exponent / 2)) ^ 2 * base ^ (exponent % 2) % n := by
            rw [Nat.mul_mod, ← Nat.pow_mod, ← Nat.mul_mod]
        _ = base ^ exponent % n := by
            rw [← Nat.pow_mul, ← Nat.pow_add, parts]

/-- A base of order `n - 1`, judged by the prime factors of `n - 1` and their
multiplicities. -/
structure IsWitness (n base width : ℕ) (factors : List (ℕ × ℕ)) : Prop where
  large : 1 < n
  fits : n ≤ 2 ^ width
  product : (factors.map fun factor => factor.1 ^ factor.2).prod = n - 1
  full : powMod n base width (n - 1) = 1
  part : ∀ factor ∈ factors, powMod n base width ((n - 1) / factor.1) ≠ 1

theorem isWitness_iff (n base width : ℕ) (factors : List (ℕ × ℕ)) :
    (1 < n ∧ n ≤ 2 ^ width ∧ (factors.map fun factor => factor.1 ^ factor.2).prod = n - 1 ∧
      powMod n base width (n - 1) = 1 ∧
        ∀ factor ∈ factors, powMod n base width ((n - 1) / factor.1) ≠ 1) ↔
      IsWitness n base width factors :=
  ⟨fun ⟨large, fits, product, full, part⟩ => ⟨large, fits, product, full, part⟩,
    fun witness => ⟨witness.large, witness.fits, witness.product, witness.full, witness.part⟩⟩

instance (n base width : ℕ) (factors : List (ℕ × ℕ)) :
    Decidable (IsWitness n base width factors) :=
  decidable_of_iff _ (isWitness_iff n base width factors)

theorem natCast_pow_eq_one_iff {n : ℕ} (large : 1 < n) (base exponent : ℕ) :
    (base : ZMod n) ^ exponent = 1 ↔ base ^ exponent % n = 1 := by
  rw [← Nat.cast_pow, ← Nat.cast_one, ZMod.natCast_eq_natCast_iff', Nat.mod_eq_of_lt large]

/-- A number with a witness over primes is prime. -/
theorem prime_of_isWitness {n base width : ℕ} {factors : List (ℕ × ℕ)}
    (witness : IsWitness n base width factors) (primes : ∀ factor ∈ factors, factor.1.Prime) :
    n.Prime := by
  have large := witness.large
  have fits := witness.fits
  apply lucas_primality n (base : ZMod n)
  · rw [natCast_pow_eq_one_iff large, ← powMod_eq n base (by omega : n - 1 < 2 ^ width)]
    exact witness.full
  · intro q q_prime divides
    rw [← witness.product] at divides
    rcases (Prime.dvd_prod_iff q_prime.prime).mp divides with ⟨power, mem, divides⟩
    rcases List.mem_map.mp mem with ⟨factor, factor_mem, rfl⟩
    have same : q = factor.1 :=
      (Nat.prime_dvd_prime_iff_eq q_prime (primes factor factor_mem)).mp
        (q_prime.dvd_of_dvd_pow divides)
    have quotient_le : (n - 1) / q ≤ n - 1 := Nat.div_le_self _ _
    rw [ne_eq, natCast_pow_eq_one_iff large,
      ← powMod_eq n base (by omega : (n - 1) / q < 2 ^ width), same]
    exact witness.part factor factor_mem

end Solva.Lucas
