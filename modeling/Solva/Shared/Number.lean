import Mathlib.Algebra.Order.Ring.Rat
import Mathlib.Data.Nat.Log
import Mathlib.Tactic.Linarith
import Mathlib.Tactic.NormNum

/-!
# Numbers

JavaScript's numbers as a parameter, and an instance: integers are rounded to the
nearest double on their way from `bigint`, the other operations are exact.
-/

namespace Solva.Shared

/-- JavaScript's numbers, as far as the detection of anomalies uses them. -/
class JsNumbers (ν : Type) where
  /-- `Number(n)` of a `bigint`, and the number of an integer. -/
  ofInt : Int → ν
  infinity : ν
  div : ν → ν → ν
  mul : ν → ν → ν
  neg : ν → ν
  abs : ν → ν
  /-- `a <= b`. -/
  le : ν → ν → Bool
  /-- `a < b`. -/
  lt : ν → ν → Bool

/-- Numbers in texts. -/
class NumberText (ν : Type) where
  /-- `toFixed(2)`. -/
  toFixed2 : ν → String
  /-- A number in a template. -/
  print : ν → String

/-! ## Doubles of integers -/

/-- An integer rounded to 53 significant bits, ties to even. -/
def roundBits (n : Nat) : Nat :=
  if n < 2 ^ 53 then n
  else
    let unit := 2 ^ (n.log2 - 52)
    let up := unit < 2 * (n % unit) ∨ 2 * (n % unit) = unit ∧ (n / unit) % 2 = 1
    (if up then n / unit + 1 else n / unit) * unit

/-- A double, its finite values taken as rationals. -/
inductive Number where
  | finite (value : ℚ)
  | infinity
  | negInfinity
  | nan
  deriving DecidableEq

namespace Number

/-- `Number(n)`. -/
def ofInt (n : Int) : Number :=
  if 2 ^ 1024 ≤ roundBits n.natAbs then if n < 0 then negInfinity else infinity
  else finite (if n < 0 then -(roundBits n.natAbs : ℚ) else (roundBits n.natAbs : ℚ))

def neg : Number → Number
  | finite a => finite (-a)
  | infinity => negInfinity
  | negInfinity => infinity
  | nan => nan

def abs : Number → Number
  | finite a => finite |a|
  | infinity => infinity
  | negInfinity => infinity
  | nan => nan

/-- Infinity with the sign of a number. -/
def signed (a : ℚ) : Number :=
  if 0 < a then infinity else if a < 0 then negInfinity else nan

/-- Multiplication, exact. -/
def mul : Number → Number → Number
  | finite a, finite b => finite (a * b)
  | finite a, infinity => signed a
  | finite a, negInfinity => signed (-a)
  | infinity, finite b => signed b
  | negInfinity, finite b => signed (-b)
  | infinity, infinity => infinity
  | infinity, negInfinity => negInfinity
  | negInfinity, infinity => negInfinity
  | negInfinity, negInfinity => infinity
  | nan, _ => nan
  | _, nan => nan

/-- Division, exact; zero divides as positive zero. -/
def div : Number → Number → Number
  | finite a, finite b => if b = 0 then signed a else finite (a / b)
  | finite _, infinity => finite 0
  | finite _, negInfinity => finite 0
  | infinity, finite b => if b < 0 then negInfinity else infinity
  | negInfinity, finite b => if b < 0 then infinity else negInfinity
  | _, _ => nan

def lt : Number → Number → Bool
  | finite a, finite b => a < b
  | finite _, infinity => true
  | negInfinity, finite _ => true
  | negInfinity, infinity => true
  | _, _ => false

def le : Number → Number → Bool
  | finite a, finite b => a ≤ b
  | finite _, infinity => true
  | negInfinity, finite _ => true
  | negInfinity, infinity => true
  | infinity, infinity => true
  | negInfinity, negInfinity => true
  | _, _ => false

instance : JsNumbers Number where
  ofInt := ofInt
  infinity := infinity
  div := div
  mul := mul
  neg := neg
  abs := abs
  le := le
  lt := lt

theorem jsNumbers_ofInt (n : Int) : (JsNumbers.ofInt n : Number) = ofInt n :=
  rfl

/-! ## Texts -/

/-- Two digits. -/
def twoDigits (n : Nat) : String :=
  if n < 10 then "0" ++ toString n else toString n

/-- `toFixed(2)` below `10^21`: the nearest hundredth, the larger one of two. -/
def toFixed2 : Number → String
  | finite a =>
      let hundredths := (|a| * 100 + 1 / 2).floor.toNat
      (if a < 0 then "-" else "") ++ toString (hundredths / 100) ++ "." ++
        twoDigits (hundredths % 100)
  | infinity => "Infinity"
  | negInfinity => "-Infinity"
  | nan => "NaN"

/-- An integer below `10^21` in a template. -/
def print : Number → String
  | finite a => toString a.floor
  | infinity => "Infinity"
  | negInfinity => "-Infinity"
  | nan => "NaN"

instance : NumberText Number where
  toFixed2 := toFixed2
  print := print

/-! ## Rounding -/

/-- Integers below `2^53` are doubles. -/
theorem ofInt_of_lt {n : Int} (small : n.natAbs < 2 ^ 53) : ofInt n = finite n := by
  have exact : roundBits n.natAbs = n.natAbs := if_pos small
  have bounded : ¬ 2 ^ 1024 ≤ n.natAbs := by
    have powers : 2 ^ 53 < 2 ^ 1024 := by decide +kernel
    omega
  rw [ofInt, exact, if_neg bounded]
  congr 1
  split
  · rw [← Int.cast_natCast, ← Int.cast_neg]
    congr 1
    omega
  · rw [← Int.cast_natCast]
    congr 1
    omega

/-- Larger ones do not become smaller than that. -/
theorem le_roundBits {n : Nat} (large : 2 ^ 53 ≤ n) : 2 ^ 53 ≤ roundBits n := by
  have width : 53 ≤ n.log2 := (Nat.le_log2 (by omega)).mpr large
  have lead : 2 ^ n.log2 ≤ n := Nat.log2_self_le (by omega)
  have units : 2 ^ 52 ≤ n / 2 ^ (n.log2 - 52) := by
    rw [Nat.le_div_iff_mul_le (Nat.pow_pos (by decide)), ← Nat.pow_add]
    have sum : 52 + (n.log2 - 52) = n.log2 := by omega
    rw [sum]
    exact lead
  have unit : 2 ^ 1 ≤ 2 ^ (n.log2 - 52) := Nat.pow_le_pow_right (by decide) (by omega)
  rw [roundBits, if_neg (Nat.not_lt.mpr large)]
  dsimp only
  have floor : 2 ^ 53 ≤ n / 2 ^ (n.log2 - 52) * 2 ^ (n.log2 - 52) :=
    calc
      2 ^ 53 = 2 ^ 52 * 2 ^ 1 := by decide
      _ ≤ n / 2 ^ (n.log2 - 52) * 2 ^ (n.log2 - 52) := Nat.mul_le_mul units unit
  split
  · exact Nat.le_trans floor (Nat.mul_le_mul_right _ (Nat.le_succ _))
  · exact floor

/-- Rounding keeps which of the bounds up to `2^53` an integer reaches. -/
theorem le_ofInt_iff {k n : Int} (natural : 0 ≤ k) (small : k ≤ 2 ^ 53) :
    le (finite k) (ofInt n) = true ↔ k ≤ n := by
  by_cases exact : n.natAbs < 2 ^ 53
  · rw [ofInt_of_lt exact, le, decide_eq_true_iff]
    exact Int.cast_le
  · have large : (2 ^ 53 : ℚ) ≤ (roundBits n.natAbs : ℚ) := by
      exact_mod_cast le_roundBits (Nat.not_lt.mp exact)
    rw [ofInt]
    by_cases negative : n < 0
    · have out : ¬ k ≤ n := by omega
      rw [if_pos negative, if_pos negative]
      simp only [out, iff_false, Bool.not_eq_true]
      split
      · rfl
      · have nonneg : (0 : ℚ) ≤ k := by exact_mod_cast natural
        simp only [le, decide_eq_false_iff_not, not_le]
        linarith
    · have reached : k ≤ n := by omega
      rw [if_neg negative, if_neg negative]
      simp only [reached, iff_true]
      split
      · rfl
      · have bounded : (k : ℚ) ≤ 2 ^ 53 := by exact_mod_cast small
        simp only [le, decide_eq_true_eq]
        linarith

end Number

/-- What the comparison of whole seconds needs of numbers. -/
class LawfulNumbers (ν : Type) [JsNumbers ν] : Prop where
  lt_ofInt : ∀ n : Nat, JsNumbers.lt (JsNumbers.ofInt (-1) : ν) (JsNumbers.ofInt n) = true
  ofInt_ne_zero : ∀ n : Nat, 0 < n → n < 2 ^ 53 →
    (JsNumbers.ofInt n : ν) ≠ JsNumbers.ofInt 0

instance : LawfulNumbers Number where
  lt_ofInt n := by
    have minus : Number.ofInt (-1) = .finite (-1) := by decide +kernel
    have natural : ¬ (n : Int) < 0 := by omega
    show Number.lt (Number.ofInt (-1)) (Number.ofInt n) = true
    rw [minus, Number.ofInt, if_neg natural, if_neg natural]
    split
    · rfl
    · simp only [Number.lt, decide_eq_true_eq]
      have nonneg : (0 : ℚ) ≤ (roundBits (n : Int).natAbs : ℚ) := Nat.cast_nonneg _
      linarith
  ofInt_ne_zero n pos small := by
    show Number.ofInt n ≠ Number.ofInt ((0 : Nat) : Int)
    rw [Number.ofInt_of_lt (by omega), Number.ofInt_of_lt (by omega)]
    intro equal
    have values := Number.finite.inj equal
    simp only [Int.cast_natCast, Nat.cast_inj] at values
    omega

end Solva.Shared
