import Mathlib.Tactic.NormNum
import Mathlib.Data.List.Basic

/-!
# Decimal text

Amounts cross the tiers as decimal strings. `unsigned?` reads a nonempty run of
ASCII digits of any length and `signed?` allows one leading sign; both accept
leading zeros. `Nat.repr` is the canonical rendering, and reading it back gives
the number.
-/

namespace Solva.Codec.Decimal

/-- The value of a nonempty run of ASCII digits. -/
def unsigned? (text : List Char) : Option Nat :=
  if text ≠ [] ∧ text.all Char.isDigit then some (Nat.ofDigitChars 10 text 0) else none

/-- The value of a run of digits behind at most one sign. -/
def signed? : List Char → Option Int
  | '-' :: digits => (unsigned? digits).map fun n => -(n : Int)
  | '+' :: digits => (unsigned? digits).map Int.ofNat
  | digits => (unsigned? digits).map Int.ofNat

theorem unsigned?_eq_some_iff {text : List Char} {n : Nat} :
    unsigned? text = some n ↔
      text ≠ [] ∧ (∀ c ∈ text, c.isDigit) ∧ n = Nat.ofDigitChars 10 text 0 := by
  unfold unsigned?
  split
  · rename_i digits
    simp only [List.all_eq_true] at digits
    simp only [Option.some.injEq]
    exact ⟨fun equal => ⟨digits.1, digits.2, equal.symm⟩, fun parts => parts.2.2.symm⟩
  · rename_i notDigits
    simp only [reduceCtorEq, false_iff]
    rintro ⟨nonempty, digits, _⟩
    exact notDigits ⟨nonempty, List.all_eq_true.mpr digits⟩

theorem repr_isDigit {n : Nat} {c : Char} (mem : c ∈ n.repr.toList) : c.isDigit := by
  rw [Nat.toList_repr] at mem
  exact Nat.isDigit_of_mem_toDigits (by decide) (by decide) mem

@[simp]
theorem unsigned?_repr (n : Nat) : unsigned? n.repr.toList = some n := by
  rw [unsigned?_eq_some_iff]
  refine ⟨?_, fun c mem => repr_isDigit mem, ?_⟩
  · rw [Nat.toList_repr]
    exact Nat.toDigits_ne_nil
  · rw [Nat.toList_repr, Nat.ofDigitChars_ten_toDigits]

/-- A run of digits carries no sign. -/
theorem signed?_of_unsigned? {text : List Char} {n : Nat}
    (read : unsigned? text = some n) : signed? text = some (n : Int) := by
  have digits := (unsigned?_eq_some_iff.mp read).2.1
  have plain : signed? text = (unsigned? text).map Int.ofNat := by
    unfold signed?
    split
    · have digit := digits '-' (by simp)
      exact absurd digit (by decide)
    · have digit := digits '+' (by simp)
      exact absurd digit (by decide)
    · rfl
  rw [plain, read]
  rfl

/-- An optionally signed decimal integer: a nonempty run of digits behind at most one
sign. -/
def Signed (text : List Char) (value : Int) : Prop :=
  ∃ digits n, digits ≠ [] ∧ (∀ c ∈ digits, c.isDigit) ∧ n = Nat.ofDigitChars 10 digits 0 ∧
    (text = digits ∧ value = n ∨ text = '+' :: digits ∧ value = n ∨
      text = '-' :: digits ∧ value = -n)

theorem signed?_minus (digits : List Char) :
    signed? ('-' :: digits) = (unsigned? digits).map fun n : Nat => -(n : Int) := by
  rw [signed?]
  cases unsigned? digits <;> rfl

/-- Reading a sign and digits succeeds exactly on the signed integers. -/
theorem signed?_eq_some_iff {text : List Char} {value : Int} :
    signed? text = some value ↔ Signed text value := by
  constructor
  · intro read
    rw [signed?.eq_def] at read
    split at read
    · rw [← signed?, signed?_minus] at read
      obtain ⟨n, digits_read, rfl⟩ := Option.map_eq_some_iff.mp read
      obtain ⟨nonempty, digits, n_eq⟩ := unsigned?_eq_some_iff.mp digits_read
      exact ⟨_, n, nonempty, digits, n_eq, Or.inr (Or.inr ⟨rfl, rfl⟩)⟩
    · obtain ⟨n, digits_read, rfl⟩ := Option.map_eq_some_iff.mp read
      obtain ⟨nonempty, digits, n_eq⟩ := unsigned?_eq_some_iff.mp digits_read
      exact ⟨_, n, nonempty, digits, n_eq, Or.inr (Or.inl ⟨rfl, rfl⟩)⟩
    · obtain ⟨n, digits_read, rfl⟩ := Option.map_eq_some_iff.mp read
      obtain ⟨nonempty, digits, n_eq⟩ := unsigned?_eq_some_iff.mp digits_read
      exact ⟨_, n, nonempty, digits, n_eq, Or.inl ⟨rfl, rfl⟩⟩
  · rintro ⟨digits, n, nonempty, all_digits, n_eq, spelled⟩
    have read : unsigned? digits = some n :=
      unsigned?_eq_some_iff.mpr ⟨nonempty, all_digits, n_eq⟩
    rcases spelled with ⟨rfl, rfl⟩ | ⟨rfl, rfl⟩ | ⟨rfl, rfl⟩
    · exact signed?_of_unsigned? read
    · rw [signed?, read]
      rfl
    · rw [signed?_minus, read]
      rfl

@[simp]
theorem signed?_repr (n : Nat) : signed? n.repr.toList = some (n : Int) :=
  signed?_of_unsigned? (unsigned?_repr n)

theorem repr_injective : Function.Injective Nat.repr := by
  intro left right equal
  have read := congrArg (fun text => unsigned? text.toList) equal
  simpa only [unsigned?_repr, Option.some.injEq] using read

@[simp]
theorem repr_eq_zero_iff {n : Nat} : n.repr = "0" ↔ n = 0 :=
  ⟨fun equal => repr_injective equal, fun zero => by rw [zero]; rfl⟩

end Solva.Codec.Decimal
