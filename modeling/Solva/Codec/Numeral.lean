import Mathlib.Algebra.Order.Floor.Semifield
import Mathlib.Data.List.TakeWhile
import Mathlib.Data.Rat.Floor
import Mathlib.Tactic.FieldSimp
import Mathlib.Tactic.Ring
import Solva.Codec.Decimal

/-!
# Decimal numerals with a point

A numeral is a run of ASCII digits with at most one point in it. Its digits, padded or
cut to a number of places behind the point, write the floor of the scaled value.
-/

namespace Solva.Codec.Numeral

/-! ## The two sides of the point -/

/-- What stands before the first point. -/
def whole (text : List Char) : List Char :=
  text.takeWhile (· ≠ '.')

/-- What stands behind the first point. -/
def fraction (text : List Char) : List Char :=
  (text.dropWhile (· ≠ '.')).drop 1

theorem point_not_mem_whole (text : List Char) : '.' ∉ whole text := by
  intro mem
  have kept := List.mem_takeWhile_imp mem
  simp at kept

/-- A text has no point, or is its two sides around its first point. -/
theorem split_cases (text : List Char) :
    text = whole text ∧ fraction text = [] ∨ text = whole text ++ '.' :: fraction text := by
  have parts : whole text ++ text.dropWhile (· ≠ '.') = text := List.takeWhile_append_dropWhile
  cases behind : text.dropWhile (· ≠ '.') with
  | nil =>
      rw [behind, List.append_nil] at parts
      exact Or.inl ⟨parts.symm, by rw [fraction, behind]; rfl⟩
  | cons c rest =>
      have point : c = '.' := by
        have stopped := List.head_dropWhile_not (fun c : Char => decide (c ≠ '.')) (l := text)
          (by rw [behind]; exact List.cons_ne_nil _ _)
        simp only [behind, List.head_cons] at stopped
        simpa using stopped
      right
      rw [fraction, behind, List.drop_one, List.tail_cons]
      rw [behind, point] at parts
      exact parts.symm

theorem whole_append {before after : List Char} (absent : '.' ∉ before) :
    whole (before ++ '.' :: after) = before := by
  have kept : ∀ c ∈ before, decide (c ≠ '.') = true := by
    intro c mem
    exact decide_eq_true fun equal => absent (equal ▸ mem)
  rw [whole, List.takeWhile_append_of_pos kept]
  simp

theorem fraction_append {before after : List Char} (absent : '.' ∉ before) :
    fraction (before ++ '.' :: after) = after := by
  have kept : ∀ c ∈ before, decide (c ≠ '.') = true := by
    intro c mem
    exact decide_eq_true fun equal => absent (equal ▸ mem)
  rw [fraction, List.dropWhile_append_of_pos kept]
  simp

theorem whole_cons {c : Char} (other : c ≠ '.') (rest : List Char) :
    whole (c :: rest) = c :: whole rest :=
  List.takeWhile_cons_of_pos (decide_eq_true other)

theorem fraction_cons {c : Char} (other : c ≠ '.') (rest : List Char) :
    fraction (c :: rest) = fraction rest :=
  congrArg (List.drop 1) (List.dropWhile_cons_of_pos (decide_eq_true other))

/-! ## Numerals -/

/-- Digits with at most one point, and at least one digit. -/
structure IsNumeral (text : List Char) : Prop where
  chars : ∀ c ∈ text, c.isDigit ∨ c = '.'
  points : text.count '.' ≤ 1
  digit : ∃ c ∈ text, c.isDigit

theorem point_not_digit {digits : List Char} (all : ∀ c ∈ digits, c.isDigit) : '.' ∉ digits := by
  intro mem
  exact absurd (all '.' mem) (by decide)

/-- A numeral has digits on both sides, and not none on both. -/
theorem isNumeral_iff {text : List Char} :
    IsNumeral text ↔ (∀ c ∈ whole text, c.isDigit) ∧ (∀ c ∈ fraction text, c.isDigit) ∧
      ¬ (whole text = [] ∧ fraction text = []) := by
  have absent := point_not_mem_whole text
  rcases split_cases text with ⟨plain, empty⟩ | pointed
  · rw [empty]
    constructor
    · rintro ⟨chars, _, c, mem, digit⟩
      refine ⟨fun other other_mem => ?_, by simp, fun none => ?_⟩
      · rcases chars other (plain ▸ other_mem) with digit | point
        · exact digit
        · exact absurd (point ▸ other_mem) absent
      · rw [plain, none.1] at mem
        cases mem
    · rintro ⟨digits, _, some⟩
      rcases List.exists_mem_of_ne_nil _ fun none => some ⟨none, rfl⟩ with ⟨c, mem⟩
      constructor
      · intro other other_mem
        exact Or.inl (digits other (plain ▸ other_mem))
      · rw [plain, List.count_eq_zero_of_not_mem absent]
        exact Nat.zero_le 1
      · exact ⟨c, plain ▸ mem, digits c mem⟩
  · have count_eq : text.count '.' = 1 + (fraction text).count '.' := by
      conv_lhs => rw [pointed, List.count_append, List.count_cons_self,
        List.count_eq_zero_of_not_mem absent]
      omega
    have mem_iff (c : Char) : c ∈ text ↔ c ∈ whole text ∨ c = '.' ∨ c ∈ fraction text := by
      conv_lhs => rw [pointed, List.mem_append, List.mem_cons]
    constructor
    · rintro ⟨chars, points, c, mem, digit⟩
      have absent_fraction : '.' ∉ fraction text :=
        List.count_eq_zero.mp (by omega)
      refine ⟨fun other other_mem => ?_, fun other other_mem => ?_, fun none => ?_⟩
      · rcases chars other ((mem_iff other).mpr (Or.inl other_mem)) with digit | point
        · exact digit
        · exact absurd (point ▸ other_mem) absent
      · rcases chars other ((mem_iff other).mpr (Or.inr (Or.inr other_mem))) with digit | point
        · exact digit
        · exact absurd (point ▸ other_mem) absent_fraction
      · rw [mem_iff, none.1, none.2] at mem
        rcases mem with mem | rfl | mem
        · cases mem
        · exact absurd digit (by decide)
        · cases mem
    · rintro ⟨digits, fraction_digits, some⟩
      constructor
      · intro c mem
        rcases (mem_iff c).mp mem with mem | point | mem
        · exact Or.inl (digits c mem)
        · exact Or.inr point
        · exact Or.inl (fraction_digits c mem)
      · rw [count_eq, List.count_eq_zero_of_not_mem (point_not_digit fraction_digits)]
      · by_cases none : whole text = []
        · rcases List.exists_mem_of_ne_nil _ fun empty => some ⟨none, empty⟩ with ⟨c, mem⟩
          exact ⟨c, (mem_iff c).mpr (Or.inr (Or.inr mem)), fraction_digits c mem⟩
        · rcases List.exists_mem_of_ne_nil _ none with ⟨c, mem⟩
          exact ⟨c, (mem_iff c).mpr (Or.inl mem), digits c mem⟩

/-! ## The scaled value -/

/-- The number that digits with a point write. -/
def value (text : List Char) : ℚ :=
  (Nat.ofDigitChars 10 (whole text) 0 : ℚ) +
    (Nat.ofDigitChars 10 (fraction text) 0 : ℚ) / (10 : ℚ) ^ (fraction text).length

/-- What stands behind the point, cut or padded to so many places. -/
def fractionTo (places : Nat) (text : List Char) : List Char :=
  (fraction text).take places ++ List.replicate (places - (fraction text).length) '0'

/-- The digits up to so many places behind the point. -/
def scaled (places : Nat) (text : List Char) : List Char :=
  whole text ++ fractionTo places text

theorem length_fractionTo (places : Nat) (text : List Char) :
    (fractionTo places text).length = places := by
  rw [fractionTo, List.length_append, List.length_take, List.length_replicate]
  omega

theorem fractionTo_isDigit {places : Nat} {text : List Char}
    (digits : ∀ c ∈ (fraction text).take places, c.isDigit) :
    ∀ c ∈ fractionTo places text, c.isDigit := by
  intro c mem
  rcases List.mem_append.mp mem with mem | mem
  · exact digits c mem
  · rw [List.eq_of_mem_replicate mem]
    decide

theorem ofDigitChars_append (left right : List Char) :
    Nat.ofDigitChars 10 (left ++ right) 0 =
      Nat.ofDigitChars 10 left 0 * 10 ^ right.length + Nat.ofDigitChars 10 right 0 := by
  rw [Nat.ofDigitChars_append, Nat.ofDigitChars_eq_ofDigitChars_zero, Nat.mul_comm]

theorem ofDigitChars_lt {digits : List Char} (all : ∀ c ∈ digits, c.isDigit) :
    Nat.ofDigitChars 10 digits 0 < 10 ^ digits.length := by
  induction digits with
  | nil => decide
  | cons c rest ih =>
      have digit : c.toNat - '0'.toNat < 10 := by
        have range : 48 ≤ c.toNat ∧ c.toNat ≤ 57 :=
          Char.isDigit_iff_toNat.mp (all c List.mem_cons_self)
        have zero : '0'.toNat = 48 := by decide
        omega
      have rest_lt := ih fun other mem => all other (List.mem_cons_of_mem c mem)
      rw [Nat.ofDigitChars_cons, Nat.ofDigitChars_eq_ofDigitChars_zero, Nat.mul_zero, Nat.zero_add,
        List.length_cons, Nat.pow_succ]
      nlinarith

/-- Cutting or padding the digits behind the point is the floor of the scaled value. -/
theorem ofDigitChars_scaled {text : List Char} (places : Nat)
    (digits : ∀ c ∈ fraction text, c.isDigit) :
    Nat.ofDigitChars 10 (scaled places text) 0 = ⌊value text * 10 ^ places⌋₊ := by
  generalize before_eq : Nat.ofDigitChars 10 (whole text) 0 = before
  generalize behind_eq : Nat.ofDigitChars 10 (fraction text) 0 = behind
  generalize width_eq : (fraction text).length = width
  have quotient : value text * 10 ^ places =
      ((((before * 10 ^ width + behind) * 10 ^ places : ℕ) : ℚ) / ((10 ^ width : ℕ) : ℚ)) := by
    rw [value, before_eq, behind_eq, width_eq]
    push_cast
    field_simp
  have written : Nat.ofDigitChars 10 (scaled places text) 0 = before * 10 ^ places +
      Nat.ofDigitChars 10 ((fraction text).take places) 0 * 10 ^ (places - width) := by
    rw [scaled, ofDigitChars_append, length_fractionTo, fractionTo, Nat.ofDigitChars_append,
      Nat.ofDigitChars_replicate_zero, before_eq, width_eq, Nat.mul_comm (10 ^ (places - width))]
  rw [quotient, Nat.floor_div_eq_div, written]
  by_cases cut : places ≤ width
  · have powers : 10 ^ width = 10 ^ (width - places) * 10 ^ places := by
      rw [← Nat.pow_add, Nat.sub_add_cancel cut]
    have parts : behind = Nat.ofDigitChars 10 ((fraction text).take places) 0 *
        10 ^ (width - places) + Nat.ofDigitChars 10 ((fraction text).drop places) 0 := by
      rw [← behind_eq, ← width_eq, ← List.length_drop, ← ofDigitChars_append,
        List.take_append_drop]
    have rest_lt : Nat.ofDigitChars 10 ((fraction text).drop places) 0 < 10 ^ (width - places) := by
      rw [← width_eq, ← List.length_drop]
      exact ofDigitChars_lt fun c mem => digits c (List.mem_of_mem_drop mem)
    have small : before * 10 ^ width + behind =
        (before * 10 ^ places + Nat.ofDigitChars 10 ((fraction text).take places) 0) *
          10 ^ (width - places) + Nat.ofDigitChars 10 ((fraction text).drop places) 0 := by
      rw [powers, parts]
      ring
    rw [Nat.sub_eq_zero_of_le cut, Nat.pow_zero, Nat.mul_one]
    conv_rhs => rw [powers]
    rw [Nat.mul_div_mul_right _ _ (Nat.pow_pos (by decide)), ← powers, small,
      Nat.mul_comm _ (10 ^ (width - places)), Nat.mul_add_div (Nat.pow_pos (by decide)),
      Nat.div_eq_of_lt rest_lt, Nat.add_zero]
  · have padded : width ≤ places := Nat.le_of_not_le cut
    have powers : 10 ^ places = 10 ^ (places - width) * 10 ^ width := by
      rw [← Nat.pow_add, Nat.sub_add_cancel padded]
    rw [List.take_of_length_le (width_eq ▸ padded), behind_eq]
    conv_rhs => rw [powers, ← Nat.mul_assoc]
    rw [Nat.mul_div_cancel _ (Nat.pow_pos (by decide)), powers]
    ring

end Solva.Codec.Numeral
