import Mathlib.Data.List.Basic
import Mathlib.Data.List.Infix

/-!
# Text

White space at the ends of a text, and words inside a longer text.
-/

namespace Solva.Codec.Text

/-! ## White space -/

/-- Unicode `White_Space`: Go's `unicode.IsSpace` and Rust's `char::is_whitespace`. -/
def isWhiteSpace (c : Char) : Bool :=
  c.toNat ∈ [0x20, 0x85, 0xa0, 0x1680, 0x2028, 0x2029, 0x202f, 0x205f, 0x3000] ∨
    0x9 ≤ c.toNat ∧ c.toNat ≤ 0xd ∨ 0x2000 ≤ c.toNat ∧ c.toNat ≤ 0x200a

/-- Drop what satisfies a predicate from both ends. -/
def trimBoth (drop : Char → Bool) (text : List Char) : List Char :=
  ((text.dropWhile drop).reverse.dropWhile drop).reverse

/-- `strings.TrimSpace`, and `str::trim`. -/
def trimSpace (text : List Char) : List Char :=
  trimBoth isWhiteSpace text

theorem dropWhile_of_forall {drop : Char → Bool} {text : List Char}
    (kept : ∀ c ∈ text, drop c = false) : text.dropWhile drop = text := by
  cases text with
  | nil => rfl
  | cons c rest => rw [List.dropWhile_cons, kept c List.mem_cons_self]; rfl

/-- Nothing is dropped from a text without anything to drop. -/
theorem trimBoth_of_forall {drop : Char → Bool} {text : List Char}
    (kept : ∀ c ∈ text, drop c = false) : trimBoth drop text = text := by
  rw [trimBoth, dropWhile_of_forall kept,
    dropWhile_of_forall fun c mem => kept c (List.mem_reverse.mp mem), List.reverse_reverse]

/-! ## Words -/

section Words

variable {α : Type*} {word left right : List α} {separator : α}

/-- Only the empty word starts a text at a separator that it does not have. -/
theorem eq_nil_of_prefix_cons (absent : separator ∉ word) (starts : word <+: separator :: right) :
    word = [] := by
  cases word with
  | nil => rfl
  | cons letter rest =>
      rcases List.cons_prefix_cons.mp starts with ⟨rfl, _⟩
      exact absurd List.mem_cons_self absent

/-- A word without the separator lies on one side of it. -/
theorem infix_append_cons_iff (absent : separator ∉ word) :
    word <:+: left ++ separator :: right ↔ word <:+: left ∨ word <:+: right := by
  constructor
  · intro inside
    rcases List.infix_append_iff.mp inside with inside | inside | ⟨front, back, rfl, ends, starts⟩
    · exact Or.inl inside
    · rcases List.infix_cons_iff.mp inside with starts | inside
      · rw [eq_nil_of_prefix_cons absent starts]
        exact Or.inr List.nil_infix
      · exact Or.inr inside
    · have absent_back : separator ∉ back := fun mem => absent (List.mem_append_right _ mem)
      rw [eq_nil_of_prefix_cons absent_back starts, List.append_nil]
      exact Or.inl ends.isInfix
  · rintro (inside | inside)
    · exact List.infix_append_of_infix_left inside
    · exact List.infix_append_of_infix_right (List.infix_cons inside)

/-- A word is not inside a shorter text. -/
theorem not_infix_of_length_lt (short : left.length < word.length) : ¬ word <:+: left :=
  fun inside => absurd inside.length_le (Nat.not_le.mpr short)

end Words

end Solva.Codec.Text
