import Solva.Website.Amount

/-!
# Amounts from display and back

`formatAmount` writes a number of base units with separators between groups of three
digits and a fraction of fixed width. Reading the text gives the number back.
-/

namespace Solva.Website

open Codec Sdk

/-! ## `formatAmount` -/

/-- `\w`. -/
def isWordChar (c : Char) : Bool :=
  c.isAlphanum ∨ c = '_'

/-- `(\d{3})+(?!\d)` at the front of a text. -/
def threesAhead : List Char → Bool
  | a :: b :: c :: rest =>
      a.isDigit && b.isDigit && c.isDigit && (!rest.head?.any Char.isDigit || threesAhead rest)
  | _ => false

/-- `text.replace(GROUPING, ",")`, behind a word character or not. Of `\B` and the
look-ahead, the second never holds at the end. -/
def replaceGrouping (wordBefore : Bool) : List Char → List Char
  | [] => []
  | c :: rest =>
      if wordBefore = isWordChar c ∧ threesAhead (c :: rest) then
        ',' :: c :: replaceGrouping (isWordChar c) rest
      else c :: replaceGrouping (isWordChar c) rest

/-- `text.padStart(length, "0")`. -/
def padStart (length : Nat) (text : List Char) : List Char :=
  List.replicate (length - text.length) '0' ++ text

/-- `formatAmount`. -/
def formatAmount (baseUnits : Int) (decimals : Nat) : String :=
  let negative := decide (baseUnits < 0)
  let absolute := if negative then -baseUnits else baseUnits
  let scale : Int := 10 ^ decimals
  let whole := replaceGrouping false (toString (absolute.tdiv scale)).toList
  let sign := if negative then ['-'] else []
  if decimals = 0 then String.ofList (sign ++ whole)
  else
    let fraction := padStart decimals (toString (absolute.tmod scale)).toList
    String.ofList (sign ++ (whole ++ '.' :: fraction))

example : formatAmount 418022607 2 = "4,180,226.07" := by
  decide +kernel

/-! ## Removing what display adds -/

/-- A text without commas and white space. -/
def withoutSeparators (text : List Char) : List Char :=
  text.filter fun c => ¬ (c = ',' ∨ isJsSpace c)

theorem withoutSeparators_append (left right : List Char) :
    withoutSeparators (left ++ right) = withoutSeparators left ++ withoutSeparators right :=
  List.filter_append ..

theorem withoutSeparators_of_isDigit {digits : List Char} (all : ∀ c ∈ digits, c.isDigit) :
    withoutSeparators digits = digits := by
  apply List.filter_eq_self.mpr
  intro c mem
  have visible := isJsSpace_of_isDigit (all c mem)
  have other : c ≠ ',' := by
    rintro rfl
    exact absurd (all ',' mem) (by decide)
  simp [visible, other]

/-- Separators between digits are removed again. -/
theorem withoutSeparators_replaceGrouping {digits : List Char} (all : ∀ c ∈ digits, c.isDigit)
    (wordBefore : Bool) :
    withoutSeparators (replaceGrouping wordBefore digits) = digits := by
  induction digits generalizing wordBefore with
  | nil => rfl
  | cons c rest ih =>
      have first : withoutSeparators [c] = [c] :=
        withoutSeparators_of_isDigit fun other mem => by
          rw [List.mem_singleton.mp mem]
          exact all c List.mem_cons_self
      have comma : withoutSeparators [','] = [] := by decide
      have behind := ih (fun other mem => all other (List.mem_cons_of_mem c mem)) (isWordChar c)
      rw [replaceGrouping]
      split
      · show withoutSeparators ([','] ++ ([c] ++ replaceGrouping (isWordChar c) rest)) = c :: rest
        rw [withoutSeparators_append, withoutSeparators_append, comma, first, behind]
        rfl
      · show withoutSeparators ([c] ++ replaceGrouping (isWordChar c) rest) = c :: rest
        rw [withoutSeparators_append, first, behind]
        rfl

/-! ## The digits that are shown -/

theorem padStart_isDigit {length : Nat} {text : List Char} (all : ∀ c ∈ text, c.isDigit) :
    ∀ c ∈ padStart length text, c.isDigit := by
  intro c mem
  rcases List.mem_append.mp mem with mem | mem
  · rw [List.eq_of_mem_replicate mem]
    decide
  · exact all c mem

theorem length_padStart {length : Nat} {text : List Char} (short : text.length ≤ length) :
    (padStart length text).length = length := by
  rw [padStart, List.length_append, List.length_replicate]
  omega

theorem ofDigitChars_padStart (length : Nat) (text : List Char) :
    Nat.ofDigitChars 10 (padStart length text) 0 = Nat.ofDigitChars 10 text 0 := by
  rw [padStart, Nat.ofDigitChars_append, Nat.ofDigitChars_replicate_zero, Nat.mul_zero]

theorem ofDigitChars_repr (n : Nat) : Nat.ofDigitChars 10 n.repr.toList 0 = n := by
  rw [Nat.toList_repr, Nat.ofDigitChars_ten_toDigits]

theorem repr_ne_nil (n : Nat) : n.repr.toList ≠ [] := by
  rw [Nat.toList_repr]
  exact Nat.toDigits_ne_nil

section Shown

variable (n decimals : Nat)

/-- The display of a number of base units. -/
theorem toList_formatAmount :
    (formatAmount n decimals).toList =
      if decimals = 0 then replaceGrouping false (n / 10 ^ decimals).repr.toList
      else replaceGrouping false (n / 10 ^ decimals).repr.toList ++
        '.' :: padStart decimals (n % 10 ^ decimals).repr.toList := by
  have quotient : toString ((n : Int).tdiv (10 ^ decimals)) = (n / 10 ^ decimals).repr := by
    have cast : (n : Int).tdiv (10 ^ decimals) = ((n / 10 ^ decimals : Nat) : Int) := by
      push_cast
      rw [Int.tdiv_eq_ediv_of_nonneg (Int.natCast_nonneg n)]
    rw [cast]
    rfl
  have remainder : toString ((n : Int).tmod (10 ^ decimals)) = (n % 10 ^ decimals).repr := by
    have cast : (n : Int).tmod (10 ^ decimals) = ((n % 10 ^ decimals : Nat) : Int) := by
      push_cast
      rw [Int.tmod_eq_emod_of_nonneg (Int.natCast_nonneg n)]
    rw [cast]
    rfl
  have sign : decide ((n : Int) < 0) = false := decide_eq_false (by omega)
  rw [formatAmount]
  simp only [sign, Bool.false_eq_true, if_false, List.nil_append]
  rw [quotient, remainder]
  split
  · rw [String.toList_ofList]
  · rw [String.toList_ofList]

/-- The digits in front of the point and behind it. -/
theorem withoutSeparators_formatAmount :
    withoutSeparators (formatAmount n decimals).toList =
      if decimals = 0 then (n / 10 ^ decimals).repr.toList
      else (n / 10 ^ decimals).repr.toList ++
        '.' :: padStart decimals (n % 10 ^ decimals).repr.toList := by
  have whole_digits : ∀ c ∈ (n / 10 ^ decimals).repr.toList, c.isDigit :=
    fun c mem => Decimal.repr_isDigit mem
  have fraction_digits : ∀ c ∈ padStart decimals (n % 10 ^ decimals).repr.toList, c.isDigit :=
    padStart_isDigit fun c mem => Decimal.repr_isDigit mem
  have point : withoutSeparators ['.'] = ['.'] := by decide
  rw [toList_formatAmount]
  split
  · rw [withoutSeparators_replaceGrouping whole_digits]
  · rw [withoutSeparators_append, withoutSeparators_replaceGrouping whole_digits]
    rw [← List.singleton_append, withoutSeparators_append, point,
      withoutSeparators_of_isDigit fraction_digits]

end Shown

/-! ## What is read -/

/-- One or more digits, with a point and any digits behind them or not. -/
inductive Typed : List Char → Prop
  | whole {digits : List Char} : digits ≠ [] → (∀ c ∈ digits, c.isDigit) → Typed digits
  | pointed {digits fraction : List Char} : digits ≠ [] → (∀ c ∈ digits, c.isDigit) →
      (∀ c ∈ fraction, c.isDigit) → Typed (digits ++ '.' :: fraction)

theorem isAmount_iff_typed {text : List Char} : isAmount text = true ↔ Typed text := by
  rw [isAmount_iff]
  constructor
  · rintro ⟨nonempty, whole_digits, fraction_digits⟩
    rcases Numeral.split_cases text with ⟨plain, _⟩ | pointed
    · rw [plain]
      exact Typed.whole nonempty whole_digits
    · rw [pointed]
      exact Typed.pointed nonempty whole_digits fraction_digits
  · intro typed
    cases typed with
    | whole nonempty digits =>
        have none : Numeral.fraction text = [] := by
          rw [Numeral.fraction, List.dropWhile_eq_nil_iff.mpr]
          · rfl
          · intro c mem
            exact decide_eq_true fun point => Numeral.point_not_digit digits (point ▸ mem)
        rw [whole_of_isDigit digits, none]
        exact ⟨nonempty, digits, by simp⟩
    | pointed nonempty digits fraction_digits =>
        have absent := Numeral.point_not_digit digits
        rw [Numeral.whole_append absent, Numeral.fraction_append absent]
        exact ⟨nonempty, digits, fraction_digits⟩

/-- A typed text is read as the floor of its scaled value. -/
theorem parseAmount_of_typed {s : String} (typed : Typed (withoutSeparators s.toList))
    (decimals : Nat) :
    parseAmount s decimals = some (some
      (⌊Numeral.value (withoutSeparators s.toList) * (10 : ℚ) ^ decimals⌋₊ : Int)) := by
  have accepted := isAmount_iff_typed.mpr typed
  have cleaned : s.toList.filter (fun c => ¬ (c = ',' ∨ isJsSpace c)) =
      withoutSeparators s.toList :=
    rfl
  rw [parseAmount_of_isAmount cleaned accepted,
    Numeral.ofDigitChars_scaled decimals (isAmount_iff.mp accepted).2.2]

/-- Anything else is refused. -/
theorem parseAmount_of_not_typed {s : String} (other : ¬ Typed (withoutSeparators s.toList))
    (decimals : Nat) : parseAmount s decimals = some none := by
  have refused : ¬ isAmount (withoutSeparators s.toList) = true :=
    fun accepted => other (isAmount_iff_typed.mp accepted)
  rw [parseAmount]
  exact if_neg refused

/-- Display and re-entry give the number back. -/
theorem parseAmount_formatAmount (n decimals : Nat) :
    parseAmount (formatAmount n decimals) decimals = some (some (n : Int)) := by
  have whole_digits : ∀ c ∈ (n / 10 ^ decimals).repr.toList, c.isDigit :=
    fun c mem => Decimal.repr_isDigit mem
  have cleaned := withoutSeparators_formatAmount n decimals
  by_cases none : decimals = 0
  · rw [if_pos none] at cleaned
    have accepted : isAmount (n / 10 ^ decimals).repr.toList :=
      isAmount_iff_typed.mpr (Typed.whole (repr_ne_nil _) whole_digits)
    rw [parseAmount_of_isAmount cleaned accepted]
    subst none
    have empty : Numeral.fractionTo 0 (n / 10 ^ 0).repr.toList = [] :=
      List.eq_nil_of_length_eq_zero (Numeral.length_fractionTo 0 _)
    rw [Numeral.scaled, empty, List.append_nil, whole_of_isDigit whole_digits, ofDigitChars_repr,
      Nat.pow_zero, Nat.div_one]
  · rw [if_neg none] at cleaned
    have fraction_digits : ∀ c ∈ padStart decimals (n % 10 ^ decimals).repr.toList, c.isDigit :=
      padStart_isDigit fun c mem => Decimal.repr_isDigit mem
    have short : (n % 10 ^ decimals).repr.toList.length ≤ decimals := by
      rw [String.length_toList]
      exact (Nat.length_repr_le_iff (Nat.pos_of_ne_zero none)).mpr
        (Nat.mod_lt _ (Nat.pow_pos (by decide)))
    have accepted := isAmount_iff_typed.mpr
      (Typed.pointed (repr_ne_nil _) whole_digits fraction_digits)
    have absent := Numeral.point_not_digit whole_digits
    have width := length_padStart short
    rw [parseAmount_of_isAmount cleaned accepted, Numeral.scaled, Numeral.fractionTo,
      Numeral.whole_append absent, Numeral.fraction_append absent, width, Nat.sub_self,
      List.replicate_zero, List.append_nil, List.take_of_length_le (Nat.le_of_eq width),
      Numeral.ofDigitChars_append, width, ofDigitChars_padStart, ofDigitChars_repr,
      ofDigitChars_repr, Nat.mul_comm, Nat.div_add_mod]

/-- Reading undoes display, display tells amounts apart, and exactly the typed texts are
read, as the floor of what they say. -/
theorem amounts_roundTrip (decimals : Nat) :
    (∀ n : Nat, parseAmount (formatAmount n decimals) decimals = some (some (n : Int))) ∧
    (∀ m n : Nat, formatAmount m decimals = formatAmount n decimals → m = n) ∧
    ∀ s : String,
      (parseAmount s decimals ≠ some none ↔ Typed (withoutSeparators s.toList)) ∧
      (Typed (withoutSeparators s.toList) → parseAmount s decimals = some (some
        (⌊Numeral.value (withoutSeparators s.toList) * (10 : ℚ) ^ decimals⌋₊ : Int))) := by
  constructor
  · exact fun n => parseAmount_formatAmount n decimals
  constructor
  · intro m n same
    have read := parseAmount_formatAmount m decimals
    rw [same, parseAmount_formatAmount] at read
    exact (Int.ofNat.inj (Option.some.inj (Option.some.inj read))).symm
  · intro s
    refine ⟨⟨fun read => ?_, fun typed => ?_⟩, fun typed => parseAmount_of_typed typed decimals⟩
    · by_contra other
      exact read (parseAmount_of_not_typed other decimals)
    · rw [parseAmount_of_typed typed]
      exact fun equal => Option.some_ne_none _ (Option.some.inj equal)

end Solva.Website
