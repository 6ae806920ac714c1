import Solva.Orchestrator.Stroops
import Solva.Sdk.BigInt

/-!
# Amounts on the website

The website scales a balance of the ledger and reads an amount that a visitor types.
Both split the text at its points; on decimal numerals they agree with the
orchestrator.
-/

namespace Solva.Website

open Codec Orchestrator Sdk

/-! ## `demo-institutions.ts` and `amount.ts` -/

/-- `[whole = "0", fraction = ""]` of `text.split(".")`. -/
def splitPoint (text : List Char) : List Char × List Char :=
  (Numeral.whole text, Numeral.whole (Numeral.fraction text))

/-- `text.padEnd(length, "0")`. -/
def padEnd (length : Nat) (text : List Char) : List Char :=
  text ++ List.replicate (length - text.length) '0'

/-- `STROOP_DIGITS`. -/
def STROOP_DIGITS : Nat :=
  7

structure BalanceLine where
  assetCode : Option String
  assetIssuer : Option String
  balance : String

structure HorizonAccount where
  balances : List BalanceLine

/-- The line that `holdingBalance` looks for. -/
def HorizonAccount.line? (account : HorizonAccount) (code issuer : String) : Option BalanceLine :=
  account.balances.find? fun item => item.assetCode = some code ∧ item.assetIssuer = some issuer

/-- `holdingBalance`; inside, `none` is `null`. -/
def holdingBalance (account : HorizonAccount) (code issuer : String) : Option (Option String) :=
  match account.line? code issuer with
  | none => some none
  | some line =>
      let (whole, fraction) := splitPoint line.balance.toList
      (bigInt (String.ofList (whole ++ (padEnd STROOP_DIGITS fraction).take STROOP_DIGITS))).map
        fun stroops => some (toString stroops)

/-- `/^\d+(\.\d*)?$/`. -/
def isAmount (text : List Char) : Bool :=
  Numeral.whole text ≠ [] ∧ (Numeral.whole text).all Char.isDigit ∧
    (Numeral.fraction text).all Char.isDigit

/-- `parseAmount`; inside, `none` is `null`. -/
def parseAmount (input : String) (decimals : Nat) : Option (Option Int) :=
  let cleaned := input.toList.filter fun c => ¬ (c = ',' ∨ isJsSpace c)
  if isAmount cleaned then do
    let (whole, fraction) := splitPoint cleaned
    let padded := (fraction ++ List.replicate decimals '0').take decimals
    let units ← bigInt (String.ofList whole)
    let rest ← bigInt (if padded = [] then "0" else String.ofList padded)
    pure (some (units * 10 ^ decimals + rest))
  else some none

/-! ## On numerals -/

/-- A numeral that starts with a digit, by its two sides. -/
theorem sides_of_numeral {text : List Char} (numeral : Numeral.IsNumeral text)
    (starts : ∃ c rest, text = c :: rest ∧ c.isDigit) :
    Numeral.whole text ≠ [] ∧ (∀ c ∈ Numeral.whole text, c.isDigit) ∧
      (∀ c ∈ Numeral.fraction text, c.isDigit) := by
  rcases Numeral.isNumeral_iff.mp numeral with ⟨whole_digits, fraction_digits, _⟩
  refine ⟨?_, whole_digits, fraction_digits⟩
  rcases starts with ⟨c, rest, rfl, digit⟩
  have other : c ≠ '.' := by
    rintro rfl
    exact absurd digit (by decide)
  rw [Numeral.whole_cons other]
  exact List.cons_ne_nil _ _

theorem whole_of_isDigit {text : List Char} (digits : ∀ c ∈ text, c.isDigit) :
    Numeral.whole text = text := by
  apply List.takeWhile_eq_self_iff.mpr
  intro c mem
  exact decide_eq_true fun point => Numeral.point_not_digit digits (point ▸ mem)

/-- On a numeral the second part is all that stands behind the point. -/
theorem splitPoint_of_isDigit {text : List Char}
    (digits : ∀ c ∈ Numeral.fraction text, c.isDigit) :
    splitPoint text = (Numeral.whole text, Numeral.fraction text) := by
  rw [splitPoint, whole_of_isDigit digits]

/-- Padding and then cutting leaves the places of the fraction. -/
theorem take_padEnd (places : Nat) (text : List Char) :
    (padEnd places (Numeral.fraction text)).take places = Numeral.fractionTo places text := by
  rw [padEnd, Numeral.fractionTo, List.take_append, List.take_replicate]
  congr 2
  omega

theorem take_append_replicate (places : Nat) (text : List Char) :
    (Numeral.fraction text ++ List.replicate places '0').take places =
      Numeral.fractionTo places text := by
  rw [Numeral.fractionTo, List.take_append, List.take_replicate]
  congr 2
  omega

theorem isAmount_iff {text : List Char} :
    isAmount text = true ↔ Numeral.whole text ≠ [] ∧ (∀ c ∈ Numeral.whole text, c.isDigit) ∧
      ∀ c ∈ Numeral.fraction text, c.isDigit := by
  simp only [isAmount, decide_eq_true_eq, List.all_eq_true]

/-- An accepted text is scaled as its digits say. -/
theorem parseAmount_of_isAmount {input : String} {cleaned : List Char}
    (cleaned_eq : input.toList.filter (fun c => ¬ (c = ',' ∨ isJsSpace c)) = cleaned)
    (accepted : isAmount cleaned) (decimals : Nat) :
    parseAmount input decimals =
      some (some (Nat.ofDigitChars 10 (Numeral.scaled decimals cleaned) 0 : Int)) := by
  rcases isAmount_iff.mp accepted with ⟨nonempty, whole_digits, fraction_digits⟩
  have places_digits : ∀ c ∈ Numeral.fractionTo decimals cleaned, c.isDigit :=
    Numeral.fractionTo_isDigit fun c mem => fraction_digits c (List.mem_of_mem_take mem)
  have units : bigInt (String.ofList (Numeral.whole cleaned)) =
      some (Nat.ofDigitChars 10 (Numeral.whole cleaned) 0 : Int) := by
    rw [bigInt_of_isDigit, String.toList_ofList]
    · rwa [String.toList_ofList]
    · rwa [String.toList_ofList]
  have rest : bigInt (if Numeral.fractionTo decimals cleaned = [] then "0"
      else String.ofList (Numeral.fractionTo decimals cleaned)) =
        some (Nat.ofDigitChars 10 (Numeral.fractionTo decimals cleaned) 0 : Int) := by
    by_cases none : Numeral.fractionTo decimals cleaned = []
    · rw [if_pos none, none]
      decide +kernel
    · rw [if_neg none, bigInt_of_isDigit, String.toList_ofList]
      · rwa [String.toList_ofList]
      · rwa [String.toList_ofList]
  rw [parseAmount]
  dsimp only
  rw [cleaned_eq, if_pos accepted, splitPoint_of_isDigit fraction_digits]
  dsimp only
  rw [take_append_replicate, units, rest, Numeral.scaled, Numeral.ofDigitChars_append,
    Numeral.length_fractionTo]
  push_cast
  rfl

section Numerals

variable {text : String} (numeral : Numeral.IsNumeral text.toList)
  (starts : ∃ c rest, text.toList = c :: rest ∧ c.isDigit)

include numeral starts

/-- The website scales a numeral as its digits say. -/
theorem holdingBalance_of_numeral {account : HorizonAccount} {code issuer : String}
    {line : BalanceLine} (found : account.line? code issuer = some line)
    (balance_eq : line.balance = text) :
    holdingBalance account code issuer = some (some (toString
      (Nat.ofDigitChars 10 (Numeral.scaled 7 text.toList) 0))) := by
  rcases sides_of_numeral numeral starts with ⟨nonempty, whole_digits, fraction_digits⟩
  have digits : ∀ c ∈ Numeral.scaled 7 text.toList, c.isDigit := by
    intro c mem
    rcases List.mem_append.mp mem with mem | mem
    · exact whole_digits c mem
    · exact Numeral.fractionTo_isDigit (fun c mem =>
        fraction_digits c (List.mem_of_mem_take mem)) c mem
  have some_digit : Numeral.scaled 7 text.toList ≠ [] := by
    rw [Numeral.scaled]
    exact List.append_ne_nil_of_left_ne_nil nonempty _
  rw [holdingBalance, found]
  dsimp only
  rw [balance_eq, splitPoint_of_isDigit fraction_digits]
  dsimp only
  rw [STROOP_DIGITS, take_padEnd, ← Numeral.scaled, bigInt_of_isDigit]
  · rw [String.toList_ofList]
    rfl
  · rw [String.toList_ofList]
    exact some_digit
  · rw [String.toList_ofList]
    exact digits

/-- So does the reader of typed amounts. -/
theorem parseAmount_of_numeral :
    parseAmount text 7 =
      some (some (Nat.ofDigitChars 10 (Numeral.scaled 7 text.toList) 0 : Int)) := by
  have cleaned : text.toList.filter (fun c => ¬ (c = ',' ∨ isJsSpace c)) = text.toList := by
    apply List.filter_eq_self.mpr
    intro c mem
    rcases numeral.chars c mem with digit | rfl
    · have visible := isJsSpace_of_isDigit digit
      have other : c ≠ ',' := by
        rintro rfl
        exact absurd digit (by decide)
      simp [visible, other]
    · decide
  exact parseAmount_of_isAmount cleaned (isAmount_iff.mpr (sides_of_numeral numeral starts)) 7

end Numerals

/-! ## `toStroops` against numerals -/

/-- `toStroops` reads exactly the numerals, as the floor of the scaled value, and as
the website reads them where they start with a digit. -/
structure ReadsNumerals (dec : String) : Prop where
  accepts : (∃ r, toStroops dec = .ok r) ↔ Numeral.IsNumeral (Text.trimSpace dec.toList)
  value : Numeral.IsNumeral (Text.trimSpace dec.toList) →
    toStroops dec =
      .ok (toString ⌊Numeral.value (Text.trimSpace dec.toList) * (10 : ℚ) ^ (7 : ℕ)⌋₊)
  agrees : Numeral.IsNumeral dec.toList → (∃ c rest, dec.toList = c :: rest ∧ c.isDigit) →
    ∃ stroops : Int, toStroops dec = .ok (toString stroops) ∧
      parseAmount dec 7 = some (some stroops) ∧
      ∀ (account : HorizonAccount) (code issuer : String) (line : BalanceLine),
        account.line? code issuer = some line → line.balance = dec →
          holdingBalance account code issuer = some (some (toString stroops))

/-- The texts that are read although they are no numerals: a lone point, a plus sign
in front, and something other than digits behind the seventh place. -/
def Misread (dec : List Char) : Prop :=
  dec = ['.'] ∨
    (∃ rest, dec = '+' :: rest ∧ (∀ c ∈ Numeral.whole rest, c.isDigit) ∧
      ∀ c ∈ (Numeral.fraction rest).take 7, c.isDigit) ∨
    ∃ whole places tail, dec = whole ++ '.' :: (places ++ tail) ∧ (∀ c ∈ whole, c.isDigit) ∧
      (∀ c ∈ places, c.isDigit) ∧ places.length = 7 ∧ ∃ c ∈ tail, c.isDigit = false

/-- A numeral is readable as it stands. -/
theorem readable_of_numeral {dec : List Char} (numeral : Numeral.IsNumeral dec) :
    Readable dec [] (Numeral.whole dec) := by
  rcases Numeral.isNumeral_iff.mp numeral with ⟨whole_digits, fraction_digits, _⟩
  rcases numeral.digit with ⟨c, mem, _⟩
  exact ⟨List.ne_nil_of_mem mem, Or.inl rfl, rfl, whole_digits,
    fun c mem => fraction_digits c (List.mem_of_mem_take mem)⟩

/-- What is read is a numeral or misread. -/
theorem numeral_or_misread {dec sign whole : List Char} (readable : Readable dec sign whole) :
    Numeral.IsNumeral dec ∨ Misread dec := by
  rcases readable.sign_eq with rfl | rfl
  · have whole_digits : ∀ c ∈ Numeral.whole dec, c.isDigit := by
      rw [readable.whole_eq]
      exact readable.digits
    by_cases fraction_digits : ∀ c ∈ Numeral.fraction dec, c.isDigit
    · by_cases empty : Numeral.whole dec = [] ∧ Numeral.fraction dec = []
      · right
        rcases Numeral.split_cases dec with ⟨plain, _⟩ | pointed
        · exact absurd (plain.trans empty.1) readable.nonempty
        · rw [empty.1, empty.2] at pointed
          exact Or.inl pointed
      · exact Or.inl (Numeral.isNumeral_iff.mpr ⟨whole_digits, fraction_digits, empty⟩)
    · right
      simp only [not_forall, Bool.not_eq_true] at fraction_digits
      rcases fraction_digits with ⟨c, mem, other⟩
      have behind : c ∈ (Numeral.fraction dec).drop 7 := by
        rw [← List.take_append_drop 7 (Numeral.fraction dec), List.mem_append] at mem
        rcases mem with mem | mem
        · have digit := readable.places c mem
          rw [other] at digit
          cases digit
        · exact mem
      have long : 7 ≤ (Numeral.fraction dec).length := by
        have some_left := List.length_pos_of_mem behind
        rw [List.length_drop] at some_left
        omega
      rcases Numeral.split_cases dec with ⟨_, empty⟩ | pointed
      · rw [empty] at mem
        cases mem
      · right
        right
        refine ⟨Numeral.whole dec, (Numeral.fraction dec).take 7, (Numeral.fraction dec).drop 7,
          ?_, whole_digits, readable.places, ?_, c, behind, other⟩
        · rw [List.take_append_drop]
          exact pointed
        · rw [List.length_take]
          omega
  · right
    right
    left
    have whole_eq := readable.whole_eq
    have places := readable.places
    cases dec with
    | nil => exact absurd rfl readable.nonempty
    | cons c rest =>
        by_cases point : c = '.'
        · subst point
          cases whole_eq
        · rw [Numeral.whole_cons point] at whole_eq
          rw [Numeral.fraction_cons point] at places
          rcases List.cons.inj whole_eq with ⟨rfl, rest_eq⟩
          refine ⟨rest, rfl, ?_, places⟩
          rw [rest_eq]
          exact readable.digits

/-- What is misread is read, and no numeral. -/
theorem readable_of_misread {dec : List Char} (misread : Misread dec) :
    (∃ sign whole, Readable dec sign whole) ∧ ¬ Numeral.IsNumeral dec := by
  rcases misread with rfl | ⟨rest, rfl, whole_digits, places⟩ |
    ⟨whole, places, tail, rfl, whole_digits, places_digits, width, c, mem, other⟩
  · refine ⟨⟨[], [], List.cons_ne_nil _ _, Or.inl rfl, rfl, by simp,
      fun _ mem => absurd mem List.not_mem_nil⟩, ?_⟩
    rintro ⟨_, _, c, mem, digit⟩
    rw [List.mem_singleton.mp mem] at digit
    exact absurd digit (by decide)
  · have plus : '+' ≠ '.' := by decide
    refine ⟨⟨['+'], Numeral.whole rest, List.cons_ne_nil _ _, Or.inr rfl,
      Numeral.whole_cons plus rest, whole_digits, ?_⟩, fun numeral => ?_⟩
    · rw [Numeral.fraction_cons plus]
      exact places
    · exact absurd (numeral.chars '+' List.mem_cons_self) (by decide)
  · have absent := Numeral.point_not_digit whole_digits
    refine ⟨⟨[], whole, ?_, Or.inl rfl, Numeral.whole_append absent, whole_digits, ?_⟩,
      fun numeral => ?_⟩
    · simp
    · rw [Numeral.fraction_append absent, stroopScale, ← width, List.take_left]
      exact places_digits
    · rcases Numeral.isNumeral_iff.mp numeral with ⟨_, fraction_digits, _⟩
      rw [Numeral.fraction_append absent] at fraction_digits
      rw [fraction_digits c (List.mem_append_right _ mem)] at other
      cases other

/-- `toStroops` does so exactly on the texts that are not misread. -/
theorem readsNumerals_iff (dec : String) :
    ReadsNumerals dec ↔ ¬ Misread (Text.trimSpace dec.toList) := by
  constructor
  · intro reads misread
    rcases readable_of_misread misread with ⟨⟨sign, whole, readable⟩, not_numeral⟩
    exact not_numeral (reads.accepts.mp ⟨_, toStroops_eq_ok_iff.mpr ⟨sign, whole, readable, rfl⟩⟩)
  · intro plain
    have read (numeral : Numeral.IsNumeral (Text.trimSpace dec.toList)) :
        toStroops dec = .ok (toString
          (Nat.ofDigitChars 10 (Numeral.scaled 7 (Text.trimSpace dec.toList)) 0)) :=
      toStroops_eq_ok_iff.mpr ⟨_, _, readable_of_numeral numeral, rfl⟩
    constructor
    case accepts =>
      constructor
      · rintro ⟨r, accepted⟩
        rcases toStroops_eq_ok_iff.mp accepted with ⟨sign, whole, readable, _⟩
        exact (numeral_or_misread readable).resolve_right plain
      · intro numeral
        exact ⟨_, read numeral⟩
    case value =>
      intro numeral
      rw [read numeral, Numeral.ofDigitChars_scaled 7 (Numeral.isNumeral_iff.mp numeral).2.1]
    case agrees =>
      intro numeral starts
      have trimmed : Text.trimSpace dec.toList = dec.toList := by
        apply Text.trimBoth_of_forall
        intro c mem
        rcases numeral.chars c mem with digit | rfl
        · have range : 48 ≤ c.toNat ∧ c.toNat ≤ 57 := Char.isDigit_iff_toNat.mp digit
          simp only [Text.isWhiteSpace, decide_eq_false_iff_not, List.mem_cons,
            List.not_mem_nil, or_false]
          omega
        · decide
      rw [trimmed] at read
      refine ⟨_, read numeral, parseAmount_of_numeral numeral starts, ?_⟩
      intro account code issuer line found balance_eq
      exact holdingBalance_of_numeral numeral starts found balance_eq

/-- What is cut off behind the seventh place is not looked at. -/
theorem toStroops_misreads :
    toStroops "1.1234567abc" = .ok "11234567" ∧ ¬ ReadsNumerals "1.1234567abc" := by
  have read : toStroops "1.1234567abc" = .ok "11234567" := by decide +kernel
  refine ⟨read, fun reads => ?_⟩
  have numeral := reads.accepts.mp ⟨_, read⟩
  exact absurd (numeral.chars 'a' (by decide +kernel)) (by decide)

end Solva.Website
