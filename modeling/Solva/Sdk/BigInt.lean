import Solva.Codec.Decimal
import Solva.Codec.Hex
import Solva.Codec.Text

/-!
# Integers from text in JavaScript

`BigInt` reads more than decimal digits: white space around them, a sign, prefixed
literals of other bases, and the empty text as zero. A thrown exception is `none`.
-/

namespace Solva.Sdk

open Codec

/-- White space and line terminators, as `BigInt` trims them. -/
def isJsSpace (c : Char) : Bool :=
  c.toNat ∈ [0x9, 0xa, 0xb, 0xc, 0xd, 0x20, 0xa0, 0x1680, 0x2028, 0x2029, 0x202f, 0x205f, 0x3000,
    0xfeff] ∨ 0x2000 ≤ c.toNat ∧ c.toNat ≤ 0x200a

/-- The number written by a nonempty run of digits below a base. -/
def radixNumber? (base : Nat) (digits : List Char) : Option Nat :=
  if digits = [] then none
  else digits.foldlM (fun value c => (Hex.digitValue? c).bind fun digit =>
    if digit < base then some (base * value + digit) else none) 0

/-- `BigInt(text)`; text that is no integer literal throws. -/
def bigInt (text : String) : Option Int :=
  match ((text.toList.dropWhile isJsSpace).reverse.dropWhile isJsSpace).reverse with
  | [] => some 0
  | '0' :: 'x' :: digits => (radixNumber? 16 digits).map Int.ofNat
  | '0' :: 'X' :: digits => (radixNumber? 16 digits).map Int.ofNat
  | '0' :: 'o' :: digits => (radixNumber? 8 digits).map Int.ofNat
  | '0' :: 'O' :: digits => (radixNumber? 8 digits).map Int.ofNat
  | '0' :: 'b' :: digits => (radixNumber? 2 digits).map Int.ofNat
  | '0' :: 'B' :: digits => (radixNumber? 2 digits).map Int.ofNat
  | digits => Decimal.signed? digits

theorem isJsSpace_of_isDigit {c : Char} (digit : c.isDigit) : isJsSpace c = false := by
  have range : 48 ≤ c.toNat ∧ c.toNat ≤ 57 := Char.isDigit_iff_toNat.mp digit
  simp only [isJsSpace, decide_eq_false_iff_not]
  simp only [List.mem_cons, List.not_mem_nil, or_false]
  omega

/-- `BigInt` reads decimal digits as the number they write. -/
theorem bigInt_of_isDigit {text : String} (nonempty : text.toList ≠ [])
    (digits : ∀ c ∈ text.toList, c.isDigit) :
    bigInt text = some (Nat.ofDigitChars 10 text.toList 0 : Int) := by
  have trimmed : ((text.toList.dropWhile isJsSpace).reverse.dropWhile isJsSpace).reverse =
      text.toList :=
    Text.trimBoth_of_forall fun c mem => isJsSpace_of_isDigit (digits c mem)
  have not_digit {c : Char} (second : text.toList[1]? = some c) (letter : c.isDigit = false) :
      False := by
    rw [digits c (List.mem_of_getElem? second)] at letter
    cases letter
  have read : Decimal.signed? text.toList = some (Nat.ofDigitChars 10 text.toList 0 : Int) :=
    Decimal.signed?_of_unsigned? (Decimal.unsigned?_eq_some_iff.mpr ⟨nonempty, digits, rfl⟩)
  unfold bigInt
  rw [trimmed]
  split
  · rename_i empty
    exact absurd empty nonempty
  all_goals first
    | exact read
    | rename_i chars
      exact (not_digit (by rw [chars]; rfl) (by decide)).elim

@[simp]
theorem bigInt_repr (n : Nat) : bigInt n.repr = some (n : Int) := by
  rcases Decimal.unsigned?_eq_some_iff.mp (Decimal.unsigned?_repr n) with ⟨nonempty, digits, n_eq⟩
  rw [bigInt_of_isDigit nonempty digits, ← n_eq]

end Solva.Sdk
