import Solva.Codec.Numeral
import Solva.Codec.Text
import Solva.Orchestrator.Entity

/-!
# Balances of the ledger as integers

A balance on the ledger is decimal text with seven places. `toStroops` cuts and pads
the text behind the point before it reads the digits, so what is cut off is never
looked at.
-/

namespace Solva.Orchestrator

open Codec

/-! ## `toStroops` -/

/-- Stellar amounts have seven places. -/
def stroopScale : Nat :=
  7

/-- The bytes of a text, each as the character of that number. -/
def byteChars (text : List Char) : List Char :=
  (text.flatMap String.utf8EncodeChar).map fun byte => Char.ofNat byte.toNat

/-- `toStroops`. The fraction is measured and cut in bytes. -/
def toStroops (dec : String) : Result String :=
  let dec := Text.trimSpace dec.toList
  if dec = [] then .error (.plain "empty balance")
  else if ['-'] <+: dec then
    .error (.plain ("negative balance " ++ quote (String.ofList dec)))
  else
    let intPart := if Numeral.whole dec = [] then ['0'] else Numeral.whole dec
    let frac := (byteChars (Numeral.fraction dec)).take stroopScale
    let frac := frac ++ List.replicate (stroopScale - frac.length) '0'
    match Decimal.signed? (intPart ++ frac) with
    | none => .error (.plain ("invalid decimal balance " ++ quote (String.ofList dec)))
    | some combined => .ok (toString combined)

/-! ## Digits among bytes -/

/-- A byte above ASCII is no digit. -/
theorem not_isDigit_of_byte {n : Nat} (high : 128 ≤ n) (byte : n < 256) :
    (Char.ofNat n).isDigit = false := by
  have all : ∀ n < 256, 128 ≤ n → (Char.ofNat n).isDigit = false := by decide +kernel
  exact all n byte high

/-- The bytes of an ASCII character are that character; the others begin with a byte
above ASCII. -/
theorem byteChars_singleton (c : Char) :
    byteChars [c] = [c] ∨
      c.isDigit = false ∧ ∃ first rest, byteChars [c] = first :: rest ∧ first.isDigit = false := by
  have head (n : Nat) (high : 128 ≤ n) (byte : n < 256)
      (spelled : ∃ rest, String.utf8EncodeChar c = UInt8.ofNat n :: rest) :
      ∃ first rest, byteChars [c] = first :: rest ∧ first.isDigit = false := by
    rcases spelled with ⟨rest, spelled⟩
    refine ⟨_, _, by rw [byteChars, List.flatMap_singleton, spelled, List.map_cons], ?_⟩
    rw [UInt8.toNat_ofNat_of_lt' byte]
    exact not_isDigit_of_byte high byte
  have digit_small (digit : c.isDigit) : c.toNat ≤ 127 := by
    have range : 48 ≤ c.toNat ∧ c.toNat ≤ 57 := Char.isDigit_iff_toNat.mp digit
    omega
  by_cases ascii : c.toNat ≤ 127
  · left
    have spelled : String.utf8EncodeChar c = [UInt8.ofNat c.toNat] := if_pos ascii
    rw [byteChars, List.flatMap_singleton, spelled, List.map_singleton,
      UInt8.toNat_ofNat_of_lt' (by show c.toNat < 256; omega), Char.ofNat_toNat]
  · right
    constructor
    · cases digit : c.isDigit with
      | false => rfl
      | true => exact absurd (digit_small digit) ascii
    · by_cases two : c.toNat ≤ 0x7ff
      · exact head (c.toNat / 64 % 0x20 + 0xc0) (by omega) (by omega)
          ⟨_, (if_neg ascii).trans (if_pos two)⟩
      · by_cases three : c.toNat ≤ 0xffff
        · exact head (c.toNat / 4096 % 0x10 + 0xe0) (by omega) (by omega)
            ⟨_, (if_neg ascii).trans ((if_neg two).trans (if_pos three))⟩
        · exact head (c.toNat / 262144 % 0x08 + 0xf0) (by omega) (by omega)
            ⟨_, (if_neg ascii).trans ((if_neg two).trans (if_neg three))⟩

theorem byteChars_cons (c : Char) (text : List Char) :
    byteChars (c :: text) = byteChars [c] ++ byteChars text := by
  simp [byteChars]

/-- The first bytes are digits exactly when the first characters are. -/
theorem take_byteChars_isDigit_iff {text : List Char} {count : Nat} :
    (∀ c ∈ (byteChars text).take count, c.isDigit) ↔ ∀ c ∈ text.take count, c.isDigit := by
  induction text generalizing count with
  | nil => rfl
  | cons c text ih =>
      cases count with
      | zero => simp
      | succ count =>
          rw [byteChars_cons]
          rcases byteChars_singleton c with single | ⟨other, first, rest, spelled, high⟩
          · rw [single, List.singleton_append, List.take_succ_cons, List.take_succ_cons,
              List.forall_mem_cons, List.forall_mem_cons, ih]
          · rw [spelled, List.cons_append, List.take_succ_cons, List.take_succ_cons,
              List.forall_mem_cons, List.forall_mem_cons, other, high]
            simp

/-- Then they are those characters. -/
theorem take_byteChars {text : List Char} {count : Nat}
    (digits : ∀ c ∈ text.take count, c.isDigit) :
    (byteChars text).take count = text.take count := by
  induction text generalizing count with
  | nil => rfl
  | cons c text ih =>
      cases count with
      | zero => simp
      | succ count =>
          rw [List.take_succ_cons, List.forall_mem_cons] at digits
          rcases byteChars_singleton c with single | ⟨other, _⟩
          · rw [byteChars_cons, single, List.singleton_append, List.take_succ_cons,
              List.take_succ_cons, ih digits.2]
          · rw [other] at digits
            cases digits.1

/-! ## What is accepted -/

/-- A cut text that `toStroops` can read: digits behind at most a plus sign, and
nothing but digits in the first seven places. -/
structure Readable (dec sign whole : List Char) : Prop where
  nonempty : dec ≠ []
  sign_eq : sign = [] ∨ sign = ['+']
  whole_eq : Numeral.whole dec = sign ++ whole
  digits : ∀ c ∈ whole, c.isDigit
  places : ∀ c ∈ (Numeral.fraction dec).take stroopScale, c.isDigit

/-- The bytes that are read are the places of the fraction. -/
theorem places_eq {dec : List Char}
    (digits : ∀ c ∈ (Numeral.fraction dec).take stroopScale, c.isDigit) :
    (byteChars (Numeral.fraction dec)).take stroopScale ++
        List.replicate (stroopScale - ((byteChars (Numeral.fraction dec)).take stroopScale).length)
          '0' =
      Numeral.fractionTo stroopScale dec := by
  rw [take_byteChars digits, Numeral.fractionTo, List.length_take]
  congr 2
  omega

/-- A text that begins with a minus sign has it before the point. -/
theorem minus_prefix_iff {dec : List Char} :
    ['-'] <+: dec ↔ ['-'] <+: Numeral.whole dec := by
  cases dec with
  | nil => rfl
  | cons c rest =>
      by_cases point : c = '.'
      · subst point
        simp [Numeral.whole, List.cons_prefix_cons]
      · rw [Numeral.whole_cons point, List.cons_prefix_cons, List.cons_prefix_cons]
        simp

/-- The digits that are put together for a readable text, and their number. -/
theorem signed?_of_readable {dec sign whole : List Char} (readable : Readable dec sign whole) :
    Decimal.signed? ((if Numeral.whole dec = [] then ['0'] else Numeral.whole dec) ++
        Numeral.fractionTo stroopScale dec) =
      some (Nat.ofDigitChars 10 (whole ++ Numeral.fractionTo stroopScale dec) 0 : Int) := by
  have all : ∀ c ∈ whole ++ Numeral.fractionTo stroopScale dec, c.isDigit := by
    intro c mem
    rcases List.mem_append.mp mem with mem | mem
    · exact readable.digits c mem
    · exact Numeral.fractionTo_isDigit readable.places c mem
  have some_digit : whole ++ Numeral.fractionTo stroopScale dec ≠ [] := by
    apply List.ne_nil_of_length_pos
    rw [List.length_append, Numeral.length_fractionTo, stroopScale]
    omega
  rw [Decimal.signed?_eq_some_iff, readable.whole_eq]
  rcases readable.sign_eq with rfl | rfl
  · rw [List.nil_append]
    by_cases empty : whole = []
    · subst empty
      rw [if_pos rfl]
      refine ⟨'0' :: Numeral.fractionTo stroopScale dec, _, List.cons_ne_nil _ _, ?_, rfl,
        Or.inl ⟨rfl, ?_⟩⟩
      · intro c mem
        rcases List.mem_cons.mp mem with rfl | mem
        · decide
        · exact all c (List.mem_append_right _ mem)
      · rw [Nat.ofDigitChars_cons]
        rfl
    · rw [if_neg empty]
      exact ⟨_, _, some_digit, all, rfl, Or.inl ⟨rfl, rfl⟩⟩
  · rw [List.singleton_append, if_neg (List.cons_ne_nil _ _)]
    exact ⟨_, _, some_digit, all, rfl, Or.inr (Or.inl ⟨rfl, rfl⟩)⟩

/-- Text that is put together from digits comes from a readable text. -/
theorem exists_readable {dec : List Char} {number : Int} (nonempty : dec ≠ [])
    (unsigned : ¬ ['-'] <+: dec)
    (read : Decimal.signed? ((if Numeral.whole dec = [] then ['0'] else Numeral.whole dec) ++
      ((byteChars (Numeral.fraction dec)).take stroopScale ++
        List.replicate (stroopScale - ((byteChars (Numeral.fraction dec)).take stroopScale).length)
          '0')) = some number) : ∃ sign whole, Readable dec sign whole := by
  rw [minus_prefix_iff] at unsigned
  rcases Decimal.signed?_eq_some_iff.mp read with ⟨digits, _, _, all, _, spelled⟩
  have places (mem : ∀ c ∈ (byteChars (Numeral.fraction dec)).take stroopScale, c ∈ digits) :
      ∀ c ∈ (Numeral.fraction dec).take stroopScale, c.isDigit :=
    take_byteChars_isDigit_iff.mp fun c c_mem => all c (mem c c_mem)
  cases whole_eq : Numeral.whole dec with
  | nil =>
      rw [whole_eq, if_pos rfl] at spelled
      rcases spelled with ⟨plain, _⟩ | ⟨plus, _⟩ | ⟨minus, _⟩
      · refine ⟨[], [], nonempty, Or.inl rfl, whole_eq, by simp, places fun c mem => ?_⟩
        rw [← plain]
        exact List.mem_append_right _ (List.mem_append_left _ mem)
      · cases plus
      · cases minus
  | cons c rest =>
      rw [whole_eq] at unsigned
      rw [whole_eq, if_neg (List.cons_ne_nil _ _)] at spelled
      rcases spelled with ⟨plain, _⟩ | ⟨plus, _⟩ | ⟨minus, _⟩
      · refine ⟨[], c :: rest, nonempty, Or.inl rfl, whole_eq, fun other mem => ?_,
          places fun other mem => ?_⟩
        · exact all other (plain ▸ List.mem_append_left _ mem)
        · rw [← plain]
          exact List.mem_append_right _ (List.mem_append_left _ mem)
      · rcases List.cons.inj plus with ⟨rfl, digits_eq⟩
        refine ⟨['+'], rest, nonempty, Or.inr rfl, whole_eq, fun other mem => ?_,
          places fun other mem => ?_⟩
        · exact all other (digits_eq ▸ List.mem_append_left _ mem)
        · rw [← digits_eq]
          exact List.mem_append_right _ (List.mem_append_left _ mem)
      · rcases List.cons.inj minus with ⟨rfl, _⟩
        exact absurd (List.cons_prefix_cons.mpr ⟨rfl, List.nil_prefix⟩) unsigned

/-- The text is read exactly when it is readable, as the number of its digits. -/
theorem toStroops_eq_ok_iff {dec r : String} :
    toStroops dec = .ok r ↔ ∃ sign whole, Readable (Text.trimSpace dec.toList) sign whole ∧
      r = toString (Nat.ofDigitChars 10
        (whole ++ Numeral.fractionTo stroopScale (Text.trimSpace dec.toList)) 0) := by
  unfold toStroops
  generalize Text.trimSpace dec.toList = cut
  dsimp only
  by_cases empty : cut = []
  · rw [if_pos empty]
    constructor
    · intro failed
      cases failed
    · rintro ⟨_, _, readable, _⟩
      exact absurd empty readable.nonempty
  rw [if_neg empty]
  by_cases minus : ['-'] <+: cut
  · rw [if_pos minus]
    constructor
    · intro failed
      cases failed
    · rintro ⟨sign, whole, readable, _⟩
      rw [minus_prefix_iff, readable.whole_eq] at minus
      rcases readable.sign_eq with rfl | rfl
      · exact absurd (readable.digits '-' (minus.subset List.mem_cons_self)) (by decide)
      · exact absurd (List.cons_prefix_cons.mp minus).1 (by decide)
  rw [if_neg minus]
  constructor
  · intro read
    split at read
    · cases read
    · rename_i combined number
      rcases exists_readable empty minus number with ⟨sign, whole, readable⟩
      rw [places_eq readable.places, signed?_of_readable readable] at number
      cases number
      cases read
      exact ⟨sign, whole, readable, rfl⟩
  · rintro ⟨sign, whole, readable, rfl⟩
    rw [places_eq readable.places, signed?_of_readable readable]
    rfl

end Solva.Orchestrator
