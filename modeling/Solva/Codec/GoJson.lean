import Mathlib.Data.List.Basic
import Solva.Codec.Hex

/-!
# Structs of strings as Go marshals them

`json.Marshal` escapes quotes, backslashes, control characters, the characters that
mean something in HTML, and the two line separators of Unicode. Each character is
read back from its escape, so the fields of a struct are read back from its text.
-/

namespace Solva.Codec.GoJson

/-! ## Characters -/

/-- Four hexadecimal digits. -/
def hex4 (n : Nat) : List Char :=
  [Nat.digitChar (n / 4096 % 16), Nat.digitChar (n / 256 % 16), Nat.digitChar (n / 16 % 16),
    Nat.digitChar (n % 16)]

/-- Whether a character is written by its number. -/
def isNumbered (c : Char) : Bool :=
  c.toNat < 0x20 || c = '<' || c = '>' || c = '&' || c.toNat = 0x2028 || c.toNat = 0x2029

/-- The letters of the short escapes. -/
def shortEscape? (c : Char) : Option Char :=
  if c = '"' then some '"'
  else if c = '\\' then some '\\'
  else if c = '\x08' then some 'b'
  else if c = '\x0c' then some 'f'
  else if c = '\n' then some 'n'
  else if c = '\r' then some 'r'
  else if c = '\t' then some 't'
  else none

/-- A character of a string. -/
def escapeChar (c : Char) : List Char :=
  match shortEscape? c with
  | some letter => ['\\', letter]
  | none => if isNumbered c then '\\' :: 'u' :: hex4 c.toNat else [c]

/-- The character of a short escape. -/
def ofShortEscape? (letter : Char) : Option Char :=
  if letter = '"' then some '"'
  else if letter = '\\' then some '\\'
  else if letter = 'b' then some '\x08'
  else if letter = 'f' then some '\x0c'
  else if letter = 'n' then some '\n'
  else if letter = 'r' then some '\r'
  else if letter = 't' then some '\t'
  else none

/-- The number of four hexadecimal digits. -/
def ofHex4? (a b c d : Char) : Option Nat :=
  match Hex.digitValue? a, Hex.digitValue? b, Hex.digitValue? c, Hex.digitValue? d with
  | some a, some b, some c, some d => some (a * 4096 + b * 256 + c * 16 + d)
  | _, _, _, _ => none

/-- Read one character of a string, up to its closing quote. -/
def readChar? : List Char → Option (Char × List Char)
  | '"' :: _ => none
  | '\\' :: 'u' :: a :: b :: c :: d :: rest =>
      (ofHex4? a b c d).map fun n => (Char.ofNat n, rest)
  | '\\' :: letter :: rest => (ofShortEscape? letter).map fun c => (c, rest)
  | c :: rest => some (c, rest)
  | [] => none

theorem ofHex4?_hex4 {n : Nat} (bound : n < 65536) :
    ofHex4? (Nat.digitChar (n / 4096 % 16)) (Nat.digitChar (n / 256 % 16))
      (Nat.digitChar (n / 16 % 16)) (Nat.digitChar (n % 16)) = some n := by
  have digit (k : Nat) : Hex.digitValue? (Nat.digitChar (k % 16)) = some (k % 16) :=
    Hex.digitValue?_digitChar (Nat.mod_lt k (by decide))
  simp only [ofHex4?, digit, Option.some.injEq]
  omega

/-- The short escapes read back. -/
theorem readChar?_short {c letter : Char} (short : shortEscape? c = some letter)
    (rest : List Char) : readChar? ('\\' :: letter :: rest) = some (c, rest) := by
  unfold shortEscape? at short
  split_ifs at short <;> subst_vars <;> cases short <;> rfl

/-- What is neither escaped nor numbered stands for itself. -/
theorem readChar?_plain {c : Char} (short : shortEscape? c = none) (rest : List Char) :
    readChar? (c :: rest) = some (c, rest) := by
  have not_quote : c ≠ '"' := by
    rintro rfl
    cases short
  have not_backslash : c ≠ '\\' := by
    rintro rfl
    cases short
  unfold readChar?
  split
  · rename_i equal
    exact absurd (List.cons.inj equal).1 not_quote
  · rename_i equal
    exact absurd (List.cons.inj equal).1 not_backslash
  · rename_i equal
    exact absurd (List.cons.inj equal).1 not_backslash
  · rename_i equal
    rw [(List.cons.inj equal).1, (List.cons.inj equal).2]
  · rename_i equal
    cases equal

theorem toNat_lt_of_isNumbered {c : Char} (numbered : isNumbered c = true) : c.toNat < 65536 := by
  simp only [isNumbered, Bool.or_eq_true, decide_eq_true_eq] at numbered
  rcases numbered with ((((low | rfl) | rfl) | rfl) | separator) | separator
  · omega
  · decide
  · decide
  · decide
  · omega
  · omega

/-- A number reads back as its character. -/
theorem readChar?_numbered {c : Char} (small : c.toNat < 65536) (rest : List Char) :
    readChar? ('\\' :: 'u' :: hex4 c.toNat ++ rest) = some (c, rest) := by
  have read : readChar? ('\\' :: 'u' :: hex4 c.toNat ++ rest) =
      (some c.toNat).map fun n => (Char.ofNat n, rest) := by
    rw [← ofHex4?_hex4 small]
    rfl
  rw [read, Option.map_some, Char.ofNat_toNat]

/-- Every character is read back from its escape. -/
theorem readChar?_escapeChar (c : Char) (rest : List Char) :
    readChar? (escapeChar c ++ rest) = some (c, rest) := by
  unfold escapeChar
  cases short : shortEscape? c with
  | some letter => exact readChar?_short short rest
  | none =>
      dsimp only
      split
      · rename_i numbered
        exact readChar?_numbered (toNat_lt_of_isNumbered numbered) rest
      · exact readChar?_plain short rest

/-! ## Strings and structs -/

/-- A string. -/
def marshalString (text : String) : List Char :=
  '"' :: text.toList.flatMap escapeChar ++ ['"']

example : marshalString "a<b\n" = "\"a\\u003cb\\n\"".toList := by decide

/-- The fields of a struct, in the order of their declaration. -/
def marshalFields : List (String × String) → List Char
  | [] => []
  | [(key, value)] => marshalString key ++ ':' :: marshalString value
  | (key, value) :: fields =>
      marshalString key ++ ':' :: marshalString value ++ ',' :: marshalFields fields

/-- `json.Marshal` of a struct of strings. -/
def marshal (fields : List (String × String)) : List UInt8 :=
  (String.ofList ('\x7b' :: marshalFields fields ++ ['\x7d'])).toUTF8.data.toList

/-- The characters up to a closing quote are determined by the text. -/
theorem escaped_inj {a b rest rest' : List Char}
    (equal : a.flatMap escapeChar ++ '"' :: rest = b.flatMap escapeChar ++ '"' :: rest') :
    a = b ∧ rest = rest' := by
  induction a generalizing b with
  | nil =>
      cases b with
      | nil => exact ⟨rfl, (List.cons.inj equal).2⟩
      | cons c b =>
          have read := congrArg readChar? equal
          rw [List.flatMap_cons, List.append_assoc, readChar?_escapeChar] at read
          cases read
  | cons c a ih =>
      have read := congrArg readChar? equal
      rw [List.flatMap_cons, List.append_assoc, readChar?_escapeChar] at read
      cases b with
      | nil => cases read
      | cons d b =>
          rw [List.flatMap_cons, List.append_assoc, readChar?_escapeChar] at read
          rcases Prod.mk.inj (Option.some.inj read) with ⟨rfl, tail⟩
          rcases ih tail with ⟨rfl, rest_eq⟩
          exact ⟨rfl, rest_eq⟩

theorem marshalString_inj {a b : String} {rest rest' : List Char}
    (equal : marshalString a ++ rest = marshalString b ++ rest') : a = b ∧ rest = rest' := by
  simp only [marshalString, List.cons_append, List.append_assoc, List.cons.injEq, true_and,
    List.nil_append] at equal
  rcases escaped_inj equal with ⟨chars, rest_eq⟩
  exact ⟨String.toList_inj.mp chars, rest_eq⟩

/-- The values are determined by the text and the keys. -/
theorem marshalFields_inj {fields fields' : List (String × String)} {rest rest' : List Char}
    (keys : fields.map Prod.fst = fields'.map Prod.fst)
    (equal : marshalFields fields ++ rest = marshalFields fields' ++ rest') : fields = fields' := by
  induction fields using marshalFields.induct generalizing fields' with
  | case1 => exact (List.map_eq_nil_iff.mp keys.symm).symm
  | case2 key value =>
      match fields', keys with
      | [(key', value')], keys =>
          simp only [marshalFields, List.append_assoc, List.cons_append] at equal
          rcases marshalString_inj equal with ⟨rfl, tail⟩
          rcases marshalString_inj (List.cons.inj tail).2 with ⟨rfl, _⟩
          rfl
  | case3 key value fields more ih =>
      match fields, fields', keys with
      | field :: fields, (key', value') :: field' :: fields', keys =>
          simp only [marshalFields, List.append_assoc, List.cons_append] at equal
          rcases marshalString_inj equal with ⟨rfl, tail⟩
          rcases marshalString_inj (List.cons.inj tail).2 with ⟨rfl, others⟩
          rw [ih (List.cons.inj keys).2 (List.cons.inj others).2]
      | [], _, _ => exact absurd rfl more

/-- The bytes of a struct determine the values of its fields. -/
theorem marshal_inj {fields fields' : List (String × String)}
    (keys : fields.map Prod.fst = fields'.map Prod.fst)
    (equal : marshal fields = marshal fields') : fields = fields' := by
  have text : String.ofList ('\x7b' :: marshalFields fields ++ ['\x7d']) =
      String.ofList ('\x7b' :: marshalFields fields' ++ ['\x7d']) := by
    apply String.toByteArray_inj.mp
    exact ByteArray.ext (Array.toList_inj.mp equal)
  have chars := String.ofList_injective text
  exact marshalFields_inj keys (List.cons.inj chars).2

end Solva.Codec.GoJson
