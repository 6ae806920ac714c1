import Solva.Codec.Decimal
import Solva.Codec.GoJson
import Solva.Codec.Json

/-!
# The text of JSON values

A reader of JSON text, and writers that differ in their escapes and in the blanks
behind a separator. Every writer's text reads back as the value. The reader is run on
the length of the text, which is enough for all that is written.
-/

namespace Solva.Codec

/-! ## Reading -/

namespace JsonText

/-- White space between tokens. -/
def isBlank (c : Char) : Bool :=
  c = ' ' || c = '\n' || c = '\r' || c = '\t'

/-- What is left behind white space. -/
def skip (text : List Char) : List Char :=
  text.dropWhile isBlank

/-- The characters up to the closing quote, and what is left behind it. -/
def readString : Nat → List Char → Option (List Char × List Char)
  | 0, _ => none
  | _ + 1, '"' :: rest => some ([], rest)
  | fuel + 1, text => do
      let (c, rest) ← GoJson.readChar? text
      let (chars, rest) ← readString fuel rest
      pure (c :: chars, rest)

/-- An unsigned number without leading zeros. -/
def readNumber (text : List Char) : Option (Nat × List Char) :=
  (Decimal.unsigned? (text.takeWhile Char.isDigit)).bind fun n =>
    if n.repr.toList = text.takeWhile Char.isDigit then some (n, text.dropWhile Char.isDigit)
    else none

mutual

/-- A value off the front of a text. -/
def readValue : Nat → List Char → Option (Json × List Char)
  | 0, _ => none
  | fuel + 1, text =>
      match skip text with
      | '"' :: rest => do
          let (chars, rest) ← readString fuel rest
          pure (.string (String.ofList chars), rest)
      | '[' :: rest =>
          match skip rest with
          | ']' :: rest => some (.array [], rest)
          | _ => do
              let (items, rest) ← readItems fuel rest
              pure (.array items, rest)
      | '\x7b' :: rest =>
          match skip rest with
          | '\x7d' :: rest => some (.object [], rest)
          | _ => do
              let (fields, rest) ← readFields fuel rest
              pure (.object fields, rest)
      | 't' :: 'r' :: 'u' :: 'e' :: rest => some (.bool true, rest)
      | 'f' :: 'a' :: 'l' :: 's' :: 'e' :: rest => some (.bool false, rest)
      | text => do
          let (n, rest) ← readNumber text
          pure (.number n, rest)

/-- The items up to the closing bracket. -/
def readItems : Nat → List Char → Option (List Json × List Char)
  | 0, _ => none
  | fuel + 1, text => do
      let (item, rest) ← readValue fuel text
      match skip rest with
      | ']' :: rest => pure ([item], rest)
      | ',' :: rest => do
          let (items, rest) ← readItems fuel rest
          pure (item :: items, rest)
      | _ => none

/-- The fields up to the closing brace. -/
def readFields : Nat → List Char → Option (List (String × Json) × List Char)
  | 0, _ => none
  | fuel + 1, text =>
      match skip text with
      | '"' :: rest => do
          let (key, rest) ← readString fuel rest
          match skip rest with
          | ':' :: rest => do
              let (value, rest) ← readValue fuel rest
              match skip rest with
              | '\x7d' :: rest => pure ([(String.ofList key, value)], rest)
              | ',' :: rest => do
                  let (fields, rest) ← readFields fuel rest
                  pure ((String.ofList key, value) :: fields, rest)
              | _ => none
          | _ => none
      | _ => none

end

/-- The value of a text that holds one value. -/
def parse (text : List Char) : Option Json :=
  match readValue (text.length + 1) text with
  | some (value, rest) => if skip rest = [] then some value else none
  | none => none

/-! ## Writing -/

/-- How a library writes: what it puts behind a separator, and its escapes, each of
which stands for its character. -/
structure Style where
  gap : List Char
  escape : Char → List Char
  gap_blank : ∀ c ∈ gap, isBlank c = true
  reads : ∀ c rest, GoJson.readChar? (escape c ++ rest) = some (c, rest)

namespace Style

variable (style : Style)

/-- A string from behind its opening quote on. -/
def writeString (text : String) : List Char :=
  text.toList.flatMap style.escape ++ ['"']

mutual

/-- The text of a value. -/
def write : Json → List Char
  | .bool true => ['t', 'r', 'u', 'e']
  | .bool false => ['f', 'a', 'l', 's', 'e']
  | .number n => n.repr.toList
  | .string text => '"' :: style.writeString text
  | .array [] => ['[', ']']
  | .array (item :: items) => '[' :: (write item ++ writeItems items)
  | .object [] => ['\x7b', '\x7d']
  | .object ((key, value) :: fields) =>
      '\x7b' :: '"' :: ((style.writeString key ++ ':' :: (style.gap ++ write value)) ++
        writeFields fields)

/-- The items behind the first one. -/
def writeItems : List Json → List Char
  | [] => [']']
  | item :: items => ',' :: (style.gap ++ (write item ++ writeItems items))

/-- The fields behind the first one. -/
def writeFields : List (String × Json) → List Char
  | [] => ['\x7d']
  | (key, value) :: fields =>
      ',' :: (style.gap ++ '"' :: ((style.writeString key ++ ':' :: (style.gap ++ write value)) ++
        writeFields fields))

end

end Style

/-! ## Text that is written reads back -/

section Tokens

variable (style : Style)

theorem skip_gap (rest : List Char) : skip (style.gap ++ rest) = skip rest :=
  List.dropWhile_append_of_pos style.gap_blank

theorem length_escape_pos (c : Char) : 0 < (style.escape c).length := by
  apply List.length_pos_of_ne_nil
  intro empty
  have nothing := style.reads c []
  rw [empty] at nothing
  cases nothing

/-- The first character of an escape closes no string. -/
theorem escape_ne_quote (c : Char) (rest more : List Char) :
    style.escape c ++ rest ≠ '"' :: more := by
  intro closes
  have read := style.reads c rest
  rw [closes] at read
  cases read

theorem readString_chars (chars rest : List Char) {fuel : Nat}
    (enough : (chars.flatMap style.escape).length < fuel) :
    readString fuel (chars.flatMap style.escape ++ '"' :: rest) = some (chars, rest) := by
  induction chars generalizing fuel with
  | nil =>
      cases fuel with
      | zero => cases enough
      | succ fuel => rfl
  | cons c chars ih =>
      cases fuel with
      | zero => cases enough
      | succ fuel =>
          rw [List.flatMap_cons, List.length_append] at enough
          have positive := length_escape_pos style c
          have others : (chars.flatMap style.escape).length < fuel := by omega
          rw [List.flatMap_cons, List.append_assoc, readString]
          · rw [style.reads]
            show (readString fuel (chars.flatMap style.escape ++ '"' :: rest) >>= fun read =>
              pure (c :: read.1, read.2)) = _
            rw [ih others]
            rfl
          · exact escape_ne_quote style c _

theorem readString_write (text : String) (rest : List Char) {fuel : Nat}
    (enough : (style.writeString text).length ≤ fuel) :
    readString fuel (style.writeString text ++ rest) = some (text.toList, rest) := by
  rw [Style.writeString, List.length_append, List.length_singleton] at enough
  rw [Style.writeString, List.append_assoc]
  exact readString_chars style text.toList rest enough

/-- What follows a number is no digit. -/
def Ends (rest : List Char) : Prop :=
  ∀ c ∈ rest.head?, c.isDigit = false

theorem ends_cons {c : Char} (other : c.isDigit = false) (rest : List Char) : Ends (c :: rest) := by
  intro first mem
  cases mem
  exact other

theorem readNumber_repr (n : Nat) {rest : List Char} (ends : Ends rest) :
    readNumber (n.repr.toList ++ rest) = some (n, rest) := by
  have digits : ∀ c ∈ n.repr.toList, c.isDigit = true := fun c mem => Decimal.repr_isDigit mem
  have none_taken : rest.takeWhile Char.isDigit = [] := by
    cases rest with
    | nil => rfl
    | cons c rest => exact List.takeWhile_cons_of_neg (by simp [ends c rfl])
  have none_dropped : rest.dropWhile Char.isDigit = rest := by
    cases rest with
    | nil => rfl
    | cons c rest => exact List.dropWhile_cons_of_neg (by simp [ends c rfl])
  rw [readNumber, List.takeWhile_append_of_pos digits, List.dropWhile_append_of_pos digits,
    none_taken, none_dropped, List.append_nil, Decimal.unsigned?_repr]
  exact if_pos rfl

theorem exists_digit_repr (n : Nat) :
    ∃ digit digits, n.repr.toList = digit :: digits ∧ digit.isDigit = true := by
  have nonempty := (Decimal.unsigned?_eq_some_iff.mp (Decimal.unsigned?_repr n)).1
  rcases List.exists_cons_of_ne_nil nonempty with ⟨digit, digits, shape⟩
  refine ⟨digit, digits, shape, Decimal.repr_isDigit (n := n) ?_⟩
  rw [shape]
  exact List.mem_cons_self

theorem skip_cons {c : Char} (other : isBlank c = false) (rest : List Char) :
    skip (c :: rest) = c :: rest :=
  List.dropWhile_cons_of_neg (by simp [other])

theorem isBlank_of_isDigit {c : Char} (digit : c.isDigit = true) : isBlank c = false := by
  by_contra blank
  simp only [Bool.not_eq_false, isBlank, Bool.or_eq_true, decide_eq_true_eq] at blank
  rcases blank with ((rfl | rfl) | rfl) | rfl <;> cases digit

/-- No value starts with white space or closes a bracket. -/
theorem exists_cons_write (value : Json) : ∃ c rest, style.write value = c :: rest ∧
    isBlank c = false ∧ c ≠ ']' ∧ c ≠ '\x7d' := by
  cases value with
  | bool value => cases value <;> exact ⟨_, _, rfl, by decide, by decide, by decide⟩
  | number n =>
      rcases exists_digit_repr n with ⟨digit, digits, shape, is_digit⟩
      refine ⟨digit, digits, shape, isBlank_of_isDigit is_digit, ?_, ?_⟩ <;> rintro rfl <;>
        cases is_digit
  | string text => exact ⟨_, _, rfl, by decide, by decide, by decide⟩
  | array items => cases items <;> exact ⟨_, _, rfl, by decide, by decide, by decide⟩
  | object fields => cases fields <;> exact ⟨_, _, rfl, by decide, by decide, by decide⟩

/-- Blanks in front of a value are skipped. -/
theorem readValue_skip {text other : List Char} (same : skip text = skip other) (fuel : Nat) :
    readValue fuel text = readValue fuel other := by
  cases fuel with
  | zero => rfl
  | succ fuel => rw [readValue, readValue, same]

theorem readItems_skip {text other : List Char} (same : skip text = skip other) (fuel : Nat) :
    readItems fuel text = readItems fuel other := by
  cases fuel with
  | zero => rfl
  | succ fuel => rw [readItems, readItems, readValue_skip same]

theorem readFields_skip {text other : List Char} (same : skip text = skip other) (fuel : Nat) :
    readFields fuel text = readFields fuel other := by
  cases fuel with
  | zero => rfl
  | succ fuel => rw [readFields, readFields, same]

theorem readValue_number (n : Nat) {rest : List Char} (ends : Ends rest) (fuel : Nat) :
    readValue (fuel + 1) (n.repr.toList ++ rest) = some (.number n, rest) := by
  have read := readNumber_repr n ends
  rcases exists_digit_repr n with ⟨digit, digits, shape, is_digit⟩
  rw [shape] at read ⊢
  rw [readValue, List.cons_append, skip_cons (isBlank_of_isDigit is_digit)]
  have other {c : Char} {more : List Char} (same : digit :: (digits ++ rest) = c :: more)
      (not_digit : c.isDigit = false) : False := by
    rw [(List.cons.inj same).1, not_digit] at is_digit
    cases is_digit
  split
  · rename_i same
    exact (other same rfl).elim
  · rename_i same
    exact (other same rfl).elim
  · rename_i same
    exact (other same rfl).elim
  · rename_i same
    exact (other same rfl).elim
  · rename_i same
    exact (other same rfl).elim
  · rw [← List.cons_append, read]
    rfl

theorem readValue_string {fuel : Nat} {text chars rest : List Char}
    (read : readString fuel text = some (chars, rest)) :
    readValue (fuel + 1) ('"' :: text) = some (.string (String.ofList chars), rest) := by
  rw [readValue, skip_cons (by decide)]
  show (readString fuel text >>= fun read =>
    pure (Json.string (String.ofList read.1), read.2)) = _
  rw [read]
  rfl

theorem readValue_array {fuel : Nat} {c : Char} {text rest : List Char} {items : List Json}
    (open_ : isBlank c = false ∧ c ≠ ']')
    (read : readItems fuel (c :: text) = some (items, rest)) :
    readValue (fuel + 1) ('[' :: c :: text) = some (.array items, rest) := by
  have closed : ∀ more, skip (c :: text) = ']' :: more → False := by
    intro more same
    rw [skip_cons open_.1] at same
    exact open_.2 (List.cons.inj same).1
  rw [readValue, skip_cons (by decide)]
  show (match skip (c :: text) with
    | ']' :: rest => some (Json.array [], rest)
    | _ => readItems fuel (c :: text) >>= fun read => pure (Json.array read.1, read.2)) = _
  split
  · rename_i same
    exact (closed _ same).elim
  · rw [read]
    rfl

theorem readValue_object {fuel : Nat} {text rest : List Char} {fields : List (String × Json)}
    (read : readFields fuel ('"' :: text) = some (fields, rest)) :
    readValue (fuel + 1) ('\x7b' :: '"' :: text) = some (.object fields, rest) := by
  rw [readValue, skip_cons (by decide)]
  show (readFields fuel ('"' :: text) >>= fun read => pure (Json.object read.1, read.2)) = _
  rw [read]
  rfl

theorem readItems_of_close {fuel : Nat} {text rest : List Char} {item : Json}
    (read : readValue fuel text = some (item, ']' :: rest)) :
    readItems (fuel + 1) text = some ([item], rest) := by
  rw [readItems, read]
  rfl

theorem readItems_of_comma {fuel : Nat} {text more rest : List Char} {item : Json}
    {items : List Json} (read : readValue fuel text = some (item, ',' :: more))
    (others : readItems fuel more = some (items, rest)) :
    readItems (fuel + 1) text = some (item :: items, rest) := by
  rw [readItems, read]
  show (readItems fuel more >>= fun read => pure (item :: read.1, read.2)) = _
  rw [others]
  rfl

section Fields

variable {fuel : Nat} {text more rest : List Char} {key : List Char} {value : Json}

theorem readFields_of_close (key_read : readString fuel text = some (key, ':' :: more))
    (read : readValue fuel more = some (value, '\x7d' :: rest)) :
    readFields (fuel + 1) ('"' :: text) = some ([(String.ofList key, value)], rest) := by
  rw [readFields, skip_cons (by decide)]
  show (readString fuel text >>= fun read => match skip read.2 with
    | ':' :: rest => readValue fuel rest >>= fun value => match skip value.2 with
        | '\x7d' :: rest => pure ([(String.ofList read.1, value.1)], rest)
        | ',' :: rest => readFields fuel rest >>= fun fields =>
            pure ((String.ofList read.1, value.1) :: fields.1, fields.2)
        | _ => none
    | _ => none) = _
  rw [key_read]
  show (readValue fuel more >>= _) = _
  rw [read]
  rfl

theorem readFields_of_comma {others : List (String × Json)} {left : List Char}
    (key_read : readString fuel text = some (key, ':' :: more))
    (read : readValue fuel more = some (value, ',' :: left))
    (fields_read : readFields fuel left = some (others, rest)) :
    readFields (fuel + 1) ('"' :: text) = some ((String.ofList key, value) :: others, rest) := by
  rw [readFields, skip_cons (by decide)]
  show (readString fuel text >>= fun read => match skip read.2 with
    | ':' :: rest => readValue fuel rest >>= fun value => match skip value.2 with
        | '\x7d' :: rest => pure ([(String.ofList read.1, value.1)], rest)
        | ',' :: rest => readFields fuel rest >>= fun fields =>
            pure ((String.ofList read.1, value.1) :: fields.1, fields.2)
        | _ => none
    | _ => none) = _
  rw [key_read]
  show (readValue fuel more >>= _) = _
  rw [read]
  show (readFields fuel left >>= _) = _
  rw [fields_read]
  rfl

end Fields

/-- The text of one field, from behind its opening quote on. -/
def Style.writeField (key : String) (value : Json) : List Char :=
  style.writeString key ++ ':' :: (style.gap ++ style.write value)

theorem write_object_cons (key : String) (value : Json) (fields : List (String × Json)) :
    style.write (.object ((key, value) :: fields)) =
      '\x7b' :: '"' :: (style.writeField key value ++ style.writeFields fields) :=
  rfl

theorem writeFields_cons (key : String) (value : Json) (fields : List (String × Json)) :
    style.writeFields ((key, value) :: fields) =
      ',' :: (style.gap ++ '"' :: (style.writeField key value ++ style.writeFields fields)) :=
  rfl

theorem writeItems_length_pos (items : List Json) : 0 < (style.writeItems items).length := by
  cases items <;> exact Nat.succ_pos _

theorem writeFields_length_pos (fields : List (String × Json)) :
    0 < (style.writeFields fields).length := by
  cases fields with
  | nil => exact Nat.succ_pos _
  | cons field fields => exact Nat.succ_pos _

mutual

/-- A value that is written reads back. -/
theorem readValue_write (value : Json) (rest : List Char) (fuel : Nat)
    (enough : (style.write value).length ≤ fuel) (ends : Ends rest) :
    readValue fuel (style.write value ++ rest) = some (value, rest) := by
  cases fuel with
  | zero =>
      rcases exists_cons_write style value with ⟨_, _, shape, _⟩
      rw [shape] at enough
      cases enough
  | succ fuel =>
      cases value with
      | bool value => cases value <;> rfl
      | number n => exact readValue_number n ends fuel
      | string text =>
          rw [Style.write, List.length_cons] at enough
          have read := readString_write style text rest (Nat.le_of_succ_le_succ enough)
          rw [Style.write, List.cons_append, readValue_string read, String.ofList_toList]
      | array items =>
          cases items with
          | nil => rfl
          | cons item items =>
              rw [Style.write, List.length_cons, List.length_append] at enough
              have read := readItems_write item items rest fuel (Nat.le_of_succ_le_succ enough)
              rcases exists_cons_write style item with ⟨c, more, shape, other, not_closed, _⟩
              rw [Style.write, List.cons_append, List.append_assoc]
              rw [shape, List.cons_append] at read ⊢
              exact readValue_array ⟨other, not_closed⟩ read
      | object fields =>
          cases fields with
          | nil => rfl
          | cons field fields =>
              cases field with
              | mk key value =>
                  rw [write_object_cons, List.length_cons, List.length_cons,
                    List.length_append] at enough
                  have read := readFields_write key value fields rest fuel (by omega)
                  rw [write_object_cons, List.cons_append, List.cons_append, List.append_assoc]
                  exact readValue_object read
termination_by sizeOf value

/-- Items read back up to the closing bracket. -/
theorem readItems_write (item : Json) (items : List Json) (rest : List Char) (fuel : Nat)
    (enough : (style.write item).length + (style.writeItems items).length ≤ fuel) :
    readItems fuel (style.write item ++ (style.writeItems items ++ rest)) =
      some (item :: items, rest) := by
  have positive := writeItems_length_pos style items
  cases fuel with
  | zero => omega
  | succ fuel =>
      cases items with
      | nil =>
          exact readItems_of_close (readValue_write item _ fuel (by omega) (ends_cons rfl rest))
      | cons next items =>
          rw [Style.writeItems, List.length_cons, List.length_append, List.length_append] at enough
          have others := readItems_write next items rest fuel (by omega)
          rw [← readItems_skip (skip_gap style _)] at others
          have first := readValue_write item (',' :: (style.gap ++ (style.write next ++
            (style.writeItems items ++ rest)))) fuel (by omega) (ends_cons rfl _)
          rw [Style.writeItems]
          simp only [List.cons_append, List.append_assoc]
          exact readItems_of_comma first others
termination_by sizeOf item + sizeOf items

/-- Fields read back up to the closing brace. -/
theorem readFields_write (key : String) (value : Json) (fields : List (String × Json))
    (rest : List Char) (fuel : Nat)
    (enough : (style.writeField key value).length + (style.writeFields fields).length ≤ fuel) :
    readFields fuel ('"' :: (style.writeField key value ++ (style.writeFields fields ++ rest))) =
      some ((key, value) :: fields, rest) := by
  have positive := writeFields_length_pos style fields
  rw [Style.writeField, List.length_append, List.length_cons, List.length_append] at enough
  cases fuel with
  | zero => omega
  | succ fuel =>
      have key_read (more : List Char) := readString_write style key (':' :: more)
        (by omega : (style.writeString key).length ≤ fuel)
      rw [Style.writeField]
      simp only [List.cons_append, List.append_assoc]
      cases fields with
      | nil =>
          have read := readValue_write value ('\x7d' :: rest) fuel (by omega)
            (ends_cons rfl rest)
          rw [← readValue_skip (skip_gap style _)] at read
          have both := readFields_of_close (key_read _) read
          rwa [String.ofList_toList] at both
      | cons field fields =>
          cases field with
          | mk next other =>
              rw [writeFields_cons, List.length_cons, List.length_append, List.length_cons,
                List.length_append] at enough
              have others := readFields_write next other fields rest fuel (by omega)
              rw [← readFields_skip (skip_gap style _)] at others
              have read := readValue_write value (',' :: (style.gap ++ '"' ::
                (style.writeField next other ++ (style.writeFields fields ++ rest)))) fuel
                (by omega) (ends_cons rfl _)
              rw [← readValue_skip (skip_gap style _)] at read
              have both := readFields_of_comma (key_read _) read others
              rw [String.ofList_toList] at both
              rw [writeFields_cons]
              simpa only [List.cons_append, List.append_assoc] using both
termination_by sizeOf value + sizeOf fields

end

/-- The text of a value is the text of one value. -/
theorem parse_write (value : Json) : parse (style.write value) = some value := by
  have read := readValue_write style value [] ((style.write value).length + 1) (Nat.le_succ _)
    (by simp [Ends])
  rw [List.append_nil] at read
  rw [parse, read]
  exact if_pos rfl

end Tokens

/-! ## The writers -/

/-- A backslash or a quote behind a backslash, control characters by letter or number:
`serde_json` and the output of a `jsonb`. -/
def plainEscape (c : Char) : List Char :=
  match GoJson.shortEscape? c with
  | some letter => ['\\', letter]
  | none => if c.toNat < 0x20 then '\\' :: 'u' :: GoJson.hex4 c.toNat else [c]

theorem readChar?_plainEscape (c : Char) (rest : List Char) :
    GoJson.readChar? (plainEscape c ++ rest) = some (c, rest) := by
  unfold plainEscape
  cases short : GoJson.shortEscape? c with
  | some letter => exact GoJson.readChar?_short short rest
  | none =>
      dsimp only
      split
      · exact GoJson.readChar?_numbered (by omega) rest
      · exact GoJson.readChar?_plain short rest

/-- `serde_json::to_vec`. -/
def serde : Style :=
  ⟨[], plainEscape, by simp, readChar?_plainEscape⟩

/-- The text of a `jsonb`. -/
def postgres : Style :=
  ⟨[' '], plainEscape, by simp [isBlank], readChar?_plainEscape⟩

/-- `json.Marshal`. -/
def go : Style :=
  ⟨[], GoJson.escapeChar, by simp, GoJson.readChar?_escapeChar⟩

/-! ## Bytes -/

/-- The bytes of a text. -/
def Style.encode (style : Style) (value : Json) : List UInt8 :=
  (String.ofList (style.write value)).toUTF8.data.toList

/-- The value of a text in bytes. -/
def decode (bytes : List UInt8) : Option Json :=
  (String.fromUTF8? ⟨bytes.toArray⟩).bind fun text => parse text.toList

theorem decode_encode (style : Style) (value : Json) :
    decode (style.encode value) = some value := by
  have valid : (String.ofList (style.write value)).toByteArray.IsValidUTF8 :=
    (String.ofList (style.write value)).isValidUTF8
  have text : String.fromUTF8? (String.ofList (style.write value)).toByteArray =
      some (String.ofList (style.write value)) :=
    dif_pos valid
  rw [decode, Style.encode, Array.toArray_toList]
  show (String.fromUTF8? (String.ofList (style.write value)).toByteArray).bind _ = _
  rw [text, Option.bind_some, String.toList_ofList, parse_write]

end JsonText

/-! ## What a `jsonb` column makes of a value -/

namespace Json

/-- Shorter keys stand first, keys of one length in the order of their characters. -/
def keyBefore (a b : String) : Bool :=
  a.utf8ByteSize < b.utf8ByteSize || a.utf8ByteSize = b.utf8ByteSize && a < b

/-- Put a field in its place, unless a later one has its key. -/
def insertField (key : String) (value : Json) : List (String × Json) → List (String × Json)
  | [] => [(key, value)]
  | (other, kept) :: fields =>
      if key = other then (other, kept) :: fields
      else if keyBefore key other then (key, value) :: (other, kept) :: fields
      else (other, kept) :: insertField key value fields

mutual

/-- A value as the column keeps it. -/
def jsonb : Json → Json
  | .bool value => .bool value
  | .number n => .number n
  | .string text => .string text
  | .array items => .array (jsonbItems items)
  | .object fields => .object (jsonbFields fields)

def jsonbItems : List Json → List Json
  | [] => []
  | item :: items => jsonb item :: jsonbItems items

def jsonbFields : List (String × Json) → List (String × Json)
  | [] => []
  | (key, value) :: fields => insertField key (jsonb value) (jsonbFields fields)

end

/-- A value whose objects have no key twice. -/
inductive Distinct : Json → Prop
  | bool (value : Bool) : Distinct (.bool value)
  | number (n : Nat) : Distinct (.number n)
  | string (text : String) : Distinct (.string text)
  | array {items : List Json} : (∀ item ∈ items, Distinct item) → Distinct (.array items)
  | object {fields : List (String × Json)} : (fields.map Prod.fst).Nodup →
      (∀ entry ∈ fields, Distinct entry.2) → Distinct (.object fields)

theorem field?_cons (key other : String) (value : Json) (fields : List (String × Json)) :
    (object ((key, value) :: fields)).field? other =
      if key = other then some value else (object fields).field? other := by
  by_cases same : key = other
  · rw [if_pos same, field?, List.find?_cons_of_pos (by simpa using same)]
    rfl
  · rw [if_neg same, field?, List.find?_cons_of_neg (by simpa using same)]
    rfl

theorem field?_eq_none {key : String} {fields : List (String × Json)}
    (absent : key ∉ fields.map Prod.fst) : (object fields).field? key = none := by
  induction fields with
  | nil => rfl
  | cons field fields ih =>
      rw [List.map_cons, List.mem_cons, not_or] at absent
      rw [field?_cons, if_neg (Ne.symm absent.1), ih absent.2]

/-- A field that is put in its place is found, and so are the others. -/
theorem field?_insertField {key : String} {fields : List (String × Json)} (value : Json)
    (absent : (object fields).field? key = none) (other : String) :
    (object (insertField key value fields)).field? other =
      if key = other then some value else (object fields).field? other := by
  induction fields with
  | nil => exact field?_cons key other value []
  | cons field fields ih =>
      rcases field with ⟨first, kept⟩
      rw [field?_cons] at absent
      split_ifs at absent with same
      rw [insertField, if_neg (Ne.symm same)]
      split
      · exact field?_cons key other value _
      · rw [field?_cons, ih absent, field?_cons]
        by_cases at_first : first = other
        · rw [if_pos at_first, if_pos at_first, if_neg fun equal =>
            same (at_first.trans equal.symm)]
        · rw [if_neg at_first, if_neg at_first]

theorem same_jsonbItems {items : List Json} (same : ∀ item ∈ items, Same item item.jsonb) :
    List.Forall₂ Same items (jsonbItems items) := by
  induction items with
  | nil => exact .nil
  | cons item items ih =>
      exact .cons (same item List.mem_cons_self)
        (ih fun other mem => same other (List.mem_cons_of_mem _ mem))

theorem same_jsonbFields {fields : List (String × Json)} (unique : (fields.map Prod.fst).Nodup)
    (same : ∀ entry ∈ fields, Same entry.2 entry.2.jsonb) (key : String) :
    Option.Rel Same ((object fields).field? key) ((object (jsonbFields fields)).field? key) := by
  induction fields generalizing key with
  | nil => exact .none
  | cons field fields ih =>
      rcases field with ⟨first, value⟩
      rw [List.map_cons, List.nodup_cons] at unique
      have others := ih unique.2 fun entry mem => same entry (List.mem_cons_of_mem _ mem)
      have absent : (object (jsonbFields fields)).field? first = none := by
        have related := others first
        rw [field?_eq_none unique.1] at related
        generalize (object (jsonbFields fields)).field? first = found at related
        cases related
        rfl
      rw [jsonbFields, field?_cons, field?_insertField _ absent]
      split
      · exact .some (same _ List.mem_cons_self)
      · exact others key

/-- The column keeps a value up to the order of its fields. -/
theorem same_jsonb {value : Json} (distinct : value.Distinct) : Same value value.jsonb := by
  induction distinct with
  | bool value => exact .bool value
  | number n => exact .number n
  | string text => exact .string text
  | array _ ih => exact .array (same_jsonbItems ih)
  | object unique _ ih => exact .object (same_jsonbFields unique ih)

end Json

/-! ## Links of text -/

namespace JsonText

/-- One library writes, another reads. -/
def Style.link (style : Style) : JsonLink :=
  ⟨style.encode, decode⟩

/-- A library writes, and a `jsonb` column keeps what it reads. -/
def Style.column (style : Style) : JsonLink :=
  ⟨style.encode, fun bytes => (decode bytes).map Json.jsonb⟩

theorem link_carries (style : Style) (value : Json) : style.link.Carries value :=
  ⟨value, decode_encode style value, .refl value⟩

theorem column_reads (style : Style) (value : Json) :
    style.column.decode (style.column.encode value) = some value.jsonb := by
  show (decode (style.encode value)).map Json.jsonb = some value.jsonb
  rw [decode_encode, Option.map_some]

theorem column_carries (style : Style) {value : Json} (distinct : value.Distinct) :
    style.column.Carries value :=
  ⟨value.jsonb, column_reads style value, Json.same_jsonb distinct⟩

end JsonText

end Solva.Codec
