import Solva.Codec.BigEndian
import Mathlib.Tactic.IntervalCases

/-!
# Hexadecimal text

`encode` writes two lower-case digits a byte. `decode` reads digits of either
case and rejects an odd count or any other character, so it accepts exactly the
spellings that agree with an encoding up to letter case.
-/

namespace Solva.Codec.Hex

/-- The value of a hexadecimal digit of either case. -/
def digitValue? : Char → Option Nat
  | '0' => some 0
  | '1' => some 1
  | '2' => some 2
  | '3' => some 3
  | '4' => some 4
  | '5' => some 5
  | '6' => some 6
  | '7' => some 7
  | '8' => some 8
  | '9' => some 9
  | 'a' | 'A' => some 10
  | 'b' | 'B' => some 11
  | 'c' | 'C' => some 12
  | 'd' | 'D' => some 13
  | 'e' | 'E' => some 14
  | 'f' | 'F' => some 15
  | _ => none

/-- The two lower-case digits of a byte. -/
def encodeByte (byte : UInt8) : List Char :=
  [Nat.digitChar (byte.toNat / 16), Nat.digitChar (byte.toNat % 16)]

/-- Lower-case hexadecimal text of a byte string. -/
def encode (bytes : List UInt8) : List Char :=
  bytes.flatMap encodeByte

/-- Read a byte string from hexadecimal text of either case. -/
def decode : List Char → Option (List UInt8)
  | [] => some []
  | [_] => none
  | high :: low :: rest => do
      let highValue ← digitValue? high
      let lowValue ← digitValue? low
      let bytes ← decode rest
      pure (UInt8.ofNat (16 * highValue + lowValue) :: bytes)

@[simp]
theorem encode_nil : encode [] = [] :=
  rfl

@[simp]
theorem encode_cons (byte : UInt8) (bytes : List UInt8) :
    encode (byte :: bytes) =
      Nat.digitChar (byte.toNat / 16) :: Nat.digitChar (byte.toNat % 16) :: encode bytes :=
  rfl

@[simp]
theorem length_encode (bytes : List UInt8) : (encode bytes).length = 2 * bytes.length := by
  induction bytes with
  | nil => rfl
  | cons byte bytes ih =>
      simp only [encode_cons, List.length_cons, ih]
      omega

theorem digitValue?_digitChar {n : Nat} (bound : n < 16) :
    digitValue? (Nat.digitChar n) = some n := by
  interval_cases n <;> rfl

theorem toLower_digitChar {n : Nat} (bound : n < 16) :
    (Nat.digitChar n).toLower = Nat.digitChar n := by
  interval_cases n <;> rfl

/-- A character that reads as a digit is one of the two spellings of it. -/
theorem digitValue?_eq_some {c : Char} {n : Nat} (read : digitValue? c = some n) :
    n < 16 ∧ c.toLower = Nat.digitChar n := by
  unfold digitValue? at read
  split at read <;> simp only [Option.some.injEq, reduceCtorEq] at read <;>
    subst read <;> exact ⟨by decide, rfl⟩

/-- Letter case does not change the value of a digit. -/
theorem digitValue?_toLower (c : Char) : digitValue? c.toLower = digitValue? c := by
  by_cases upper : 'A' ≤ c ∧ c ≤ 'Z'
  · have code_ge : 65 ≤ c.toNat := upper.1
    have code_le : c.toNat ≤ 90 := upper.2
    rw [← Char.ofNat_toNat c]
    generalize c.toNat = code at code_ge code_le
    interval_cases code <;> rfl
  · have lower_eq : c.toLower = c := by
      unfold Char.toLower
      rw [dif_neg]
      intro range
      exact upper ⟨range.1, range.2⟩
    rw [lower_eq]

/-- A character reads as a digit exactly when it is one of its two spellings. -/
theorem digitValue?_eq_some_iff {c : Char} {n : Nat} :
    digitValue? c = some n ↔ n < 16 ∧ c.toLower = Nat.digitChar n :=
  ⟨digitValue?_eq_some, fun spelled => by
    rw [← digitValue?_toLower, spelled.2, digitValue?_digitChar spelled.1]⟩

/-- Two digits make up every byte. -/
theorem ofNat_digits (byte : UInt8) :
    UInt8.ofNat (16 * (byte.toNat / 16) + byte.toNat % 16) = byte := by
  rw [Nat.div_add_mod, UInt8.ofNat_toNat]

theorem encodeByte_ofNat {high low : Nat} (high_lt : high < 16) (low_lt : low < 16) :
    encodeByte (UInt8.ofNat (16 * high + low)) = [Nat.digitChar high, Nat.digitChar low] := by
  have value : (UInt8.ofNat (16 * high + low)).toNat = 16 * high + low := by
    rw [UInt8.toNat_ofNat']
    exact Nat.mod_eq_of_lt (by omega)
  have quotient : (16 * high + low) / 16 = high := by omega
  have remainder : (16 * high + low) % 16 = low := by omega
  rw [encodeByte, value, quotient, remainder]

/-- Text decodes to a byte string exactly when it is that byte string's
encoding up to letter case. -/
theorem decode_eq_some_iff {text : List Char} {bytes : List UInt8} :
    decode text = some bytes ↔ text.map Char.toLower = encode bytes := by
  induction text using decode.induct generalizing bytes with
  | case1 => cases bytes <;> simp [decode]
  | case2 => cases bytes <;> simp [decode]
  | case3 high low rest ih =>
      cases bytes with
      | nil => simp [decode, Option.bind_eq_some_iff]
      | cons byte bytes =>
          have byte_lt : byte.toNat < 256 := byte.toNat_lt
          simp only [decode, Option.bind_eq_bind, Option.bind_eq_some_iff, Option.pure_def,
            Option.some.injEq, List.cons.injEq, List.map_cons, encode_cons]
          constructor
          · rintro ⟨highValue, highRead, lowValue, lowRead, tail, tailRead, byte_eq, rfl⟩
            obtain ⟨high_lt, high_eq⟩ := digitValue?_eq_some highRead
            obtain ⟨low_lt, low_eq⟩ := digitValue?_eq_some lowRead
            have digits := encodeByte_ofNat high_lt low_lt
            rw [byte_eq, encodeByte, List.cons.injEq, List.cons.injEq] at digits
            exact ⟨high_eq.trans digits.1.symm, low_eq.trans digits.2.1.symm, ih.mp tailRead⟩
          · rintro ⟨high_eq, low_eq, tail_eq⟩
            exact ⟨byte.toNat / 16, digitValue?_eq_some_iff.mpr ⟨by omega, high_eq⟩,
              byte.toNat % 16, digitValue?_eq_some_iff.mpr ⟨by omega, low_eq⟩,
              bytes, ih.mpr tail_eq, ofNat_digits byte, rfl⟩

theorem map_toLower_encode (bytes : List UInt8) :
    (encode bytes).map Char.toLower = encode bytes := by
  induction bytes with
  | nil => rfl
  | cons byte bytes ih =>
      have byte_lt : byte.toNat < 256 := byte.toNat_lt
      simp only [encode_cons, List.map_cons, ih,
        toLower_digitChar (show byte.toNat / 16 < 16 by omega),
        toLower_digitChar (show byte.toNat % 16 < 16 by omega)]

@[simp]
theorem decode_encode (bytes : List UInt8) : decode (encode bytes) = some bytes :=
  decode_eq_some_iff.mpr (map_toLower_encode bytes)

theorem encode_injective : Function.Injective encode := by
  intro left right equal
  have decoded := congrArg decode equal
  simpa only [decode_encode, Option.some.injEq] using decoded

/-- Every character of an encoding is a lower-case digit. -/
theorem exists_digit_of_mem_encode {c : Char} {bytes : List UInt8} (mem : c ∈ encode bytes) :
    ∃ n < 16, c = Nat.digitChar n := by
  obtain ⟨byte, _, c_mem⟩ := List.mem_flatMap.mp mem
  have byte_lt : byte.toNat < 256 := byte.toNat_lt
  rcases List.mem_cons.mp c_mem with rfl | c_mem
  · exact ⟨_, by omega, rfl⟩
  · rw [List.mem_singleton.mp c_mem]
    exact ⟨_, by omega, rfl⟩

/-! ## Hexadecimal numbers -/

/-- The number written by a nonempty run of digits. -/
def number? (text : List Char) : Option Nat :=
  if text = [] then none
  else text.foldlM (fun value c => (digitValue? c).map (16 * value + ·)) 0

theorem foldlM_number_encode (value : Nat) (bytes : List UInt8) :
    (encode bytes).foldlM (fun value c => (digitValue? c).map (16 * value + ·)) value =
      some (256 ^ bytes.length * value + BigEndian.ofBytes bytes) := by
  induction bytes generalizing value with
  | nil => simp
  | cons byte bytes ih =>
      have byte_lt : byte.toNat < 256 := byte.toNat_lt
      have head : BigEndian.ofBytes (byte :: bytes) =
          256 ^ bytes.length * byte.toNat + BigEndian.ofBytes bytes := by
        have split := BigEndian.ofBytes_append [byte] bytes
        simpa [BigEndian.ofBytes] using split
      have digits : 16 * (16 * value + byte.toNat / 16) + byte.toNat % 16 =
          256 * value + byte.toNat := by omega
      simp only [encode_cons, List.foldlM_cons,
        digitValue?_digitChar (show byte.toNat / 16 < 16 by omega),
        digitValue?_digitChar (show byte.toNat % 16 < 16 by omega), Option.map_some,
        Option.bind_eq_bind, Option.bind_some, digits, ih, head]
      rw [List.length_cons, pow_succ]
      congr 1
      ring

/-- An encoding, read as a number, is the big-endian number of its bytes. -/
theorem number?_encode {bytes : List UInt8} (nonempty : bytes ≠ []) :
    number? (encode bytes) = some (BigEndian.ofBytes bytes) := by
  have encode_ne : encode bytes ≠ [] := by
    intro empty
    have length_eq := length_encode bytes
    rw [empty, List.length_nil] at length_eq
    exact nonempty (List.length_eq_zero_iff.mp (by omega))
  rw [number?, if_neg encode_ne, foldlM_number_encode, Nat.mul_zero, Nat.zero_add]

end Solva.Codec.Hex
