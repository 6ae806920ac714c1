import Mathlib.Tactic.Ring
import Mathlib.Tactic.NormNum
import Mathlib.Data.List.Induction

/-!
# Big-endian byte strings

Fixed-width unsigned numbers travel between the tiers as big-endian bytes.
`ofBytes` reads a byte string of any length and `toBytes width` writes one of
exactly `width` bytes; the two are mutually inverse below `256 ^ width`.
`BytesN width` packages a byte string with its length, so that a value of the
wrong length cannot be built.
-/

namespace Solva.Codec.BigEndian

/-- The number written by a big-endian byte string. -/
def ofBytes (bytes : List UInt8) : Nat :=
  bytes.foldl (fun value byte => 256 * value + byte.toNat) 0

/-- The low `width` bytes of a number, most significant first. -/
def toBytes : Nat → Nat → List UInt8
  | 0, _ => []
  | width + 1, n => toBytes width (n / 256) ++ [UInt8.ofNat (n % 256)]

@[simp]
theorem ofBytes_nil : ofBytes [] = 0 :=
  rfl

@[simp]
theorem ofBytes_append_singleton (bytes : List UInt8) (byte : UInt8) :
    ofBytes (bytes ++ [byte]) = 256 * ofBytes bytes + byte.toNat := by
  simp [ofBytes, List.foldl_append]

@[simp]
theorem length_toBytes (width n : Nat) : (toBytes width n).length = width := by
  induction width generalizing n with
  | zero => rfl
  | succ width ih => simp [toBytes, ih]

theorem toNat_ofNat_mod (n : Nat) : (UInt8.ofNat (n % 256)).toNat = n % 256 := by
  simp

/-- Appending a tail shifts the head by the tail's width. -/
theorem ofBytes_append (left right : List UInt8) :
    ofBytes (left ++ right) = 256 ^ right.length * ofBytes left + ofBytes right := by
  induction right using List.reverseRecOn with
  | nil => simp
  | append_singleton right byte ih =>
      rw [← List.append_assoc, ofBytes_append_singleton, ih, ofBytes_append_singleton,
        List.length_append, List.length_singleton, pow_succ]
      ring

theorem ofBytes_lt (bytes : List UInt8) : ofBytes bytes < 256 ^ bytes.length := by
  induction bytes using List.reverseRecOn with
  | nil => simp
  | append_singleton bytes byte ih =>
      have byte_lt : byte.toNat < 256 := byte.toNat_lt
      rw [ofBytes_append_singleton, List.length_append, List.length_singleton, pow_succ]
      omega

theorem ofBytes_toBytes {width n : Nat} (bound : n < 256 ^ width) :
    ofBytes (toBytes width n) = n := by
  induction width generalizing n with
  | zero =>
      have n_eq : n = 0 := by simpa using bound
      simp [toBytes, n_eq]
  | succ width ih =>
      have quotient_lt : n / 256 < 256 ^ width := by
        rw [pow_succ] at bound
        exact Nat.div_lt_of_lt_mul (by omega)
      rw [toBytes, ofBytes_append_singleton, ih quotient_lt, toNat_ofNat_mod]
      omega

theorem toBytes_ofBytes (bytes : List UInt8) :
    toBytes bytes.length (ofBytes bytes) = bytes := by
  induction bytes using List.reverseRecOn with
  | nil => rfl
  | append_singleton bytes byte ih =>
      have byte_lt : byte.toNat < 256 := byte.toNat_lt
      have quotient : (256 * ofBytes bytes + byte.toNat) / 256 = ofBytes bytes := by
        omega
      have remainder : (256 * ofBytes bytes + byte.toNat) % 256 = byte.toNat := by
        omega
      rw [List.length_append, List.length_singleton, toBytes, ofBytes_append_singleton,
        quotient, remainder, ih, UInt8.ofNat_toNat]

/-- Byte strings of one length are told apart by their values. -/
theorem eq_of_ofBytes_eq {left right : List UInt8}
    (length_eq : left.length = right.length) (value_eq : ofBytes left = ofBytes right) :
    left = right := by
  rw [← toBytes_ofBytes left, ← toBytes_ofBytes right, length_eq, value_eq]

@[simp]
theorem ofBytes_replicate_zero (count : Nat) : ofBytes (List.replicate count 0) = 0 := by
  induction count with
  | zero => rfl
  | succ count ih =>
      rw [List.replicate_succ', ofBytes_append_singleton, ih]
      rfl

/-- Left padding with zero bytes keeps the value. -/
theorem ofBytes_zero_pad (count : Nat) (bytes : List UInt8) :
    ofBytes (List.replicate count 0 ++ bytes) = ofBytes bytes := by
  rw [ofBytes_append, ofBytes_replicate_zero, Nat.mul_zero, Nat.zero_add]

end Solva.Codec.BigEndian

namespace Solva.Codec

/-- A byte string of known length. -/
structure BytesN (width : Nat) where
  bytes : List UInt8
  length_eq : bytes.length = width
  deriving DecidableEq

namespace BytesN

open BigEndian

variable {width : Nat}

/-- The unsigned number in big-endian byte order. -/
def toNat (word : BytesN width) : Nat :=
  ofBytes word.bytes

/-- The low `width` bytes of a number. -/
def ofNat (width n : Nat) : BytesN width :=
  ⟨toBytes width n, length_toBytes width n⟩

theorem eq_of_bytes_eq {left right : BytesN width} (equal : left.bytes = right.bytes) :
    left = right := by
  cases left
  cases right
  congr

/-- Words of one width are told apart in a concatenation. -/
theorem append_bytes_inj {left right : BytesN width} {before before' : List UInt8}
    (equal : before ++ left.bytes = before' ++ right.bytes) : before = before' ∧ left = right := by
  obtain ⟨before_eq, bytes_eq⟩ :=
    List.append_inj' equal (left.length_eq.trans right.length_eq.symm)
  exact ⟨before_eq, eq_of_bytes_eq bytes_eq⟩

instance : Inhabited (BytesN width) :=
  ⟨ofNat width 0⟩

theorem toNat_lt (word : BytesN width) : word.toNat < 256 ^ width := by
  simpa only [toNat, word.length_eq] using ofBytes_lt word.bytes

theorem toNat_ofNat {n : Nat} (bound : n < 256 ^ width) :
    (ofNat width n).toNat = n :=
  ofBytes_toBytes bound

@[simp]
theorem ofNat_toNat (word : BytesN width) : ofNat width word.toNat = word := by
  rcases word with ⟨bytes, rfl⟩
  simp only [ofNat, toNat, toBytes_ofBytes]

theorem toNat_injective : Function.Injective (toNat : BytesN width → Nat) := by
  intro left right value_eq
  rw [← ofNat_toNat left, ← ofNat_toNat right, value_eq]

@[simp]
theorem toNat_inj {left right : BytesN width} :
    left.toNat = right.toNat ↔ left = right :=
  toNat_injective.eq_iff

end BytesN

end Solva.Codec
