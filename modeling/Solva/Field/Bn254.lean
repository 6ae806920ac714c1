import Mathlib.Data.ZMod.Basic
import Mathlib.Tactic.NormNum
import Solva.Codec.BigEndian
import Solva.SumTree.Commitment

/-!
# The BN254 scalar field and the machine integers of the tiers

Every tier commits with elements of the BN254 scalar field. The Rust tiers carry
them as 32 big-endian bytes next to `u128` sums, the circuit as field elements.
The hash of four field elements is a parameter: all tiers share it, and only
concrete runs need its value.
-/

namespace Solva.Bn254

open Codec

/-- The BN254 scalar prime. -/
def p : Nat :=
  21888242871839275222246405745257275088548364400416034343698204186575808495617

instance : NeZero p :=
  ⟨by decide⟩

/-- A scalar field element. -/
abbrev Fr : Type :=
  ZMod p

/-- `Poseidon2::hash([a, b, c, d], 4)`, shared by all tiers. -/
abbrev Hash4 : Type :=
  Fr → Fr → Fr → Fr → Fr

theorem two_pow_128_lt_p : 2 ^ 128 < p := by
  decide

theorem p_lt_two_pow_256 : p < 256 ^ 32 := by
  decide

/-- Below the field modulus, field elements are told apart by their integers. -/
theorem natCast_inj {m n : Nat} (m_lt : m < p) (n_lt : n < p) :
    (m : Fr) = (n : Fr) ↔ m = n := by
  constructor
  · intro cast_eq
    rw [← ZMod.val_natCast_of_lt m_lt, ← ZMod.val_natCast_of_lt n_lt, cast_eq]
  · rintro rfl
    rfl

/-! ## Machine integers -/

/-- An unsigned 64-bit integer. -/
abbrev U64 : Type :=
  Fin (2 ^ 64)

/-- An unsigned 128-bit integer. -/
abbrev U128 : Type :=
  Fin (2 ^ 128)

instance neZeroU64 : NeZero (2 ^ 64) :=
  ⟨by decide⟩

instance neZeroU128 : NeZero (2 ^ 128) :=
  ⟨by decide⟩

/-- Every `u64` is a `u128`. -/
theorem u64_lt_two_pow_128 (value : U64) : value.val < 2 ^ 128 :=
  Nat.lt_trans value.isLt (by decide)

/-- `u128::saturating_add`. -/
def saturatingAdd (a b : U128) : U128 :=
  if fits : a.val + b.val < 2 ^ 128 then ⟨a.val + b.val, fits⟩ else Fin.last (2 ^ 128 - 1)

/-- `u128::checked_add`. -/
def checkedAdd (a b : U128) : Option U128 :=
  if fits : a.val + b.val < 2 ^ 128 then some ⟨a.val + b.val, fits⟩ else none

theorem saturatingAdd_val (a b : U128) :
    (saturatingAdd a b).val = min (a.val + b.val) (2 ^ 128 - 1) := by
  unfold saturatingAdd
  split
  · rename_i fits
    exact (Nat.min_eq_left (by omega)).symm
  · rename_i overflows
    rw [Fin.val_last]
    omega

theorem saturatingAdd_val_of_lt {a b : U128} (fits : a.val + b.val < 2 ^ 128) :
    (saturatingAdd a b).val = a.val + b.val := by
  rw [saturatingAdd, dif_pos fits]

theorem saturatingAdd_comm (a b : U128) : saturatingAdd a b = saturatingAdd b a := by
  apply Fin.ext
  rw [saturatingAdd_val, saturatingAdd_val, Nat.add_comm]

/-- A `u128` as a field element; `2 ^ 128 < p`, so nothing is lost. -/
def frOfU128 (v : U128) : Fr :=
  (v.val : Fr)

theorem U128.val_lt_p (v : U128) : v.val < p :=
  Nat.lt_trans v.isLt two_pow_128_lt_p

@[simp]
theorem frOfU128_val (v : U128) : (frOfU128 v).val = v.val :=
  ZMod.val_natCast_of_lt (U128.val_lt_p v)

theorem frOfU128_injective : Function.Injective frOfU128 := by
  intro left right cast_eq
  exact Fin.ext ((natCast_inj (U128.val_lt_p left) (U128.val_lt_p right)).mp cast_eq)

@[simp]
theorem frOfU128_zero : frOfU128 0 = 0 := by
  simp [frOfU128]

/-! ## Field elements as bytes -/

/-- 32 bytes, as `[u8; 32]` and `BytesN<32>`. -/
abbrev Bytes32 : Type :=
  BytesN 32

/-- `Fr::from_be_bytes_mod_order`. -/
def fromBeBytesModOrder (word : Bytes32) : Fr :=
  (word.toNat : Fr)

/-- The canonical big-endian bytes of a field element. -/
def frToBytes (x : Fr) : Bytes32 :=
  BytesN.ofNat 32 x.val

/-- A word that is the byte form of a field element. -/
def Canonical (word : Bytes32) : Prop :=
  word.toNat < p

instance (word : Bytes32) : Decidable (Canonical word) :=
  inferInstanceAs (Decidable (word.toNat < p))

@[simp]
theorem toNat_frToBytes (x : Fr) : (frToBytes x).toNat = x.val :=
  BytesN.toNat_ofNat (Nat.lt_trans x.val_lt p_lt_two_pow_256)

theorem canonical_frToBytes (x : Fr) : Canonical (frToBytes x) := by
  simpa [Canonical] using x.val_lt

@[simp]
theorem fromBeBytesModOrder_frToBytes (x : Fr) :
    fromBeBytesModOrder (frToBytes x) = x := by
  simp [fromBeBytesModOrder]

theorem frToBytes_fromBeBytesModOrder {word : Bytes32} (canonical : Canonical word) :
    frToBytes (fromBeBytesModOrder word) = word := by
  rw [frToBytes, fromBeBytesModOrder, ZMod.val_natCast_of_lt canonical,
    BytesN.ofNat_toNat]

theorem frToBytes_injective : Function.Injective frToBytes :=
  Function.LeftInverse.injective fromBeBytesModOrder_frToBytes

/-- Canonical words are told apart by their field elements. -/
theorem fromBeBytesModOrder_inj {left right : Bytes32} (left_canonical : Canonical left)
    (right_canonical : Canonical right) :
    fromBeBytesModOrder left = fromBeBytesModOrder right ↔ left = right := by
  rw [fromBeBytesModOrder, fromBeBytesModOrder,
    natCast_inj left_canonical right_canonical, BytesN.toNat_inj]

/-- The sum-tree scheme of the Rust tiers: field digests, saturating `u128`
sums. -/
def scheme (hash4 : Hash4) : SumTree.Scheme Fr U128 where
  hash4 := fun (a, b, c, d) => hash4 a b c d
  embed := frOfU128
  add := saturatingAdd
  embed_injective := frOfU128_injective
  embed_zero := frOfU128_zero
  add_zero sum := Fin.ext (saturatingAdd_val_of_lt (by simp))
  zero_add sum := Fin.ext (by rw [saturatingAdd_val_of_lt (by simp)]; simp)

end Solva.Bn254
