import Solva.Codec.Cbor

/-!
# The signer's key in authenticator data

`publicKeyFromAuthenticatorData` walks the CBOR map of a COSE key by positions in a
buffer. A byte behind the end throws, a slice that reaches behind the end is cut.
-/

namespace Solva.Passkey

open Codec Cbor

/-! ## `public-key.ts` -/

/-- A `number | Uint8Array`. -/
inductive CborValue where
  | number (n : Int)
  | slice (bytes : List UInt8)
  deriving DecidableEq

/-- `p256.Point.fromHex`, which throws exactly on points off the curve. -/
structure Curve where
  onCurve : List UInt8 → Bool
  error : String

theorem bind_eq_ok_iff {α β : Type} {x : Except String α} {f : α → Except String β} {out : β} :
    (x >>= f) = .ok out ↔ ∃ value, x = .ok value ∧ f value = .ok out := by
  cases x with
  | error message => simp [bind, Except.bind]
  | ok value => simp [bind, Except.bind]

/-- What the reader returns for an item. -/
def readValue : Item → CborValue
  | .int n => .number n
  | .bytes content => .slice content
  | .text content => .slice content

section Positions

variable (cose : List UInt8)

end Positions

/-! ## What the walk finds -/

/-- The COSE key of authenticator data that has one. -/
structure KeyAt (data cose : List UInt8) : Prop where
  found : ∃ flags high low : UInt8, data[32]? = some flags ∧ flags &&& 0x40 ≠ 0 ∧
    data[53]? = some high ∧ data[54]? = some low ∧
      cose = data.drop (55 + (256 * high.toNat + low.toNat))

theorem KeyAt.unique {data cose other : List UInt8} (first : KeyAt data cose)
    (second : KeyAt data other) : cose = other := by
  rcases first.found with ⟨_, _, _, _, _, high, low, rfl⟩
  rcases second.found with ⟨_, _, _, _, _, high', low', rfl⟩
  rw [high] at high'
  rw [low] at low'
  cases high'
  cases low'
  rfl

end Solva.Passkey
