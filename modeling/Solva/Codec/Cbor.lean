import Mathlib.Data.List.Basic

/-!
# CBOR items with short arguments

Integers and strings whose argument is below 65536, in any of the forms that hold it:
in the initial byte, or in one or two bytes behind. The forms need not be the
shortest ones.
-/

namespace Solva.Codec.Cbor

/-- A head: the major type in three bits, and an argument. -/
inductive Head (major : Nat) : Nat → List UInt8 → Prop
  | direct {n : Nat} (small : n < 24) : Head major n [UInt8.ofNat (32 * major + n)]
  | one (byte : UInt8) : Head major byte.toNat [UInt8.ofNat (32 * major + 24), byte]
  | two (high low : UInt8) :
      Head major (256 * high.toNat + low.toNat) [UInt8.ofNat (32 * major + 25), high, low]

inductive Item where
  | int (n : Int)
  | bytes (content : List UInt8)
  | text (content : List UInt8)
  deriving DecidableEq

/-- The encodings of an item. -/
inductive Encodes : Item → List UInt8 → Prop
  | unsigned {n : Nat} {head : List UInt8} : Head 0 n head → Encodes (.int n) head
  | negative {n : Nat} {head : List UInt8} : Head 1 n head → Encodes (.int (-1 - n)) head
  | bytes {content head : List UInt8} :
      Head 2 content.length head → Encodes (.bytes content) (head ++ content)
  | text {content head : List UInt8} :
      Head 3 content.length head → Encodes (.text content) (head ++ content)

/-- The encodings of the entries of a map, one after the other. -/
inductive EncodesEntries : List (Item × Item) → List UInt8 → Prop
  | nil : EncodesEntries [] []
  | cons {label value : Item} {entries : List (Item × Item)} {front back rest : List UInt8} :
      Encodes label front → Encodes value back → EncodesEntries entries rest →
        EncodesEntries ((label, value) :: entries) (front ++ (back ++ rest))

/-- The encodings of items, one after the other. -/
inductive EncodesItems : List Item → List UInt8 → Prop
  | nil : EncodesItems [] []
  | cons {item : Item} {items : List Item} {front rest : List UInt8} :
      Encodes item front → EncodesItems items rest → EncodesItems (item :: items) (front ++ rest)

/-- Labels and values are items. -/
theorem EncodesEntries.items {entries : List (Item × Item)} {body : List UInt8}
    (encodes : EncodesEntries entries body) :
    ∃ items, EncodesItems items body ∧ items.length = 2 * entries.length := by
  induction encodes with
  | nil => exact ⟨[], .nil, rfl⟩
  | @cons label value entries _ _ _ label_encodes value_encodes _ ih =>
      rcases ih with ⟨items, items_encode, length_eq⟩
      refine ⟨label :: value :: items, .cons label_encodes (.cons value_encodes items_encode), ?_⟩
      rw [List.length_cons, List.length_cons, List.length_cons, length_eq]
      omega

end Solva.Codec.Cbor
