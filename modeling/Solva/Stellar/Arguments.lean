import Solva.Contract.Core
import Solva.Orchestrator.Inclusion

/-!
# Arguments of `publish_proof`

The publisher encodes the public inputs as a Soroban map keyed by symbol; the
contract's `#[contracttype]` reads the same map. An amount is refused unless it
is a decimal integer that fits a `u128`, a root unless it is 32 bytes of hex.
-/

namespace Solva.Stellar

open Bn254 Codec Orchestrator

/-- The Soroban values that occur in the arguments. -/
inductive ScVal where
  | u128 (hi lo : U64)
  | bytes (value : List UInt8)
  deriving DecidableEq

/-- A Soroban map, in key order. -/
abbrev ScMap : Type :=
  List (String × ScVal)

/-! ## Encoding in the publisher -/

/-- `u128FromDecimal`: the two 64-bit halves. -/
def u128FromDecimal (s : String) : Result (U64 × U64) :=
  match Decimal.signed? s.toList with
  | none => .error (.plain (quote s ++ " is not a base-10 integer"))
  | some v =>
      if v < 0 then .error (.plain (quote s ++ " is negative"))
      else if 2 ^ 128 ≤ v.toNat then .error (.plain (quote s ++ " exceeds u128"))
      else .ok (Fin.ofNat (2 ^ 64) (v.toNat / 2 ^ 64), Fin.ofNat (2 ^ 64) v.toNat)

/-- The error text of `hex.DecodeString` on text it does not decode. -/
def hexDecodeError (text : List Char) : String :=
  match text.find? fun c => (Hex.digitValue? c).isNone with
  | some c =>
      let code := (Nat.toDigits 16 c.toNat).map Char.toUpper
      "encoding/hex: invalid byte: U+" ++
        String.ofList (List.replicate (4 - code.length) '0' ++ code) ++ " '" ++
        String.singleton c ++ "'"
  | none => "encoding/hex: odd length hex string"

/-- `bytes32FromHex`. -/
def bytes32FromHex (s : String) : Result (List UInt8) :=
  let digits := trimPrefix ['0', 'x'] s.toList
  match Hex.decode digits with
  | none => .error (.plain (hexDecodeError digits))
  | some b =>
      if b.length ≠ 32 then
        .error (.plain ("expected 32 bytes, got " ++ toString b.length))
      else .ok b

/-- `encodePubInputs`. -/
def encodePubInputs (pub : PublicInputs) : Result ScMap := do
  let liabilities ← (u128FromDecimal pub.liabilitiesTotal).mapError (.wrap "liabilities_total")
  let prev ← (u128FromDecimal pub.prevReserves).mapError (.wrap "prev_reserves")
  let reserves ← (u128FromDecimal pub.reservesTotal).mapError (.wrap "reserves_total")
  let root ← (bytes32FromHex pub.rootHash).mapError (.wrap "root_hash")
  pure [("liabilities_total", .u128 liabilities.1 liabilities.2),
    ("prev_reserves", .u128 prev.1 prev.2),
    ("reserves_total", .u128 reserves.1 reserves.2),
    ("root_hash", .bytes root)]

/-! ## Decoding in the contract -/

/-- A `u128` from its halves. -/
def ofHalves (hi lo : U64) : U128 :=
  ⟨hi.val * 2 ^ 64 + lo.val, by have := hi.isLt; have := lo.isLt; omega⟩

def ScVal.u128? : ScVal → Option U128
  | u128 hi lo => some (ofHalves hi lo)
  | bytes _ => none

def ScVal.bytes32? : ScVal → Option Bytes32
  | u128 _ _ => none
  | bytes value => if width : value.length = 32 then some ⟨value, width⟩ else none

/-- The contract's reading of a `PubInputs` map: exactly its keys, in order. -/
def readPubInputs : ScMap → Option Contract.PubInputs
  | [("liabilities_total", l), ("prev_reserves", prev), ("reserves_total", r),
      ("root_hash", root)] => do
      pure
        { reservesTotal := ← r.u128?
          liabilitiesTotal := ← l.u128?
          rootHash := ← root.bytes32?
          prevReserves := ← prev.u128? }
  | _ => none

/-! ## What is encoded is read back -/

/-- The halves of an encoded amount make up the integer that its text denotes. -/
theorem u128FromDecimal_eq_ok {s : String} {halves : U64 × U64}
    (encoded : u128FromDecimal s = .ok halves) :
    Decimal.signed? s.toList = some ((ofHalves halves.1 halves.2).val : Int) := by
  unfold u128FromDecimal at encoded
  split at encoded
  · cases encoded
  · rename_i v read
    split at encoded
    · cases encoded
    split at encoded
    · cases encoded
    rename_i nonneg fits
    cases encoded
    rw [read, Option.some.injEq]
    simp only [ofHalves, Fin.ofNat]
    omega

theorem bytes32FromHex_eq_ok {s : String} {bytes : List UInt8}
    (encoded : bytes32FromHex s = .ok bytes) :
    Hex.decode (trimPrefix ['0', 'x'] s.toList) = some bytes ∧ bytes.length = 32 := by
  unfold bytes32FromHex at encoded
  dsimp only at encoded
  split at encoded
  · cases encoded
  · rename_i b decoded
    split at encoded
    · cases encoded
    · rename_i width
      cases encoded
      exact ⟨decoded, not_not.mp width⟩

/-- The texts denote the inputs: amounts as decimal integers, the root as hex. -/
structure Denotes (pub : PublicInputs) (pi : Contract.PubInputs) : Prop where
  reserves : Decimal.signed? pub.reservesTotal.toList = some (pi.reservesTotal.val : Int)
  liabilities : Decimal.signed? pub.liabilitiesTotal.toList = some (pi.liabilitiesTotal.val : Int)
  prev : Decimal.signed? pub.prevReserves.toList = some (pi.prevReserves.val : Int)
  root : Hex.decode (trimPrefix ['0', 'x'] pub.rootHash.toList) = some pi.rootHash.bytes

/-- The map that the publisher sends is read by the contract as the inputs the
texts denote. -/
theorem readPubInputs_of_encode {pub : PublicInputs} {map : ScMap}
    (encoded : encodePubInputs pub = .ok map) :
    ∃ pi, readPubInputs map = some pi ∧ Denotes pub pi := by
  unfold encodePubInputs at encoded
  cases liabilities : u128FromDecimal pub.liabilitiesTotal with
  | error err => simp [liabilities, Except.mapError, bind, Except.bind] at encoded
  | ok l =>
  cases prev : u128FromDecimal pub.prevReserves with
  | error err => simp [liabilities, prev, Except.mapError, bind, Except.bind] at encoded
  | ok p =>
  cases reserves : u128FromDecimal pub.reservesTotal with
  | error err => simp [liabilities, prev, reserves, Except.mapError, bind, Except.bind] at encoded
  | ok r =>
  cases root : bytes32FromHex pub.rootHash with
  | error err =>
      simp [liabilities, prev, reserves, root, Except.mapError, bind, Except.bind] at encoded
  | ok rootH =>
      simp only [liabilities, prev, reserves, root, Except.mapError, bind, Except.bind, pure,
        Except.pure, Except.ok.injEq] at encoded
      subst encoded
      obtain ⟨decoded, width⟩ := bytes32FromHex_eq_ok root
      refine ⟨⟨ofHalves r.1 r.2, ofHalves l.1 l.2, ⟨rootH, width⟩, ofHalves p.1 p.2⟩, ?_,
        u128FromDecimal_eq_ok reserves, u128FromDecimal_eq_ok liabilities,
        u128FromDecimal_eq_ok prev, decoded⟩
      simp [readPubInputs, ScVal.u128?, ScVal.bytes32?, width]

end Solva.Stellar
