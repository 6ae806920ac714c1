import Solva.Contract.Inclusion
import Solva.Orchestrator.Inclusion
import Solva.Sdk.BigInt

/-!
# The customer's side of an inclusion check

The SDK fetches an inclusion reference from the orchestrator, turns the sibling
flags into positions, and the contract bindings turn it back into the arguments of
`verify_inclusion`. A thrown exception is `none`.
-/

namespace Solva.Sdk

open Bn254 Codec SumTree

/-! ## Bytes from hex -/

/-- `Buffer.from(text, "hex")`: reading stops at the first pair that is not two
digits. -/
def bufferFromHex : List Char → List UInt8
  | high :: low :: rest =>
      match Hex.digitValue? high, Hex.digitValue? low with
      | some highValue, some lowValue =>
          UInt8.ofNat (16 * highValue + lowValue) :: bufferFromHex rest
      | _, _ => []
  | _ => []

/-- `hexToBuffer`. -/
def hexToBuffer (hex : String) : List UInt8 :=
  bufferFromHex (Orchestrator.trimPrefix ['0', 'x'] hex.toList)

/-! ## `@solva/shared-types` -/

inductive Position where
  | left
  | right
  deriving DecidableEq

structure PathNode where
  hash : String
  sum : String
  position : Position
  deriving DecidableEq

structure InclusionRef where
  proofId : String
  customerIdHash : String
  balance : String
  path : List PathNode
  deriving DecidableEq

/-! ## `OrchestratorClient` -/

/-- `request`: the body of a response that is `ok`. `http` is the JSON the two
sides write and read. -/
def request (http : JsonLink) (response : Orchestrator.Response) : Option Json :=
  if 200 ≤ response.status ∧ response.status ≤ 299 then http.decode (http.encode response.body)
  else none

/-- One sibling of the response, with its flag as a position. -/
def readPathNode (node : Json) : Option PathNode := do
  let hash ← (← node.field? "hash").string?
  let sum ← (← node.field? "sum").string?
  let siblingIsLeft ← (← node.field? "sibling_is_left").bool?
  pure ⟨hash, sum, if siblingIsLeft then .left else .right⟩

/-- The reference in an inclusion response. -/
def readInclusionRef (dto : Json) : Option InclusionRef := do
  let proofId ← (← dto.field? "proof_id").string?
  let customerIdHash ← (← dto.field? "customer_id_hash").string?
  let balance ← (← dto.field? "balance").string?
  let path ← Json.arrayOf? readPathNode (← dto.field? "path")
  pure ⟨proofId, customerIdHash, balance, path⟩

/-- `getInclusionRef`, on the endpoint's response. -/
def getInclusionRef (http : JsonLink) (response : Orchestrator.Response) : Option InclusionRef :=
  (request http response).bind readInclusionRef

/-! ## `@solva/contract-bindings` -/

/-- The generated client's `PathNode`. -/
structure GeneratedPathNode where
  hash : List UInt8
  siblingIsLeft : Bool
  sum : Int
  deriving DecidableEq

/-- `toContractPathNode`. -/
def toContractPathNode (node : PathNode) : Option GeneratedPathNode :=
  (bigInt node.sum).map fun sum => ⟨hexToBuffer node.hash, node.position = .left, sum⟩

/-- The arguments of the contract call. -/
structure VerifyArgs where
  id : U64
  idHash : Bytes32
  balance : U128
  path : List Contract.PathNode
  deriving DecidableEq

/-- An integer of a fixed unsigned width; the generated client throws outside. -/
def toUnsigned (bound : Nat) (value : Int) : Option (Fin bound) :=
  if range : 0 ≤ value ∧ value.toNat < bound then some ⟨value.toNat, range.2⟩ else none

/-- A `BytesN<32>`; the generated client throws on another length. -/
def toBytes32 (bytes : List UInt8) : Option Bytes32 :=
  if width : bytes.length = 32 then some ⟨bytes, width⟩ else none

def GeneratedPathNode.encode (node : GeneratedPathNode) : Option Contract.PathNode := do
  let hash ← toBytes32 node.hash
  let sum ← toUnsigned (2 ^ 128) node.sum
  pure ⟨hash, sum, node.siblingIsLeft⟩

/-- The arguments `verifyInclusion` passes to the contract. -/
def verifyArgs (ref : InclusionRef) : Option VerifyArgs := do
  let id ← (bigInt ref.proofId).bind (toUnsigned (2 ^ 64))
  let idHash ← toBytes32 (hexToBuffer ref.customerIdHash)
  let balance ← (bigInt ref.balance).bind (toUnsigned (2 ^ 128))
  let path ← ref.path.mapM fun node => (toContractPathNode node).bind GeneratedPathNode.encode
  pure ⟨id, idHash, balance, path⟩

/-- `verifyInclusion`: the unwrapped result of the simulated call. -/
def verifyInclusion {Address : Type} (hash4 : Hash4) (ref : InclusionRef)
    (s : Contract.Storage Address) : Option Bool :=
  (verifyArgs ref).bind fun args =>
    match Contract.verifyInclusion hash4 args.id args.idHash args.balance args.path s with
    | .ok included => some included
    | .err _ => none
    | .trap => none

/-! ## Each hop reads back what the hop before wrote -/

theorem respects_pathNode : Json.Respects readPathNode := by
  intro value other same
  have hash_eq := Json.respects_field? Json.respects_string? "hash" same
  have sum_eq := Json.respects_field? Json.respects_string? "sum" same
  have side_eq := Json.respects_field? Json.respects_bool? "sibling_is_left" same
  simp only [readPathNode, Option.bind_eq_bind, ← Option.bind_assoc, hash_eq, sum_eq, side_eq]

/-- The reference does not depend on the order of the response's fields. -/
theorem respects_inclusionRef : Json.Respects readInclusionRef := by
  intro value other same
  have proof_eq := Json.respects_field? Json.respects_string? "proof_id" same
  have customer_eq := Json.respects_field? Json.respects_string? "customer_id_hash" same
  have balance_eq := Json.respects_field? Json.respects_string? "balance" same
  have path_eq := Json.respects_field? (Json.respects_arrayOf? respects_pathNode) "path" same
  simp only [readInclusionRef, Option.bind_eq_bind, ← Option.bind_assoc, proof_eq, customer_eq,
    balance_eq, path_eq]

/-- Digits that decode are read to the end. -/
theorem bufferFromHex_of_decode {text : List Char} {bytes : List UInt8}
    (decoded : Hex.decode text = some bytes) : bufferFromHex text = bytes := by
  induction text using Hex.decode.induct generalizing bytes with
  | case1 =>
      cases decoded
      rfl
  | case2 => cases decoded
  | case3 high low rest ih =>
      simp only [Hex.decode, Option.bind_eq_bind, Option.bind_eq_some_iff, Option.pure_def,
        Option.some.injEq] at decoded
      obtain ⟨highValue, high_eq, lowValue, low_eq, tail, tail_eq, rfl⟩ := decoded
      simp only [bufferFromHex, high_eq, low_eq, ih tail_eq]

end Solva.Sdk
