import Solva.Stellar.Arguments

/-!
# Soroban transactions

What the publisher builds, signs and reads back: values, invocations with the trees
of calls they authorise, authorization entries and transactions. Resources and the
values that no reader here tells apart are kept as their bytes.
-/

namespace Solva.Stellar

open Bn254 Codec Orchestrator

/-! ## Values -/

/-- `xdr.ScVal`. -/
inductive Val where
  | bytes (value : List UInt8)
  | symbol (name : String)
  | u64 (value : U64)
  | u128 (hi lo : U64)
  | vec (items : List Val)
  | map (entries : List (Val × Val))
  | other (xdr : List UInt8)

namespace Val

def ofScVal : ScVal → Val
  | .u128 hi lo => .u128 hi lo
  | .bytes value => .bytes value

def scVal? : Val → Option ScVal
  | .u128 hi lo => some (.u128 hi lo)
  | .bytes value => some (.bytes value)
  | _ => none

/-- A map keyed by symbols. -/
def ofScMap (m : ScMap) : Val :=
  .map (m.map fun entry => (.symbol entry.1, ofScVal entry.2))

def keyed? : Val × Val → Option (String × ScVal)
  | (.symbol name, value) => value.scVal?.map fun read => (name, read)
  | _ => none

def scMap? : Val → Option ScMap
  | .map entries => entries.mapM keyed?
  | _ => none

theorem scVal?_ofScVal (value : ScVal) : (ofScVal value).scVal? = some value := by
  cases value <;> rfl

@[simp]
theorem scMap?_ofScMap (m : ScMap) : (ofScMap m).scMap? = some m := by
  unfold ofScMap scMap?
  dsimp only
  induction m with
  | nil => rfl
  | cons entry m ih =>
      rw [List.map_cons, List.mapM_cons, ih]
      simp [keyed?, scVal?_ofScVal]

end Val

/-- `ed25519SignaturesScVal`. -/
def ed25519SignaturesScVal (pubKey sig : List UInt8) : Val :=
  .vec [.map [(.vec [.symbol "Ed25519", .bytes pubKey], .vec [.symbol "Ed25519", .bytes sig])]]

/-- `encodeArgs`. -/
def encodeArgs (proof : List UInt8) (pub : PublicInputs) : Result (List Val) :=
  (encodePubInputs pub).map fun m => [.bytes proof, .ofScMap m]

/-- The contract's reading of the arguments of `publish_proof`. -/
def readArgs : List Val → Option (List UInt8 × Contract.PubInputs)
  | [.bytes proof, inputs] => (inputs.scMap?.bind readPubInputs).map fun pi => (proof, pi)
  | _ => none

/-! ## Invocations -/

/-- `xdr.InvokeContractArgs` with the id of its contract. -/
structure InvokeContractArgs where
  contractAddress : BytesN 32
  functionName : String
  args : List Val

/-- `xdr.SorobanAuthorizedFunction`. -/
inductive AuthorizedFunction where
  | contractFn (call : InvokeContractArgs)
  | createContract (xdr : List UInt8)

/-- `xdr.SorobanAuthorizedInvocation`. -/
inductive Invocation where
  | node (function : AuthorizedFunction) (subInvocations : List Invocation)

/-! ## Authorization -/

/-- `xdr.SorobanAddressCredentials`. -/
structure AddressCredentials where
  address : List UInt8
  nonce : Int
  signatureExpirationLedger : UInt32
  signature : Val

/-- `xdr.SorobanCredentials`. -/
inductive Credentials where
  | sourceAccount
  | address (credentials : AddressCredentials)

/-- `xdr.SorobanAuthorizationEntry`. -/
structure AuthEntry where
  credentials : Credentials
  rootInvocation : Invocation

/-- The preimage of an authorization payload. -/
structure Preimage where
  networkID : BytesN 32
  nonce : Int
  signatureExpirationLedger : UInt32
  invocation : Invocation

/-! ## Transactions -/

/-- `xdr.SorobanTransactionData`. -/
structure SorobanData where
  resources : List UInt8
  resourceFee : Int

/-- `txnbuild.InvokeHostFunction`. -/
structure InvokeHostFunction where
  hostFunction : InvokeContractArgs
  sourceAccount : String
  ext : Option SorobanData
  auth : List AuthEntry

/-- A transaction of one operation. -/
structure Transaction where
  sourceAccount : String
  sequence : Int
  operation : InvokeHostFunction
  baseFee : Nat
  maxTime : Int

/-- A transaction with its signature. -/
structure SignedTransaction where
  tx : Transaction
  signature : List UInt8

/-- `xdr.TransactionMeta`, as far as the return value of an invocation. -/
inductive TransactionMeta where
  | older
  | v3 (sorobanMeta : Option Val)
  | v4 (sorobanMeta : Option (Option Val))

/-! ## The SDK -/

/-- What the publisher takes from the Stellar SDK, each failure by its text. -/
structure Sdk where
  sha256 : List UInt8 → BytesN 32
  decodeContract : String → Except String (List UInt8)
  decodeAccountID : String → Except String (List UInt8)
  decodeData : String → Except String SorobanData
  decodeAuth : String → Except String AuthEntry
  decodeMeta : String → Except String TransactionMeta
  /-- The name of a result code, where the result decodes. -/
  resultCode : String → Option String
  marshalPreimage : Preimage → Except String (List UInt8)
  /-- What `NewTransaction` objects to. -/
  invalid : Transaction → Option String
  encode : Transaction → Except String Unit
  encodeSigned : SignedTransaction → Except String Unit
  hashHex : Transaction → Except String String

section Sdk

variable (sdk : Sdk)

/-- `contractAddress`: as many bytes as there are, up to 32. -/
def contractAddress (contractID : String) : Result (BytesN 32) :=
  match sdk.decodeContract contractID with
  | .error text => .error (.plain text)
  | .ok decoded =>
      .ok ⟨(decoded ++ List.replicate 32 0).take 32, by simp⟩

/-- `authPayloadHash`. -/
def authPayloadHash (networkPassphrase : String) (nonce : Int) (expiration : UInt32)
    (invocation : Invocation) : Result (BytesN 32) :=
  match sdk.marshalPreimage
      ⟨sdk.sha256 networkPassphrase.toUTF8.data.toList, nonce, expiration, invocation⟩ with
  | .error text => .error (.wrap "marshal auth preimage" (.plain text))
  | .ok raw => .ok (sdk.sha256 raw)

/-- `parseReturnValue`. -/
def parseReturnValue (metaXDR : String) : Result U64 :=
  match sdk.decodeMeta metaXDR with
  | .error text => .error (.wrap "decode result meta" (.plain text))
  | .ok (.v3 (some (.u64 id))) => .ok id
  | .ok (.v4 (some (some (.u64 id)))) => .ok id
  | .ok _ => .error (.sentinel .unexpectedReturn)

/-- `decodeError`. -/
def decodeError (resultXDR : String) : String :=
  if resultXDR = "" then "no result detail" else (sdk.resultCode resultXDR).getD resultXDR

end Sdk

end Solva.Stellar
