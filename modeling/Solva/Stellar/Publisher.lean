import Solva.Stellar.Transaction
import Solva.Transition.Protocol

/-!
# The publisher

`PublishProof` as a program over the RPC, the signer and the clock: up to four
attempts, each of which loads the account, simulates the call, signs, submits and
polls. An attempt that fails in transit is made again from the start.
-/

namespace Solva.Stellar

open Bn254 Codec Orchestrator Transition

/-! ## Constants -/

/-- `contractFunction`. -/
def contractFunction : String :=
  "publish_proof"

/-- `defaultMaxAttempts`. -/
def defaultMaxAttempts : Nat :=
  4

/-- `defaultBaseBackoff` in nanoseconds. -/
def defaultBaseBackoff : Nat :=
  500 * 1000000

/-- `defaultPollInterval` in nanoseconds. -/
def defaultPollInterval : Nat :=
  1000000000

/-- `defaultPollTimeout` in nanoseconds. -/
def defaultPollTimeout : Nat :=
  60 * 1000000000

/-- `txTimeoutSeconds`. -/
def txTimeoutSeconds : Int :=
  120

/-- `baseFee`. -/
def baseFee : Nat :=
  1000

/-- `authExpirationLedgers`. -/
def authExpirationLedgers : UInt32 :=
  60

/-! ## Calls -/

/-- `protocol.SimulateTransactionResponse`; each result has its authorization entries. -/
structure SimulateResponse where
  error : String
  restorePreamble : Bool
  results : List (Option (List String))
  transactionData : String
  minResourceFee : Int
  latestLedger : UInt32

/-- `protocol.SendTransactionResponse`. -/
structure SendResponse where
  status : String
  errorResult : String

/-- `protocol.GetTransactionResponse`. -/
structure GetResponse where
  status : String
  result : String
  resultMeta : String

/-- `ctx.Err()` of a context that is done. -/
inductive ContextError where
  | canceled
  | deadlineExceeded

def ContextError.toError : ContextError → GoError
  | canceled => .sentinel .canceled
  | deadlineExceeded => .sentinel .deadlineExceeded

/-- The calls of the RPC, the signer and the clock. A poll asks whether its deadline has
passed, and tells how many waits it would still make. -/
inductive RpcCall where
  | loadAccount (address : String)
  | simulateTransaction (tx : Transaction)
  | sendTransaction (signed : SignedTransaction)
  | getTransaction (hash : String)
  | sign (payload : BytesN 32)
  | signTransaction (tx : Transaction)
  | now
  | pastDeadline (left : Nat)
  | wait (delay : Nat)

/-- The replies; a wait may be cut short by the context's error. -/
abbrev RpcReply : RpcCall → Type
  | .loadAccount _ => Result (Result Int)
  | .simulateTransaction _ => Result SimulateResponse
  | .sendTransaction _ => Result SendResponse
  | .getTransaction _ => Result GetResponse
  | .sign _ => Except String (List UInt8)
  | .signTransaction _ => Except String (List UInt8)
  | .now => Int
  | .pastDeadline _ => Bool
  | .wait _ => Option ContextError

/-- A part of a publish: calls, then a value or an error. -/
abbrev RpcM (α : Type) : Type :=
  ExceptT GoError (Program RpcCall RpcReply) α

/-- A call whose errors are worth another attempt. -/
def transiently {α : Type} (context : String) (part : Program RpcCall RpcReply (Result α)) :
    RpcM α :=
  ExceptT.mk do
    let result ← part
    pure (result.mapError fun err => .transient (.wrap context err))

/-- A part whose errors are returned behind a context. -/
def within {α : Type} (context : String) (part : RpcM α) : RpcM α :=
  ExceptT.mk do
    let result ← part.run
    pure (result.mapError (.wrap context))

/-- A step of the SDK that may fail with a text. -/
def sdkStep {α : Type} (context : String) (result : Except String α) : RpcM α :=
  ExceptT.mk (pure (result.mapError fun text => .wrap context (.plain text)))

/-! ## The publisher -/

/-- `Publisher`: the address of its signer and whether an RPC is configured. -/
structure Publisher where
  networkPassphrase : String
  signer : Option String
  rpc : Bool

section Publish

variable (sdk : Sdk) (networkPassphrase address : String)

/-! ### Building and authorising -/

/-- A transaction on the account whose sequence was loaded. -/
def newTransaction (context : String) (seq : Int) (op : InvokeHostFunction) : RpcM Transaction := do
  let now : Int ← (Program.perform RpcCall.now : Program RpcCall RpcReply Int)
  let tx : Transaction := ⟨address, seq + 1, op, baseFee, now + txTimeoutSeconds⟩
  sdkStep context ((sdk.invalid tx).elim (.ok tx) .error)

/-- `signWalletAuth`. -/
def signWalletAuth (credentials : AddressCredentials) (invocation : Invocation)
    (expiration : UInt32) : RpcM AddressCredentials := do
  let payload ← ExceptT.mk (pure
    (authPayloadHash sdk networkPassphrase credentials.nonce expiration invocation))
  let signed : Except String (List UInt8) ←
    (Program.perform (RpcCall.sign payload) : Program RpcCall RpcReply (Except String (List UInt8)))
  let sig ← sdkStep "sign auth payload" signed
  let pubKey ← sdkStep "decode signer public key" (sdk.decodeAccountID address)
  pure { credentials with
    signatureExpirationLedger := expiration
    signature := ed25519SignaturesScVal pubKey sig }

/-- The loop of `applySimulation` over the authorization entries. -/
def applyAuth (expiration : UInt32) : List String → RpcM (List AuthEntry × Bool)
  | [] => pure ([], false)
  | raw :: rest => do
      let entry ← sdkStep "decode auth entry" (sdk.decodeAuth raw)
      match entry.credentials with
      | .sourceAccount =>
          let (entries, walletAuth) ← applyAuth expiration rest
          pure (entry :: entries, walletAuth)
      | .address credentials =>
          let signed ← within "sign wallet authorization"
            (signWalletAuth sdk networkPassphrase address credentials entry.rootInvocation
              expiration)
          let (entries, _) ← applyAuth expiration rest
          pure ({ entry with credentials := .address signed } :: entries, true)

/-- The resources and the fee of a simulation. -/
def resourcesOf (context : String) (sim : SimulateResponse) : RpcM SorobanData := do
  let data ← sdkStep context (sdk.decodeData sim.transactionData)
  pure { data with resourceFee := sim.minResourceFee }

/-- `applySimulation` on the first result. -/
def applySimulation (op : InvokeHostFunction) (sim : SimulateResponse)
    (auth : Option (List String)) : RpcM (InvokeHostFunction × Bool) := do
  let data ← resourcesOf sdk "decode transaction data" sim
  match auth with
  | none => pure ({ op with ext := some data }, false)
  | some raws =>
      let (entries, walletAuth) ←
        applyAuth sdk networkPassphrase address (sim.latestLedger + authExpirationLedgers) raws
      pure ({ op with ext := some data, auth := entries }, walletAuth)

/-- `resimulateWithAuth`. -/
def resimulateWithAuth (op : InvokeHostFunction) (seq : Int) : RpcM InvokeHostFunction := do
  let tx ← newTransaction sdk address "build auth simulation transaction" seq op
  sdkStep "encode auth simulation transaction" (sdk.encode tx)
  let sim : SimulateResponse ← transiently "re-simulate with wallet auth"
    (Program.perform (RpcCall.simulateTransaction tx))
  if sim.error ≠ "" then throw (.plain ("wallet auth simulation rejected: " ++ sim.error))
  else
    let data ← resourcesOf sdk "decode auth transaction data" sim
    pure { op with ext := some data }

/-- The transaction of a call whose simulation was accepted. -/
def assembleSimulated (hostFn : InvokeContractArgs) (seq : Int) (sim : SimulateResponse)
    (auth : Option (List String)) : RpcM Transaction := do
  let (applied, walletAuth) ← within "apply simulation"
    (applySimulation sdk networkPassphrase address ⟨hostFn, address, none, []⟩ sim auth)
  let ready ← if walletAuth then resimulateWithAuth sdk address applied seq else pure applied
  newTransaction sdk address "assemble transaction" seq ready

/-- The first half of `invokeOnce`: load the account, simulate and assemble. -/
def assemble (hostFn : InvokeContractArgs) : RpcM Transaction := do
  let account : Result Int ← transiently "load account"
    (Program.perform (RpcCall.loadAccount address))
  let seq ← within "read account sequence" (ExceptT.mk (pure account))
  let op : InvokeHostFunction := ⟨hostFn, address, none, []⟩
  let simTx ← newTransaction sdk address "build simulation transaction" seq op
  sdkStep "encode simulation transaction" (sdk.encode simTx)
  let sim : SimulateResponse ← transiently "simulate"
    (Program.perform (RpcCall.simulateTransaction simTx))
  if sim.error ≠ "" then throw (.plain ("simulation rejected publish_proof: " ++ sim.error))
  else if sim.restorePreamble then
    throw (.plain "publish_proof requires restoring archived ledger entries before submission")
  else
    match sim.results with
    | [] => throw (.plain "simulation returned no results")
    | auth :: _ => assembleSimulated sdk networkPassphrase address hostFn seq sim auth

/-! ### Submitting and polling -/

/-- One round of the loop of `pollResult`: the answer ends the poll, or it goes on. -/
def pollRound (hash : String) (again : RpcM U64) : RpcM U64 := do
  let got : GetResponse ← transiently "get transaction"
    (Program.perform (RpcCall.getTransaction hash))
  if got.status = "SUCCESS" then
    ExceptT.mk (pure (parseReturnValue sdk got.resultMeta))
  else if got.status = "FAILED" then
    throw (.plain ("transaction " ++ hash ++ " failed on-chain: " ++ decodeError sdk got.result))
  else if got.status = "NOT_FOUND" then again
  else throw (.plain ("unexpected transaction status " ++ quote got.status ++ " for " ++ hash))

/-- The error of a poll whose deadline has passed. -/
def timedOut (hash : String) : GoError :=
  .transient (.plain ("timed out after 1m0s waiting for transaction " ++ hash))

/-- The loop of `pollResult`. Each wait takes the poll interval at least, so after as
many as are given the deadline has passed. -/
def pollFrom (hash : String) : Nat → RpcM U64
  | 0 => pollRound sdk hash do
      let _late : Bool ←
        (Program.perform (RpcCall.pastDeadline 0) : Program RpcCall RpcReply Bool)
      throw (timedOut hash)
  | left + 1 => pollRound sdk hash do
      let late : Bool ←
        (Program.perform (RpcCall.pastDeadline (left + 1)) : Program RpcCall RpcReply Bool)
      if late then throw (timedOut hash)
      else
        let cancelled : Option ContextError ←
          (Program.perform (RpcCall.wait defaultPollInterval) :
            Program RpcCall RpcReply (Option ContextError))
        match cancelled with
        | some err => throw err.toError
        | none => pollFrom hash left

/-- `pollResult`. -/
def pollResult (hash : String) : RpcM U64 :=
  pollFrom sdk hash (defaultPollTimeout / defaultPollInterval + 1)

/-- The second half of `invokeOnce`: sign, submit and poll. -/
def submit (tx : Transaction) : RpcM U64 := do
  let signed : Except String (List UInt8) ←
    (Program.perform (RpcCall.signTransaction tx) :
      Program RpcCall RpcReply (Except String (List UInt8)))
  let signature ← sdkStep "sign transaction" signed
  sdkStep "encode transaction" (sdk.encodeSigned ⟨tx, signature⟩)
  let hash ← sdkStep "hash transaction" (sdk.hashHex tx)
  let send : SendResponse ← transiently "send transaction"
    (Program.perform (RpcCall.sendTransaction ⟨tx, signature⟩))
  if send.status = "PENDING" ∨ send.status = "DUPLICATE" then pollResult sdk hash
  else if send.status = "TRY_AGAIN_LATER" then
    throw (.transient (.plain "rpc asked to retry submission later"))
  else if send.status = "ERROR" then
    throw (.plain ("transaction rejected on submission: " ++ decodeError sdk send.errorResult))
  else throw (.plain ("unexpected submission status " ++ quote send.status))

/-- `invokeOnce`. -/
def invokeOnce (hostFn : InvokeContractArgs) : RpcM U64 := do
  let tx ← assemble sdk networkPassphrase address hostFn
  submit sdk tx

/-- The loop of `invokeWithRetry`, from the attempts that are left. -/
def invokeFrom (hostFn : InvokeContractArgs) : Nat → Nat → RpcM U64
  | 0, _ => throw (.plain "publish_proof after 0 attempts: %!w(<nil>)")
  | left + 1, backoff => ExceptT.mk do
      let result ← (invokeOnce sdk networkPassphrase address hostFn).run
      match result with
      | .ok id => pure (.ok id)
      | .error err =>
          if ¬ err.isTransient then pure (.error err)
          else if left = 0 then
            pure (.error (.wrap
              ("publish_proof after " ++ toString defaultMaxAttempts ++ " attempts") err))
          else
            let cancelled : Option ContextError ← Program.perform (RpcCall.wait backoff)
            match cancelled with
            | some err => pure (.error err.toError)
            | none => (invokeFrom hostFn left (backoff * 2)).run

/-- `invokeWithRetry`. -/
def invokeWithRetry (hostFn : InvokeContractArgs) : RpcM U64 :=
  invokeFrom sdk networkPassphrase address hostFn defaultMaxAttempts defaultBaseBackoff

end Publish

/-- The call that a publish is about. -/
def publishCall (sdk : Sdk) (target : TenantContract) (proof : List UInt8) (pub : PublicInputs) :
    Result InvokeContractArgs := do
  let args ← (encodeArgs proof pub).mapError (.wrap "encode contract args")
  let contractAddr ← (contractAddress sdk target.contractID).mapError (.wrap "decode contract id")
  pure ⟨contractAddr, contractFunction, args⟩

/-- `PublishProof`. -/
def publishProof (sdk : Sdk) (p : Publisher) (target : TenantContract) (proof : List UInt8)
    (pub : PublicInputs) : RpcM U64 :=
  match p.signer with
  | none => throw (.sentinel .notConfigured)
  | some address =>
      if p.rpc = false ∨ target.contractID = "" then throw (.sentinel .notConfigured)
      else do
        let hostFn ← ExceptT.mk (pure (publishCall sdk target proof pub))
        invokeWithRetry sdk p.networkPassphrase address hostFn

/-! ## Preparing a transaction -/

/-- The calls that change nothing on the network. -/
def RpcCall.Prepares : RpcCall → Prop
  | loadAccount _ => True
  | simulateTransaction _ => True
  | sign _ => True
  | signTransaction _ => True
  | now => True
  | _ => False

/-- A part that makes only such calls. -/
abbrev Prepares {α : Type} (part : RpcM α) : Prop :=
  part.run.AllCalls RpcCall.Prepares

section Prepares

variable {sdk : Sdk} {networkPassphrase address : String}

theorem within_prepares {α : Type} (context : String) {part : RpcM α} (prepares : Prepares part) :
    Prepares (within context part) :=
  prepares.bind fun _ => trivial

theorem newTransaction_prepares (context : String) (seq : Int) (op : InvokeHostFunction) :
    Prepares (newTransaction sdk address context seq op) :=
  ⟨trivial, fun _ => trivial⟩

theorem signWalletAuth_prepares (credentials : AddressCredentials) (invocation : Invocation)
    (expiration : UInt32) :
    Prepares (signWalletAuth sdk networkPassphrase address credentials invocation expiration) := by
  unfold signWalletAuth
  apply Program.AllCalls.except_bind
  · trivial
  intro payload
  apply Program.AllCalls.except_bind
  · exact ⟨trivial, fun _ => trivial⟩
  intro signed
  apply Program.AllCalls.except_bind
  · trivial
  intro sig
  apply Program.AllCalls.except_bind
  · trivial
  exact fun _ => trivial

theorem applyAuth_prepares (expiration : UInt32) (raws : List String) :
    Prepares (applyAuth sdk networkPassphrase address expiration raws) := by
  induction raws with
  | nil => trivial
  | cons raw raws ih =>
      unfold applyAuth
      apply Program.AllCalls.except_bind
      · trivial
      intro entry
      split
      · exact ih.except_bind fun _ => trivial
      · apply (within_prepares _ (signWalletAuth_prepares _ _ _)).except_bind
        exact fun _ => ih.except_bind fun _ => trivial

theorem resourcesOf_prepares (context : String) (sim : SimulateResponse) :
    Prepares (resourcesOf sdk context sim) := by
  apply Program.AllCalls.except_bind
  · trivial
  exact fun _ => trivial

theorem applySimulation_prepares (op : InvokeHostFunction) (sim : SimulateResponse)
    (auth : Option (List String)) :
    Prepares (applySimulation sdk networkPassphrase address op sim auth) := by
  apply (resourcesOf_prepares _ sim).except_bind
  intro data
  cases auth with
  | none => trivial
  | some raws => exact (applyAuth_prepares _ raws).except_bind fun _ => trivial

theorem resimulateWithAuth_prepares (op : InvokeHostFunction) (seq : Int) :
    Prepares (resimulateWithAuth sdk address op seq) := by
  apply (newTransaction_prepares _ seq op).except_bind
  intro tx
  apply Program.AllCalls.except_bind
  · trivial
  intro _
  apply Program.AllCalls.except_bind
  · exact ⟨trivial, fun _ => trivial⟩
  intro sim
  split
  · trivial
  · exact (resourcesOf_prepares _ sim).except_bind fun _ => trivial

theorem assembleSimulated_prepares (hostFn : InvokeContractArgs) (seq : Int)
    (sim : SimulateResponse) (auth : Option (List String)) :
    Prepares (assembleSimulated sdk networkPassphrase address hostFn seq sim auth) := by
  apply (within_prepares _ (applySimulation_prepares _ sim auth)).except_bind
  rintro ⟨applied, walletAuth⟩
  cases walletAuth with
  | true =>
      apply (resimulateWithAuth_prepares applied seq).except_bind
      exact fun ready => newTransaction_prepares _ seq ready
  | false => exact newTransaction_prepares _ seq applied

/-- Nothing is sent before the transaction is assembled. -/
theorem assemble_prepares (hostFn : InvokeContractArgs) :
    Prepares (assemble sdk networkPassphrase address hostFn) := by
  unfold assemble
  apply Program.AllCalls.except_bind
  · exact ⟨trivial, fun _ => trivial⟩
  intro account
  apply Program.AllCalls.except_bind
  · trivial
  intro seq
  apply (newTransaction_prepares _ seq _).except_bind
  intro simTx
  apply Program.AllCalls.except_bind
  · trivial
  intro _
  apply Program.AllCalls.except_bind
  · exact ⟨trivial, fun _ => trivial⟩
  intro sim
  split_ifs
  · trivial
  · trivial
  · cases sim.results with
    | nil => trivial
    | cons auth _ => exact assembleSimulated_prepares hostFn seq sim auth

end Prepares

end Solva.Stellar
