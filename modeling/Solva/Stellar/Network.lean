import Solva.Stellar.Publisher

/-!
# The network behind one publish

Transactions that were submitted wait until the ledger applies them, in the order of
the account's sequence numbers. The RPC may lose or invent any answer, except that it
never reports a success or a failure that did not happen.
-/

namespace Solva.Stellar

open Bn254 Codec Orchestrator Transition

/-- The account and the registries, with the transactions of one publish: those that
were submitted, those that were applied with their outcomes, and the one whose result
the publish is waiting for. -/
structure Network (Address : Type) where
  sequence : Int
  time : Int
  registries : BytesN 32 → Contract.Storage Address
  submitted : List Transaction
  applied : List (Transaction × Contract.Outcome U64)
  awaited : Option Transaction

section Ledger

variable {Address : Type}

/-- An invocation on the registries. -/
def invoke (verifier : Contract.Verifier) (env : Contract.Env Address) (call : InvokeContractArgs)
    (registries : BytesN 32 → Contract.Storage Address) :
    Contract.Outcome U64 × (BytesN 32 → Contract.Storage Address) :=
  if call.functionName = contractFunction then
    match readArgs call.args with
    | none => (.trap, registries)
    | some (proof, pi) =>
        let (outcome, storage) :=
          Contract.publishProof verifier env proof pi (registries call.contractAddress)
        (outcome, Function.update registries call.contractAddress storage)
  else (.trap, registries)

/-- The network after a transaction of the publish was applied. -/
def Network.apply (s : Network Address) (verifier : Contract.Verifier)
    (env : Contract.Env Address) (tx : Transaction) : Network Address :=
  let (outcome, registries) := invoke verifier env tx.operation.hostFunction s.registries
  { s with
    sequence := tx.sequence
    registries := registries
    applied := s.applied ++ [(tx, outcome)] }

/-- The ids of the entries that the publish has added. -/
def Network.entries (s : Network Address) : List U64 :=
  s.applied.filterMap fun (_, outcome) =>
    match outcome with
    | .ok id => some id
    | _ => none

theorem Network.mem_entries {s : Network Address} {id : U64} :
    id ∈ s.entries ↔ ∃ tx, (tx, .ok id) ∈ s.applied := by
  unfold Network.entries
  rw [List.mem_filterMap]
  constructor
  · rintro ⟨⟨tx, outcome⟩, mem, read⟩
    cases outcome <;> cases read
    exact ⟨tx, mem⟩
  · rintro ⟨tx, mem⟩
    exact ⟨_, mem, rfl⟩

/-- A transaction adds an entry exactly if its outcome is an id. -/
theorem Network.entries_apply (s : Network Address) (verifier : Contract.Verifier)
    (env : Contract.Env Address) (tx : Transaction) :
    (∃ id, (s.apply verifier env tx).applied = s.applied ++ [(tx, .ok id)] ∧
        (s.apply verifier env tx).entries = s.entries ++ [id]) ∨
      (s.apply verifier env tx).entries = s.entries := by
  unfold Network.entries Network.apply
  dsimp only
  rw [List.filterMap_append]
  cases outcome : (invoke verifier env tx.operation.hostFunction s.registries).1 with
  | ok id => exact .inl ⟨id, rfl, rfl⟩
  | err error => exact .inr (List.append_nil _)
  | trap => exact .inr (List.append_nil _)

/-- A transaction may be applied once its sequence number is the next and as long as its
time has not run out. -/
def Network.Applicable (s : Network Address) (tx : Transaction) : Prop :=
  tx ∈ s.submitted ∧ tx.sequence = s.sequence + 1 ∧ s.time ≤ tx.maxTime

/-- What happens between two calls of the publish: the ledger applies one of its
transactions, or time passes and others use the account and the registries. -/
inductive LedgerMoves (verifier : Contract.Verifier) : Network Address → Network Address → Prop
  | applies {s : Network Address} {tx : Transaction} (env : Contract.Env Address) :
      s.Applicable tx → LedgerMoves verifier s (s.apply verifier env tx)
  | elsewhere {s : Network Address} {sequence time : Int}
      {registries : BytesN 32 → Contract.Storage Address} :
      s.sequence ≤ sequence → s.time ≤ time →
      LedgerMoves verifier s { s with sequence := sequence, time := time, registries := registries }

/-- The entry of a publish is in the registry of its target under the id that came back. -/
theorem invoke_eq_ok {verifier : Contract.Verifier} {env : Contract.Env Address}
    {call : InvokeContractArgs} {registries registries' : BytesN 32 → Contract.Storage Address}
    {id : U64} (invoked : invoke verifier env call registries = (.ok id, registries')) :
    ∃ proof pi, readArgs call.args = some (proof, pi) ∧
      id.val = (registries call.contractAddress).latest.val + 1 ∧
      registries' = Function.update registries call.contractAddress
        (Contract.record env id pi (registries call.contractAddress)) := by
  unfold invoke at invoked
  split at invoked
  · cases read : readArgs call.args with
    | none => simp [read] at invoked
    | some args =>
        rcases args with ⟨proof, pi⟩
        rw [read] at invoked
        dsimp only at invoked
        rcases published : Contract.publishProof verifier env proof pi
          (registries call.contractAddress) with ⟨outcome, storage⟩
        rw [published] at invoked
        rcases Prod.mk.inj invoked with ⟨rfl, rfl⟩
        rcases Contract.publishProof_eq_ok_iff.mp published with ⟨_, id_eq, rfl⟩
        exact ⟨proof, pi, rfl, id_eq, rfl⟩
  · cases invoked

end Ledger

/-! ## The RPC -/

section Rpc

variable {Address : Type} (sdk : Sdk)

/-- The error of a context that was cancelled or ran out of time. -/
def isCancellation (err : GoError) : Bool :=
  err.is .canceled || err.is .deadlineExceeded

/-- Whether a submission is polled for. -/
def SendResponse.accepted (send : SendResponse) : Bool :=
  send.status = "PENDING" ∨ send.status = "DUPLICATE"

/-- The transaction whose result a publish waits for after a call. -/
def awaitedAfter (awaited : Option Transaction) : (c : RpcCall) → RpcReply c → Option Transaction
  | .sendTransaction signed, .ok send => if send.accepted then some signed.tx else none
  | .sendTransaction _, .error _ => none
  | .getTransaction _, .ok got => if got.status = "NOT_FOUND" then awaited else none
  | .getTransaction _, .error _ => none
  | .pastDeadline left, late => if late ∨ left = 0 then none else awaited
  | _, _ => awaited

/-- What is waited for was waited for before, or has just been sent. -/
theorem eq_of_awaitedAfter {awaited : Option Transaction} {c : RpcCall} {reply : RpcReply c}
    {tx : Transaction} (waits : awaitedAfter awaited c reply = some tx) :
    awaited = some tx ∨ ∃ signed, c = .sendTransaction signed ∧ signed.tx = tx := by
  unfold awaitedAfter at waits
  split at waits
  · rename_i signed send
    split at waits
    · exact .inr ⟨signed, rfl, Option.some.inj waits⟩
    · cases waits
  · cases waits
  · split at waits
    · exact .inl waits
    · cases waits
  · cases waits
  · split at waits
    · cases waits
    · exact .inl waits
  · exact .inl waits

/-- Reports of a success are about a transaction that added the entry of the id in the
report, and no entry was added by one that is reported as failed. -/
def Truthful (s : Network Address) : (c : RpcCall) → RpcReply c → Prop
  | .getTransaction hash, .ok got =>
      (got.status = "SUCCESS" → ∃ tx id, sdk.hashHex tx = .ok hash ∧ (tx, .ok id) ∈ s.applied ∧
        parseReturnValue sdk got.resultMeta = .ok id) ∧
      (got.status = "FAILED" → ∀ tx id, sdk.hashHex tx = .ok hash → (tx, .ok id) ∉ s.applied)
  | _, _ => True

/-- A call of the publish. A transaction that is sent may reach the network or not,
whatever the answer. -/
def RpcStep (_ : Unit) (c : RpcCall) (s : Network Address) (reply : RpcReply c)
    (next : Network Address) : Prop :=
  Truthful sdk s c reply ∧ ∃ submitted, next =
      { s with submitted := submitted, awaited := awaitedAfter s.awaited c reply } ∧
    (submitted = s.submitted ∨
      ∃ signed, c = .sendTransaction signed ∧ submitted = s.submitted ++ [signed.tx])

end Rpc

end Solva.Stellar
