import Solva.Contract.Core
import Solva.Orchestrator.Cycle
import Solva.Orchestrator.Repo
import Solva.Prover.Service
import Solva.Stellar.Arguments

/-!
# The cycle's ports over one world

The adapters behind the ports: the prover's RPC client, the publisher taken as one
atomic step on the target contract, the database and the cache. `faulty` makes any
of the calls fail, before or after it took effect.
-/

namespace Solva.Orchestrator

open Bn254 Codec

/-! ## The prover's client -/

/-- `buildRequest`. -/
def buildRequest (reserves : List Reserve) (liabilities : List Liability)
    (prevReserves : String) : Prover.ProveRequest :=
  { reserves := reserves.map fun r => ⟨r.balance⟩
    liabilities := liabilities.map fun l => ⟨l.customerIDHash, l.balance⟩
    prevReserves := prevReserves }

def codeName : Prover.Code → String
  | .invalidArgument => "InvalidArgument"
  | .internal => "Internal"

/-- `Error()` of a gRPC status. -/
def statusText (status : Prover.Status) : String :=
  "rpc error: code = " ++ codeName status.code ++ " desc = " ++ status.message

/-- `isInsolvent`. -/
def isInsolvent (status : Prover.Status) : Bool :=
  status.code = .invalidArgument ∧ "insolvent".toList <:+: status.message.toList

/-- What stays the same from run to run: the hash and the verifier, the signer's
authority, the JSON that the prover writes and the database reads, and the error
texts of code elsewhere. -/
structure Deployment (Address : Type) where
  hash4 : Hash4
  verifier : Contract.Verifier
  auth : Address → Bool
  serde : JsonLink
  /-- The RPC error of a prover that panicked. -/
  panicError : String
  /-- The error of decoding a contract id, where there is one. -/
  strkeyError : String → Option String
  /-- The simulation error that reports a rejected call. -/
  rejection : Contract.Outcome U64 → String

/-- The public inputs of a response as the client hands them on. -/
def ofResponse (pub : Prover.PublicInputs) : PublicInputs :=
  { reservesTotal := pub.reservesTotal
    liabilitiesTotal := pub.liabilitiesTotal
    prevReserves := pub.prevReserves
    rootHash := pub.rootHash }

/-- `ProverClient.Prove`. -/
def proverProve {Address : Type} (d : Deployment Address) (tools : Prover.Tools)
    (reserves : List Reserve) (liabilities : List Liability) (prevReserves : String) :
    Result ProveResult :=
  match Prover.serviceProve d.hash4 tools (buildRequest reserves liabilities prevReserves) with
  | none => .error (.wrap "prover.Prove" (.plain d.panicError))
  | some (.error status) =>
      if isInsolvent status then .error (.sentinel .insolvent)
      else .error (.wrap "prover.Prove" (.plain (statusText status)))
  | some (.ok resp) =>
      .ok
        { proof := resp.proof
          publicInputs := ofResponse resp.publicInputs
          serializedTree := d.serde.encode resp.serializedTree.toJson }

/-! ## The world -/

/-- Cache, database and the registries by contract id. -/
structure World (Address : Type) where
  redis : Redis
  db : Database
  registries : String → Contract.Storage Address

/-- What the environment supplies to one run: the sources' answer, the prover's
tools, the random id of a new row and the time of the ledger that closes. -/
structure RunInput where
  snapshot : Result ReserveSnapshot
  tools : Prover.Tools
  rowID : Uuid
  ledgerTime : U64

section Handlers

variable {Address : Type} (d : Deployment Address)

/-- Publishing as one step: the contract records the proof and its id comes back,
or nothing changes and an error comes back. -/
def publishAtomic (ledgerTime : U64) (target : TenantContract) (proof : List UInt8)
    (pub : PublicInputs) (w : World Address) : Result U64 × World Address :=
  if target.contractID = "" then (.error (.sentinel .notConfigured), w)
  else
    match Stellar.encodePubInputs pub with
    | .error err => (.error (.wrap "encode contract args" err), w)
    | .ok map =>
        match d.strkeyError target.contractID with
        | some text => (.error (.wrap "decode contract id" (.plain text)), w)
        | none =>
            let storage := w.registries target.contractID
            let called :=
              match Stellar.readPubInputs map with
              | none => (Contract.Outcome.trap, storage)
              | some pi => Contract.publishProof d.verifier ⟨d.auth, ledgerTime⟩ proof pi storage
            match called.1 with
            | .ok id =>
                (.ok id, { w with
                  registries := Function.update w.registries target.contractID called.2 })
            | rejected =>
                (.error (.plain ("simulation rejected publish_proof: " ++ d.rejection rejected)), w)

/-- Lift a database write. -/
def onDatabase {α : Type} (write : Database → Result α × Database) (w : World Address) :
    Result α × World Address :=
  ((write w.db).1, { w with db := (write w.db).2 })

/-- Every port, none failing on its own account. -/
def handlePort (input : RunInput) : (c : PortCall) → World Address → PortReply c × World Address
  | .acquireCycleLock tenantID, w =>
      (.ok (acquireCycleLock tenantID w.redis).1,
        { w with redis := (acquireCycleLock tenantID w.redis).2 })
  | .releaseCycleLock tenantID, w =>
      (.ok (), { w with redis := releaseCycleLock tenantID w.redis })
  | .claimCycle tenantID requestKey, w => onDatabase (claimCycle tenantID requestKey) w
  | .fetchSigned _, w => (input.snapshot, w)
  | .saveSnapshot snap, w => onDatabase (saveSnapshot snap) w
  | .loadLiabilities tenantID, w => (loadLiabilities tenantID w.db, w)
  | .latestReserves tenantID, w => (latestReserves tenantID w.db, w)
  | .prove reserves liabilities prevReserves, w =>
      (proverProve d input.tools reserves liabilities prevReserves, w)
  | .resolveTenantContract tenantID, w => (resolveTenantContract tenantID w.db, w)
  | .publishProof target proof pub, w => publishAtomic d input.ledgerTime target proof pub w
  | .saveProof proof tree, w =>
      onDatabase (saveProof d.serde.decode input.rowID proof tree) w
  | .setLatest tenantID proofID, w =>
      (.ok (), { w with redis := setLatest tenantID proofID w.redis })
  | .appendAudit tenantID event payload, w => onDatabase (appendAudit tenantID event payload) w

end Handlers

/-! ## Faults -/

/-- The ports, one call of each in a cycle. -/
inductive Port where
  | acquireCycleLock
  | releaseCycleLock
  | claimCycle
  | fetchSigned
  | saveSnapshot
  | loadLiabilities
  | latestReserves
  | prove
  | resolveTenantContract
  | publishProof
  | saveProof
  | setLatest
  | appendAudit
  deriving DecidableEq

def PortCall.port : PortCall → Port
  | .acquireCycleLock _ => .acquireCycleLock
  | .releaseCycleLock _ => .releaseCycleLock
  | .claimCycle _ _ => .claimCycle
  | .fetchSigned _ => .fetchSigned
  | .saveSnapshot _ => .saveSnapshot
  | .loadLiabilities _ => .loadLiabilities
  | .latestReserves _ => .latestReserves
  | .prove _ _ _ => .prove
  | .resolveTenantContract _ => .resolveTenantContract
  | .publishProof _ _ _ => .publishProof
  | .saveProof _ _ => .saveProof
  | .setLatest _ _ => .setLatest
  | .appendAudit _ _ _ => .appendAudit

/-- A call fails without taking effect, or takes effect and its reply is lost. -/
inductive Fault where
  | refused (err : GoError)
  | lost (err : GoError)

/-- Which calls of a run fail. A cancelled context is a plan under which every call
from some point on fails. -/
structure FaultPlan where
  at_ : Port → Option Fault
  /-- Publishing is atomic: its reply is not lost. -/
  publish_atomic : ∀ err, at_ .publishProof ≠ some (.lost err)

namespace FaultPlan

/-- The plan under which nothing fails. -/
def none : FaultPlan :=
  ⟨fun _ => Option.none, by simp⟩

end FaultPlan

/-- Ports under a plan. -/
def faulty {σ : Type} (plan : FaultPlan) (handle : (c : PortCall) → σ → PortReply c × σ)
    (c : PortCall) (state : σ) : PortReply c × σ :=
  match plan.at_ c.port with
  | .none => handle c state
  | some (.refused err) => (.error err, state)
  | some (.lost err) => (.error err, (handle c state).2)

end Solva.Orchestrator
