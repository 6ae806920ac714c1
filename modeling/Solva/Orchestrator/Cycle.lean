import Solva.Codec.Json
import Solva.Orchestrator.Entity
import Solva.Transition.Program

/-!
# The proof cycle

`Cycle.Run` as a program over the calls of its ports. A port call that fails ends
the cycle with the port's error behind a context; the lock, once taken, is
released on the way out.
-/

namespace Solva.Orchestrator

open Bn254 Codec Transition

/-! ## Ports -/

structure ProveResult where
  proof : List UInt8
  publicInputs : PublicInputs
  serializedTree : List UInt8
  deriving DecidableEq

/-- A call of one of the cycle's ports. -/
inductive PortCall where
  | acquireCycleLock (tenantID : String)
  | releaseCycleLock (tenantID : String)
  | claimCycle (tenantID requestKey : String)
  | fetchSigned (tenantID : String)
  | saveSnapshot (snap : ReserveSnapshot)
  | loadLiabilities (tenantID : String)
  | latestReserves (tenantID : String)
  | prove (reserves : List Reserve) (liabilities : List Liability) (prevReserves : String)
  | resolveTenantContract (tenantID : String)
  | publishProof (target : TenantContract) (proof : List UInt8) (pub : PublicInputs)
  | saveProof (proof : Proof) (serializedTree : List UInt8)
  | setLatest (tenantID proofID : String)
  | appendAudit (tenantID event : String) (payload : Json)

/-- The value a port returns next to its error. -/
abbrev PortCall.Value : PortCall → Type
  | acquireCycleLock _ => Bool
  | releaseCycleLock _ => Unit
  | claimCycle _ _ => Bool
  | fetchSigned _ => ReserveSnapshot
  | saveSnapshot _ => Unit
  | loadLiabilities _ => List Liability
  | latestReserves _ => String
  | prove _ _ _ => ProveResult
  | resolveTenantContract _ => TenantContract
  | publishProof _ _ _ => U64
  | saveProof _ _ => Unit
  | setLatest _ _ => Unit
  | appendAudit _ _ _ => Unit

abbrev PortReply (c : PortCall) : Type :=
  Result c.Value

/-- A part of the cycle: port calls, then a value or an error. -/
abbrev CycleM (α : Type) : Type :=
  ExceptT GoError (Program PortCall PortReply) α

/-- Call a port; its error is returned behind a context. -/
def port (context : String) (c : PortCall) : CycleM c.Value :=
  ExceptT.mk (Program.call c fun reply => .ret (reply.mapError (.wrap context)))

/-! ## `Cycle.Run` -/

/-- `isGenesisReserves`. -/
def isGenesisReserves (prev : String) : Bool :=
  prev = "" ∨ prev = "0"

/-- The running total of `sumReserves`. -/
def addReserves (total : Int) : List Reserve → Result Int
  | [] => .ok total
  | r :: rest =>
      match Decimal.signed? r.balance.toList with
      | some v => addReserves (total + v) rest
      | none =>
          .error (.plain ("reserve " ++ quote r.sourceID ++ " has a non-integer balance " ++
            quote r.balance))

/-- `sumReserves`. -/
def sumReserves (reserves : List Reserve) : Result String :=
  (addReserves 0 reserves).map toString

/-- The previous reserves that are sent to the prover: the genesis cycle bounds
against its own total. -/
def effectivePrev (latest : String) (reserves : List Reserve) : Result String :=
  if isGenesisReserves latest then
    (sumReserves reserves).mapError (.wrap "genesis reserves total")
  else .ok latest

/-- The payload of the `proof_cycle` audit entry; Go writes map keys sorted. -/
def cyclePayload (requestKey : String) (chainID : U64) (pub : PublicInputs) : Json :=
  .object [("chain_proof_id", .number chainID.val),
    ("liabilities_total", .string pub.liabilitiesTotal),
    ("request_key", .string requestKey),
    ("reserves_total", .string pub.reservesTotal),
    ("root_hash", .string pub.rootHash)]

/-- The proof a cycle saves; the id and the time are the database's. -/
def cycleProof (tenantID : String) (chainID : U64) (res : ProveResult) : Proof :=
  { id := ""
    tenantID := tenantID
    chainProofID := chainID
    rootHash := res.publicInputs.rootHash
    reservesTotal := res.publicInputs.reservesTotal
    liabilitiesTotal := res.publicInputs.liabilitiesTotal
    blob := res.proof
    publishedAt := 0 }

/-- What follows a publish: save, cache, audit. -/
def Cycle.recordPublished (tenantID requestKey : String) (res : ProveResult) (chainID : U64) :
    CycleM Unit := do
  port "save proof" (.saveProof (cycleProof tenantID chainID res) res.serializedTree)
  port "cache latest proof" (.setLatest tenantID (toString chainID.val))
  port "append audit" (.appendAudit tenantID "proof_cycle"
    (cyclePayload requestKey chainID res.publicInputs))

/-- What a claimed cycle gathers before it publishes. -/
def Cycle.prepare (tenantID : String) : CycleM (ProveResult × TenantContract) := do
  let snap ← port "fetch signed reserves" (.fetchSigned tenantID)
  port "save reserve snapshot" (.saveSnapshot snap)
  let liabilities ← port "load liabilities" (.loadLiabilities tenantID)
  let latest ← port "load previous reserves" (.latestReserves tenantID)
  let prev ← (effectivePrev latest snap.reserves : Result String)
  let res ← port "prove" (.prove snap.reserves liabilities prev)
  let contract ← port "resolve tenant contract" (.resolveTenantContract tenantID)
  pure (res, contract)

/-- What a claimed cycle does. -/
def Cycle.runClaimed (tenantID requestKey : String) : CycleM Unit := do
  let (res, contract) ← Cycle.prepare tenantID
  let chainID ← port "publish proof" (.publishProof contract res.proof res.publicInputs)
  Cycle.recordPublished tenantID requestKey res chainID

/-- What a cycle does under the lock. -/
def Cycle.runLocked (tenantID requestKey : String) : CycleM Unit := do
  let claimed ← port "claim cycle" (.claimCycle tenantID requestKey)
  if claimed then Cycle.runClaimed tenantID requestKey
  else throw (.sentinel .duplicateCycle)

/-- `Cycle.Run`. The deferred release's error is only logged. -/
def Cycle.run (tenantID requestKey : String) : Program PortCall PortReply (Result Unit) := do
  let acquired : Result Bool ← Program.perform (PortCall.acquireCycleLock tenantID)
  match acquired with
  | .error err => pure (.error (.wrap "acquire cycle lock" err))
  | .ok false => pure (.error (.sentinel .cycleInProgress))
  | .ok true =>
      let result ← (Cycle.runLocked tenantID requestKey).run
      let _ ← Program.perform (PortCall.releaseCycleLock tenantID)
      pure result

end Solva.Orchestrator
