import Solva.Codec.JsonText
import Solva.Contract.History
import Solva.Orchestrator.RunEffect
import Solva.Prover.Poseidon2
import Solva.Transition.Core

/-!
# The four stores over any sequence of cycles

The registry, the proof rows, the cache and the audit log are written one after
the other, with no transaction around them. A log of publications says how far the
recording of each one got; the stores hold exactly what the log says, whatever
call of whatever cycle failed.
-/

namespace Solva.Orchestrator

open Bn254 Codec Transition

variable {Address : Type}

/-! ## Recording -/

/-- How far the recording of a publication got. -/
inductive Stage where
  | published
  | saved
  | cached
  | audited
  deriving DecidableEq

namespace Stage

def isSaved : Stage → Bool
  | published => false
  | _ => true

def isCached : Stage → Bool
  | published | saved => false
  | _ => true

def isAudited : Stage → Bool
  | audited => true
  | _ => false

end Stage

/-- The stores after recording up to a stage. -/
inductive Recorded (serde : JsonLink) (rowID : Uuid) (tenantID requestKey : String)
    (res : ProveResult) (chainID : U64) (w : World Address) : Stage → World Address → Prop
  | published : Recorded serde rowID tenantID requestKey res chainID w .published w
  | saved {tid : Uuid} {r l : Int} {tree : Json}
      (fresh : rowID ∉ w.db.proofs.map ProofRow.id) :
      toUUID tenantID = .ok tid → toNumeric res.publicInputs.reservesTotal = .ok r →
      toNumeric res.publicInputs.liabilitiesTotal = .ok l →
      serde.decode res.serializedTree = some tree →
      Recorded serde rowID tenantID requestKey res chainID w .saved { w with
        db := w.db.insertProof w.db.clock rowID tid fresh (cycleProof tenantID chainID res) r l
          tree }
  | cached {w' : World Address} :
      Recorded serde rowID tenantID requestKey res chainID w .saved w' →
      Recorded serde rowID tenantID requestKey res chainID w .cached
        { w' with redis := setLatest tenantID (toString chainID.val) w'.redis }
  | audited {w' : World Address} {tid : Uuid} :
      Recorded serde rowID tenantID requestKey res chainID w .cached w' →
      toUUID tenantID = .ok tid →
      Recorded serde rowID tenantID requestKey res chainID w .audited { w' with
        db := { w'.db with auditLog := w'.db.auditLog ++
          [⟨tid, "proof_cycle", cyclePayload requestKey chainID res.publicInputs⟩] } }

section Recording

variable {d : Deployment Address} {input : RunInput} {plan : FaultPlan}
  {tenantID requestKey : String} {res : ProveResult} {chainID : U64}

/-- A call that takes the state from one stage to the next, or fails without a
trace: under a plan it may also reach the next stage and report an error. -/
theorem faulty_stage (plan : FaultPlan) {σ : Type}
    (handle : (c : PortCall) → σ → PortReply c × σ) (c : PortCall) {state : σ}
    (before after : σ → Prop) (here : before state)
    (ends : (∃ value target, handle c state = (.ok value, target) ∧ after target) ∨
      ∃ err, handle c state = (.error err, state)) :
    (∃ value target, faulty plan handle c state = (.ok value, target) ∧ after target) ∨
      ∃ err target, faulty plan handle c state = (.error err, target) ∧
        (before target ∨ after target) := by
  unfold faulty
  split
  · rcases ends with reached | ⟨err, failed⟩
    · exact Or.inl reached
    · exact Or.inr ⟨err, state, failed, Or.inl here⟩
  · exact Or.inr ⟨_, state, rfl, Or.inl here⟩
  · rcases ends with ⟨value, target, handled, reached⟩ | ⟨err, failed⟩
    · exact Or.inr ⟨_, target, by rw [handled], Or.inr reached⟩
    · exact Or.inr ⟨_, state, by rw [failed], Or.inl here⟩

/-- `SaveProof` on the world of the cycle. -/
theorem saveProof_stage (w : World Address) :
    (∃ value target, handlePort d input
        (.saveProof (cycleProof tenantID chainID res) res.serializedTree) w = (.ok value, target) ∧
      Recorded d.serde input.rowID tenantID requestKey res chainID w .saved target) ∨
    ∃ err, handlePort d input
      (.saveProof (cycleProof tenantID chainID res) res.serializedTree) w = (.error err, w) := by
  rcases saveProof_cases d.serde.decode input.rowID (cycleProof tenantID chainID res)
    res.serializedTree w.db with
    ⟨tid, r, l, tree, fresh, tenant, reserves, liabilities, parsed, inserted⟩ | ⟨err, failed⟩
  · exact Or.inl ⟨(), _, by rw [handlePort, onDatabase, inserted],
      .saved fresh tenant reserves liabilities parsed⟩
  · exact Or.inr ⟨err, by rw [handlePort, onDatabase, failed]⟩

/-- `AppendAudit` likewise. -/
theorem appendAudit_stage {w cached : World Address}
    (reached : Recorded d.serde input.rowID tenantID requestKey res chainID w .cached cached) :
    (∃ value target, handlePort d input (.appendAudit tenantID "proof_cycle"
        (cyclePayload requestKey chainID res.publicInputs)) cached = (.ok value, target) ∧
      Recorded d.serde input.rowID tenantID requestKey res chainID w .audited target) ∨
    ∃ err, handlePort d input (.appendAudit tenantID "proof_cycle"
      (cyclePayload requestKey chainID res.publicInputs)) cached = (.error err, cached) := by
  rcases appendAudit_cases tenantID "proof_cycle" (cyclePayload requestKey chainID res.publicInputs)
    cached.db with ⟨tid, tenant, appended⟩ | ⟨err, failed⟩
  · exact Or.inl ⟨(), _, by rw [handlePort, onDatabase, appended], .audited reached tenant⟩
  · exact Or.inr ⟨err, by rw [handlePort, onDatabase, failed]⟩

/-- Recording stops at the first call that fails; it returns nil only when it is
complete. -/
theorem recorded_of_exec {w : World Address} {ended : Result Unit × World Address}
    (ran : Program.exec (faulty plan (handlePort d input))
      (Cycle.recordPublished tenantID requestKey res chainID).run w = ended) :
    ∃ stage, Recorded d.serde input.rowID tenantID requestKey res chainID w stage ended.2 ∧
      (ended.1 = .ok () → stage = .audited) := by
  let reached := Recorded d.serde input.rowID tenantID requestKey res chainID w
  have stopped {stage next : Stage} {err : GoError} {target : World Address}
      (here : reached stage target ∨ reached next target)
      (ended_eq : (.error err, target) = ended) :
      ∃ stage, reached stage ended.2 ∧ (ended.1 = .ok () → stage = .audited) := by
    subst ended_eq
    exact here.elim (fun found => ⟨stage, found, fun ok => by cases ok⟩)
      (fun found => ⟨next, found, fun ok => by cases ok⟩)
  rw [Cycle.recordPublished, exec_port_bind] at ran
  rcases faulty_stage plan (handlePort d input) _ (reached .published) (reached .saved) .published
    (saveProof_stage w) with ⟨_, saved, called, saved_reached⟩ | ⟨err, target, called, here⟩
  case inr =>
    rw [called] at ran
    exact stopped here ran
  rw [called] at ran
  dsimp only at ran
  rw [exec_port_bind] at ran
  rcases faulty_stage plan (handlePort d input) (.setLatest tenantID (toString chainID.val))
    (reached .saved) (reached .cached) saved_reached (Or.inl ⟨(), _, rfl, .cached saved_reached⟩)
    with ⟨_, cached, called, cached_reached⟩ | ⟨err, target, called, here⟩
  case inr =>
    rw [called] at ran
    exact stopped here ran
  rw [called] at ran
  dsimp only at ran
  rcases faulty_stage plan (handlePort d input) _ (reached .cached) (reached .audited)
    cached_reached (appendAudit_stage cached_reached) with
    ⟨_, audited, called, audited_reached⟩ | ⟨err, target, called, here⟩
  · rw [exec_port, called] at ran
    subst ran
    exact ⟨.audited, audited_reached, fun _ => rfl⟩
  · rw [exec_port, called] at ran
    exact stopped here ran

end Recording

/-! ## The log of publications -/

/-- A publication: what was sent, what the registry recorded of it and when, and how
far its recording in the other stores got. -/
structure Publication where
  requestKey : String
  chainID : U64
  pub : PublicInputs
  pi : Contract.PubInputs
  time : U64
  stage : Stage
  denotes : Stellar.Denotes pub pi

namespace Publication

/-- The registry's entry. -/
def entry (p : Publication) : Contract.ProofMeta :=
  { rootH := p.pi.rootHash
    r := p.pi.reservesTotal
    l := p.pi.liabilitiesTotal
    timestamp := p.time }

/-- What a proof row says about the publication: chain id, root, totals. -/
def facts (p : Publication) : U64 × String × Int × Int :=
  (p.chainID, p.pub.rootHash, p.pi.reservesTotal.val, p.pi.liabilitiesTotal.val)

/-- The payload of its audit entry. -/
def payload (p : Publication) : Json :=
  cyclePayload p.requestKey p.chainID p.pub

/-- The publication at another stage. -/
def at_ (p : Publication) (stage : Stage) : Publication :=
  { p with stage := stage }

@[simp]
theorem stage_at (p : Publication) (stage : Stage) : (p.at_ stage).stage = stage :=
  rfl

@[simp]
theorem chainID_at (p : Publication) (stage : Stage) : (p.at_ stage).chainID = p.chainID :=
  rfl

@[simp]
theorem entry_at (p : Publication) (stage : Stage) : (p.at_ stage).entry = p.entry :=
  rfl

@[simp]
theorem facts_at (p : Publication) (stage : Stage) : (p.at_ stage).facts = p.facts :=
  rfl

@[simp]
theorem payload_at (p : Publication) (stage : Stage) : (p.at_ stage).payload = p.payload :=
  rfl

end Publication

def ProofRow.facts (row : ProofRow) : U64 × String × Int × Int :=
  (row.chainProofID, row.rootH, row.r, row.l)

/-- The `proof_cycle` entries of a tenant. -/
def tenantAudits (tid : Uuid) (db : Database) : List AuditRow :=
  (cycleAudits db).filter fun row => row.tenantID = tid

def savedOf (log : List Publication) : List Publication :=
  log.filter fun p => p.stage.isSaved

def cachedOf (log : List Publication) : List Publication :=
  log.filter fun p => p.stage.isCached

def auditedOf (log : List Publication) : List Publication :=
  log.filter fun p => p.stage.isAudited

@[simp]
theorem savedOf_concat (log : List Publication) (p : Publication) :
    savedOf (log ++ [p]) = if p.stage.isSaved then savedOf log ++ [p] else savedOf log := by
  cases saved : p.stage.isSaved <;> simp [savedOf, saved]

@[simp]
theorem cachedOf_concat (log : List Publication) (p : Publication) :
    cachedOf (log ++ [p]) = if p.stage.isCached then cachedOf log ++ [p] else cachedOf log := by
  cases cached : p.stage.isCached <;> simp [cachedOf, cached]

@[simp]
theorem auditedOf_concat (log : List Publication) (p : Publication) :
    auditedOf (log ++ [p]) =
      if p.stage.isAudited then auditedOf log ++ [p] else auditedOf log := by
  cases audited : p.stage.isAudited <;> simp [auditedOf, audited]

/-- The reserves the next cycle is measured against: those of the last publication
that was saved. -/
def baselineOf (log : List Publication) : String :=
  match (savedOf log).getLast? with
  | some p => fromNumeric p.pi.reservesTotal.val
  | none => "0"

/-- The four stores hold what the log says: the registry every publication, the
tables the saved ones, the cache the last one cached, the audit log the audited
ones. -/
structure Consistent (tenantID : String) (tid : Uuid) (target : TenantContract)
    (log : List Publication) (w : World Address) : Prop where
  resolved : resolveTenantContract tenantID w.db = .ok target
  registry : Contract.Lists (w.registries target.contractID) (log.map Publication.entry)
  ids : (log.map fun p => p.chainID.val) = List.range' 1 log.length
  rows : (tenantProofs tid w.db).map ProofRow.facts = (savedOf log).map Publication.facts
  sorted : (tenantProofs tid w.db).Pairwise fun earlier later =>
    earlier.timestamp < later.timestamp
  trees : ∀ row ∈ tenantProofs tid w.db, row.id ∈ w.db.merkleTrees.map MerkleTreeRow.proofID
  audits : (tenantAudits tid w.db).map AuditRow.payload = (auditedOf log).map Publication.payload
  cached : getLatest tenantID w.redis =
    ((cachedOf log).getLast?.map fun p => toString p.chainID.val).getD ""

section Steps

variable {tenantID : String} {tid : Uuid} {target : TenantContract} {log : List Publication}
  {w w' : World Address}

theorem Consistent.of_quiet (consistent : Consistent tenantID tid target log w)
    (quiet : Quiet w w') : Consistent tenantID tid target log w' where
  resolved := (quiet.resolve_eq tenantID).trans consistent.resolved
  registry := by
    rw [quiet.registries]
    exact consistent.registry
  ids := consistent.ids
  rows := by
    rw [← consistent.rows]
    simp only [tenantProofs, quiet.proofs]
  sorted := by
    simpa only [tenantProofs, quiet.proofs] using consistent.sorted
  trees row mem := by
    rw [quiet.merkleTrees]
    exact consistent.trees row (by simpa only [tenantProofs, quiet.proofs] using mem)
  audits := by
    rw [← consistent.audits]
    simp only [tenantAudits, quiet.audits]
  cached := by
    rw [← consistent.cached]
    simp only [getLatest, quiet.latest]

/-- `LatestReserves` reads the last saved publication. -/
theorem Consistent.latestReserves_eq (consistent : Consistent tenantID tid target log w)
    (tenant : toUUID tenantID = .ok tid) :
    latestReserves tenantID w.db = .ok (baselineOf log) := by
  have newest := congrArg List.getLast? consistent.rows
  rw [List.getLast?_map, List.getLast?_map] at newest
  rw [latestReserves, tenant]
  dsimp only
  rw [newestProof_eq_getLast? consistent.sorted, baselineOf]
  cases row_eq : (tenantProofs tid w.db).getLast? with
  | none =>
      rw [row_eq, Option.map_none, eq_comm, Option.map_eq_none_iff] at newest
      rw [newest]
  | some row =>
      rw [row_eq, Option.map_some, eq_comm, Option.map_eq_some_iff] at newest
      obtain ⟨p, last, facts_eq⟩ := newest
      have r_eq : (p.pi.reservesTotal.val : Int) = row.r :=
        congrArg (fun facts : U64 × String × Int × Int => facts.2.2.1) facts_eq
      simp only [last, r_eq]

/-- The publish appends a publication that nothing else records yet. -/
theorem Consistent.publish (consistent : Consistent tenantID tid target log w)
    {d : Deployment Address} {time id : U64} {proof : List UInt8} {pub : PublicInputs}
    {pi : Contract.PubInputs} (requestKey : String)
    (publishes : Publishes d time target proof pub w id pi) :
    Consistent tenantID tid target
      (log ++ [⟨requestKey, id, pub, pi, time, .published, publishes.denotes⟩])
      (w.published target.contractID ⟨d.auth, time⟩ id pi) := by
  refine { consistent with registry := ?_, ids := ?_, rows := ?_, audits := ?_, cached := ?_ }
  · rw [World.registries_published, Function.update_self, List.map_append]
    exact consistent.registry.record ⟨d.auth, time⟩ pi publishes.id_eq
  · rw [List.map_append, consistent.ids, List.length_append, List.length_singleton,
      List.range'_concat, List.map_singleton, publishes.id_eq, consistent.registry.latest,
      List.length_map, Nat.one_mul, Nat.add_comm]
  · simpa [Stage.isSaved] using consistent.rows
  · simpa [Stage.isAudited] using consistent.audits
  · simpa [Stage.isCached] using consistent.cached

/-- A row of the publication moves it to the saved ones. -/
theorem Consistent.save {p : Publication} {rowID : Uuid} {proof : Proof} {r l : Int} {tree : Json}
    (consistent : Consistent tenantID tid target (log ++ [p.at_ .published]) w)
    (fresh : rowID ∉ w.db.proofs.map ProofRow.id)
    (facts_eq : (proof.chainProofID, proof.rootHash, r, l) = p.facts) :
    Consistent tenantID tid target (log ++ [p.at_ .saved])
      { w with db := w.db.insertProof w.db.clock rowID tid fresh proof r l tree } where
  resolved := consistent.resolved
  registry := by simpa using consistent.registry
  ids := by simpa using consistent.ids
  rows := by
    have rows := consistent.rows
    simp only [savedOf_concat, Publication.stage_at, Stage.isSaved, Bool.false_eq_true,
      if_false] at rows
    simp only [savedOf_concat, Publication.stage_at, Stage.isSaved, if_true, List.map_append,
      ← rows, tenantProofs_insertProof]
    simp [ProofRow.facts, facts_eq]
  sorted := by
    rw [tenantProofs_insertProof]
    refine List.pairwise_append.mpr ⟨consistent.sorted, List.pairwise_singleton _ _, ?_⟩
    intro row mem new new_mem
    rw [List.mem_singleton.mp new_mem]
    exact w.db.timestamps_lt row (List.mem_filter.mp mem).1
  trees row mem := by
    rw [tenantProofs_insertProof, List.mem_append, List.mem_singleton] at mem
    rw [Database.insertProof, List.map_append, List.mem_append]
    rcases mem with old | rfl
    · exact Or.inl (consistent.trees row old)
    · exact Or.inr (List.mem_singleton_self _)
  audits := by
    simpa [Stage.isAudited, tenantAudits, cycleAudits, Database.insertProof] using
      consistent.audits
  cached := by simpa [Stage.isCached] using consistent.cached

/-- Its id in the cache moves it to the cached ones. -/
theorem Consistent.cache {p : Publication}
    (consistent : Consistent tenantID tid target (log ++ [p.at_ .saved]) w) :
    Consistent tenantID tid target (log ++ [p.at_ .cached])
      { w with redis := setLatest tenantID (toString p.chainID.val) w.redis } where
  resolved := consistent.resolved
  registry := by simpa using consistent.registry
  ids := by simpa using consistent.ids
  rows := by simpa [Stage.isSaved] using consistent.rows
  sorted := consistent.sorted
  trees := consistent.trees
  audits := by simpa [Stage.isAudited] using consistent.audits
  cached := by simp [Stage.isCached, getLatest, setLatest]

/-- Its audit entry moves it to the audited ones. -/
theorem Consistent.audit {p : Publication}
    (consistent : Consistent tenantID tid target (log ++ [p.at_ .cached]) w) :
    Consistent tenantID tid target (log ++ [p.at_ .audited])
      { w with db := { w.db with
          auditLog := w.db.auditLog ++ [⟨tid, "proof_cycle", p.payload⟩] } } where
  resolved := consistent.resolved
  registry := by simpa using consistent.registry
  ids := by simpa using consistent.ids
  rows := by simpa [Stage.isSaved, tenantProofs] using consistent.rows
  sorted := consistent.sorted
  trees := consistent.trees
  audits := by
    have audits := consistent.audits
    simp only [auditedOf_concat, Publication.stage_at, Stage.isAudited, Bool.false_eq_true,
      if_false] at audits
    simp only [auditedOf_concat, Publication.stage_at, Stage.isAudited, if_true, List.map_append,
      ← audits]
    simp [tenantAudits, cycleAudits]
  cached := by simpa [Stage.isCached] using consistent.cached

/-- Recording a publication that is only in the registry moves it to the stage it
reached. -/
theorem Consistent.recorded {p : Publication} {serde : JsonLink} {rowID : Uuid}
    {res : ProveResult} {stage : Stage}
    (consistent : Consistent tenantID tid target (log ++ [p.at_ .published]) w)
    (tenant : toUUID tenantID = .ok tid) (pub_eq : p.pub = res.publicInputs)
    (recorded : Recorded serde rowID tenantID p.requestKey res p.chainID w stage w') :
    Consistent tenantID tid target (log ++ [p.at_ stage]) w' := by
  induction recorded with
  | published => exact consistent
  | @saved other r l tree fresh tenant_eq reserves liabilities parsed =>
      obtain rfl : tid = other := Except.ok.inj (tenant.symm.trans tenant_eq)
      have reserves_read := p.denotes.reserves
      have liabilities_read := p.denotes.liabilities
      rw [pub_eq, toNumeric_eq_ok reserves, Option.some.injEq] at reserves_read
      rw [pub_eq, toNumeric_eq_ok liabilities, Option.some.injEq] at liabilities_read
      refine consistent.save fresh ?_
      rw [Publication.facts, pub_eq, reserves_read, liabilities_read, cycleProof]
  | cached _ ih => exact ih.cache
  | @audited _ other _ tenant_eq ih =>
      obtain rfl : tid = other := Except.ok.inj (tenant.symm.trans tenant_eq)
      rw [← pub_eq]
      exact ih.audit

end Steps

/-! ## Any sequence of cycles -/

/-- What happens to one tenant: a cycle, with the environment's input and the calls
that fail in it; the lock expires; the liabilities are replaced. -/
inductive Event where
  | cycle (requestKey : String) (input : RunInput) (plan : FaultPlan)
  | lockExpires
  | liabilitiesReplaced (rows : List LiabilityRow)

/-- The world after an event. -/
def Event.apply (d : Deployment Address) (tenantID : String) (w : World Address) :
    Event → World Address
  | cycle requestKey input plan =>
      (Program.exec (faulty plan (handlePort d input)) (Cycle.run tenantID requestKey) w).2
  | lockExpires => { w with redis := releaseCycleLock tenantID w.redis }
  | liabilitiesReplaced rows => { w with db := { w.db with liabilities := rows } }

/-- The four stores agree: every entry of the registry has its row and its audit
entry, the cache holds the last id, and the next baseline is the last reserves. -/
structure Agree (tenantID : String) (tid : Uuid) (target : TenantContract)
    (log : List Publication) (w : World Address) : Prop where
  registry : Contract.Lists (w.registries target.contractID) (log.map Publication.entry)
  rows : (tenantProofs tid w.db).map ProofRow.facts = log.map Publication.facts
  audits : (tenantAudits tid w.db).map AuditRow.payload = log.map Publication.payload
  cached : getLatest tenantID w.redis =
    (log.getLast?.map fun p => toString p.chainID.val).getD ""
  baseline : latestReserves tenantID w.db =
    .ok ((log.getLast?.map fun p => fromNumeric p.pi.reservesTotal.val).getD "0")

/-- What holds between cycles, and what the next one does. -/
structure CycleHistory (d : Deployment Address) (tenantID : String) (tid : Uuid)
    (target : TenantContract) (log : List Publication) (w : World Address) : Prop
    extends Consistent tenantID tid target log w where
  baseline : latestReserves tenantID w.db = .ok (baselineOf log)
  agree : (∀ p ∈ log, p.stage = .audited) → Agree tenantID tid target log w
  cycle : ∀ requestKey input plan ended,
    Program.exec (faulty plan (handlePort d input)) (Cycle.run tenantID requestKey) w = ended →
    (Quiet w ended.2 ∧ ∃ err, ended.1 = .error err) ∨
      ∃ p, Consistent tenantID tid target (log ++ [p]) ended.2 ∧ p.requestKey = requestKey ∧
        (ended.1 = .ok () → p.stage = .audited)

section Histories

variable {d : Deployment Address} {tenantID : String} {tid : Uuid} {target : TenantContract}
  {log : List Publication} {w : World Address}

/-- A cycle that published adds one publication, complete if it returned nil. -/
theorem Consistent.of_published (consistent : Consistent tenantID tid target log w)
    (tenant : toUUID tenantID = .ok tid) {requestKey : String} {input : RunInput}
    {plan : FaultPlan} {ended : Result Unit × World Address} {later : World Address}
    (run : Published d input plan tenantID requestKey w (ended.1, later))
    (released : Quiet later ended.2) :
    ∃ p, Consistent tenantID tid target (log ++ [p]) ended.2 ∧ p.requestKey = requestKey ∧
      (ended.1 = .ok () → p.stage = .audited) := by
  have contract_eq : run.contract = target :=
    Except.ok.inj (run.prepared.resolved.symm.trans consistent.resolved)
  have publishes := run.publishes
  have recorded := run.recorded
  rw [contract_eq] at publishes recorded
  let p : Publication := ⟨requestKey, run.chainID, run.res.publicInputs, run.pi,
    input.ledgerTime, .published, publishes.denotes⟩
  have published : Consistent tenantID tid target (log ++ [p.at_ .published]) _ :=
    (consistent.of_quiet run.quiet).publish requestKey publishes
  obtain ⟨stage, reached, complete⟩ := recorded_of_exec recorded
  exact ⟨p.at_ stage, (published.recorded tenant rfl reached).of_quiet released, rfl, complete⟩

/-- One cycle adds nothing and fails, or adds one publication. -/
theorem Consistent.cycle (consistent : Consistent tenantID tid target log w)
    (tenant : toUUID tenantID = .ok tid) (requestKey : String) (input : RunInput)
    (plan : FaultPlan) {ended : Result Unit × World Address}
    (ran : Program.exec (faulty plan (handlePort d input)) (Cycle.run tenantID requestKey) w =
      ended) :
    (Quiet w ended.2 ∧ ∃ err, ended.1 = .error err) ∨
      ∃ p, Consistent tenantID tid target (log ++ [p]) ended.2 ∧ p.requestKey = requestKey ∧
        (ended.1 = .ok () → p.stage = .audited) := by
  rcases run_effect d input plan tenantID requestKey w ran with quiet | ⟨later, released, ⟨run⟩⟩
  · exact Or.inl quiet
  · exact Or.inr (consistent.of_published tenant run released)

theorem Consistent.apply (consistent : Consistent tenantID tid target log w)
    (tenant : toUUID tenantID = .ok tid) (event : Event) :
    ∃ log, Consistent tenantID tid target log (event.apply d tenantID w) := by
  cases event with
  | cycle requestKey input plan =>
      rcases consistent.cycle tenant requestKey input plan rfl with ⟨quiet, _⟩ | ⟨p, next, _⟩
      · exact ⟨log, consistent.of_quiet quiet⟩
      · exact ⟨log ++ [p], next⟩
  | lockExpires =>
      exact ⟨log, consistent.of_quiet { Quiet.refl w with
        latest := fun other =>
          Function.update_of_ne (latestKey_ne_lockKey other tenantID) none w.redis }⟩
  | liabilitiesReplaced rows => exact ⟨log, { consistent with }⟩

/-- Where every publication was recorded completely, the stores agree. -/
theorem Consistent.agree (consistent : Consistent tenantID tid target log w)
    (tenant : toUUID tenantID = .ok tid) (complete : ∀ p ∈ log, p.stage = .audited) :
    Agree tenantID tid target log w := by
  have all (test : Stage → Bool) (audited : test .audited) :
      (log.filter fun p => test p.stage) = log :=
    List.filter_eq_self.mpr fun p mem => by rw [complete p mem, audited]
  have saved : savedOf log = log := all Stage.isSaved rfl
  have cached : cachedOf log = log := all Stage.isCached rfl
  have audited : auditedOf log = log := all Stage.isAudited rfl
  refine ⟨consistent.registry, ?_, ?_, ?_, ?_⟩
  · rw [consistent.rows, saved]
  · rw [consistent.audits, audited]
  · rw [consistent.cached, cached]
  · rw [consistent.latestReserves_eq tenant, baselineOf, saved]
    cases log.getLast? <;> rfl

/-- From stores that are empty for the tenant, any sequence of cycles keeps the
stores in line with a log of publications. -/
theorem cycleHistory {start : World Address} {events : List Event}
    (tenant : toUUID tenantID = .ok tid) (empty : Consistent tenantID tid target [] start)
    (run : Run (ofFunction (Event.apply d tenantID)) start events w) :
    ∃ log, CycleHistory d tenantID tid target log w := by
  obtain ⟨log, consistent⟩ : ∃ log, Consistent tenantID tid target log w := by
    refine run.invariant
      (motive := fun reached => ∃ log, Consistent tenantID tid target log reached)
      ⟨[], empty⟩ fun source event next before step => ?_
    obtain ⟨log, consistent⟩ := before
    rw [ofFunction_iff] at step
    rw [step]
    exact consistent.apply tenant event
  exact ⟨log,
    { consistent with
      baseline := consistent.latestReserves_eq tenant
      agree := consistent.agree tenant
      cycle := fun requestKey input plan _ ran =>
        consistent.cycle tenant requestKey input plan ran }⟩

end Histories

/-! ## A sample tenant -/

def sampleTenant : Uuid :=
  BytesN.ofNat 16 1

def sampleTenantID : String :=
  "00000000-0000-0000-0000-000000000001"

def sampleContract : TenantContract :=
  ⟨"C1", "testnet"⟩

def sampleDeployment : Deployment Unit where
  hash4 := Prover.Poseidon2.poseidon2Perm4
  verifier _ _ _ := some true
  auth _ := true
  serde :=
    { encode := JsonText.serde.encode
      decode := fun _ => some (.bool true) }
  panicError := ""
  strkeyError _ := none
  rejection outcome :=
    match outcome with
    | .err .prevReservesMismatch => "HostError: Error(Contract, #6)"
    | _ => "HostError"

/-- One tenant with one customer, before its first cycle. -/
def sampleWorld : World Unit where
  redis _ := none
  db :=
    { tenants := [⟨sampleTenant, some "C1", "testnet"⟩]
      liabilities := [⟨sampleTenant, "0xab", 7⟩]
      proofs := []
      merkleTrees := []
      auditLog := []
      cycleRuns := []
      clock := 0
      proofs_primary := List.nodup_nil
      trees_unique := List.nodup_nil
      trees_reference := by simp
      cycleRuns_unique := List.nodup_nil
      timestamps_lt := by simp }
  registries _ :=
    { (Contract.Storage.empty : Contract.Storage Unit) with
      owner := some ()
      vk := some [1]
      latestId := some 0 }

theorem sampleWorld_consistent :
    Consistent sampleTenantID sampleTenant sampleContract [] sampleWorld where
  resolved := by decide +kernel
  registry := ⟨rfl, fun id => by simp [sampleWorld, Contract.Storage.empty]⟩
  ids := rfl
  rows := rfl
  sorted := List.Pairwise.nil
  trees _ mem := by cases mem
  audits := rfl
  cached := rfl

/-- A cycle over one reserve. -/
def sampleInput (balance : String) (rowID : Nat) : RunInput where
  snapshot := .ok ⟨sampleTenantID, [⟨"bank", balance, "EUR"⟩], "2026-01-01T00:00:00Z"⟩
  tools _ := .ok (List.replicate Contract.PROOF_BYTES 0)
  rowID := BytesN.ofNat 16 rowID
  ledgerTime := 100

/-- The plan under which `SaveProof` is refused. -/
def saveRefused : FaultPlan where
  at_ p := if p = .saveProof then some (.refused (.plain "connection refused")) else none
  publish_atomic := by simp

theorem cycleHistory_sample :
    ∃ log, CycleHistory sampleDeployment sampleTenantID sampleTenant sampleContract log
      ([.cycle "first" (sampleInput "12" 1) .none, .lockExpires,
        .cycle "second" (sampleInput "13" 2) saveRefused].foldl
          (Event.apply sampleDeployment sampleTenantID) sampleWorld) :=
  cycleHistory (by decide +kernel) sampleWorld_consistent ((run_ofFunction_iff _ _ _ _).mpr rfl)

/-- With `SaveProof` refused the run fails after the registry took its entry: no row
stands for it, and the next cycle is measured against nothing. -/
theorem cycle_not_atomic :
    let ended := Program.exec
      (faulty saveRefused (handlePort sampleDeployment (sampleInput "12" 1)))
      (Cycle.run sampleTenantID "first") sampleWorld
    ended.1 = .error (.wrap "save proof" (.plain "connection refused")) ∧
      (sampleWorld.registries "C1").latest = 0 ∧ (ended.2.registries "C1").latest = 1 ∧
        ((ended.2.registries "C1").proofs 1).map Contract.ProofMeta.r = some 12 ∧
          tenantProofs sampleTenant ended.2.db = [] ∧
            latestReserves sampleTenantID ended.2.db = .ok "0" := by
  decide +kernel

end Solva.Orchestrator
