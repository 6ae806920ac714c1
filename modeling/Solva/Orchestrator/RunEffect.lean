import Solva.Orchestrator.Ports

/-!
# What one cycle does

A cycle is quiet up to its publish: it may leave a lock, a claimed key and a
snapshot behind, and nothing else. A publish that succeeded is followed by the
row, the cached id and the audit entry, in this order, up to the first call that
fails. Every invariant over runs is proved from this one case distinction.
-/

namespace Solva.Orchestrator

open Bn254 Codec Transition

variable {Address : Type}

/-! ## Quiet steps -/

/-- The entries a completed cycle appends. -/
def cycleAudits (db : Database) : List AuditRow :=
  db.auditLog.filter fun row => row.event = "proof_cycle"

/-- Nothing of what a publish leaves behind has changed, nor what cycles read. -/
structure Quiet (w w' : World Address) : Prop where
  registries : w'.registries = w.registries
  tenants : w'.db.tenants = w.db.tenants
  liabilities : w'.db.liabilities = w.db.liabilities
  proofs : w'.db.proofs = w.db.proofs
  merkleTrees : w'.db.merkleTrees = w.db.merkleTrees
  clock : w'.db.clock = w.db.clock
  audits : cycleAudits w'.db = cycleAudits w.db
  latest : ∀ tenantID, w'.redis (latestKey tenantID) = w.redis (latestKey tenantID)

theorem Quiet.refl (w : World Address) : Quiet w w :=
  ⟨rfl, rfl, rfl, rfl, rfl, rfl, rfl, fun _ => rfl⟩

theorem Quiet.trans {first second third : World Address} (left : Quiet first second)
    (right : Quiet second third) : Quiet first third where
  registries := right.registries.trans left.registries
  tenants := right.tenants.trans left.tenants
  liabilities := right.liabilities.trans left.liabilities
  proofs := right.proofs.trans left.proofs
  merkleTrees := right.merkleTrees.trans left.merkleTrees
  clock := right.clock.trans left.clock
  audits := right.audits.trans left.audits
  latest := fun tenantID => (right.latest tenantID).trans (left.latest tenantID)

/-- The ports that record a publish. -/
def Port.recording : Port → Bool
  | .publishProof | .saveProof | .setLatest | .appendAudit => true
  | _ => false

section Effects

variable {d : Deployment Address} {input : RunInput} {plan : FaultPlan}

/-- The other ports are quiet. -/
theorem quiet_handlePort {c : PortCall} (preparing : c.port.recording = false)
    (w : World Address) : Quiet w (handlePort d input c w).2 := by
  cases c with
  | acquireCycleLock tenantID =>
      refine { Quiet.refl w with latest := fun other => ?_ }
      dsimp only [handlePort, acquireCycleLock]
      split
      · rfl
      · exact Function.update_of_ne (latestKey_ne_lockKey other tenantID) (some "1") w.redis
  | releaseCycleLock tenantID =>
      exact { Quiet.refl w with
        latest := fun other =>
          Function.update_of_ne (latestKey_ne_lockKey other tenantID) none w.redis }
  | claimCycle tenantID requestKey =>
      rcases claimCycle_cases tenantID requestKey w.db with ⟨claims, unique, claimed⟩ |
        ⟨reply, _, failed⟩
      · dsimp only [handlePort, onDatabase]
        rw [claimed]
        exact { Quiet.refl w with }
      · dsimp only [handlePort, onDatabase]
        rw [failed]
        exact Quiet.refl w
  | saveSnapshot snap =>
      rcases saveSnapshot_cases snap w.db with ⟨tid, saved⟩ | ⟨err, failed⟩
      · dsimp only [handlePort, onDatabase]
        rw [saved]
        refine { Quiet.refl w with audits := ?_ }
        simp [cycleAudits]
      · dsimp only [handlePort, onDatabase]
        rw [failed]
        exact Quiet.refl w
  | fetchSigned => exact Quiet.refl w
  | loadLiabilities => exact Quiet.refl w
  | latestReserves => exact Quiet.refl w
  | prove => exact Quiet.refl w
  | resolveTenantContract => exact Quiet.refl w
  | publishProof => cases preparing
  | saveProof => cases preparing
  | setLatest => cases preparing
  | appendAudit => cases preparing

theorem quiet_faulty {c : PortCall} (preparing : c.port.recording = false)
    (w : World Address) : Quiet w (faulty plan (handlePort d input) c w).2 := by
  unfold faulty
  split
  · exact quiet_handlePort preparing w
  · exact Quiet.refl w
  · exact quiet_handlePort preparing w

/-- A call that succeeds under a plan succeeds without it. -/
theorem handle_of_faulty {σ : Type} {handle : (c : PortCall) → σ → PortReply c × σ}
    {c : PortCall} {value : c.Value} {state target : σ}
    (ok : faulty plan handle c state = (.ok value, target)) :
    handle c state = (.ok value, target) ∧ plan.at_ c.port = none := by
  unfold faulty at ok
  split at ok
  · rename_i planned
    exact ⟨ok, planned⟩
  · cases ok
  · cases ok

theorem exec_port {σ : Type} (handle : (c : PortCall) → σ → PortReply c × σ) (context : String)
    (c : PortCall) (state : σ) :
    Program.exec handle (port context c).run state =
      ((handle c state).1.mapError (.wrap context), (handle c state).2) :=
  rfl

theorem exec_port_eq_ok {σ : Type} {handle : (c : PortCall) → σ → PortReply c × σ}
    {context : String} {c : PortCall} {value : c.Value} {state target : σ} :
    Program.exec handle (port context c).run state = (.ok value, target) ↔
      handle c state = (.ok value, target) := by
  rw [exec_port]
  generalize handle c state = answer
  obtain ⟨err | reply, later⟩ := answer <;> simp [Except.mapError]

/-- A port followed by the rest: the rest runs on the port's value. -/
theorem exec_port_bind {σ α : Type} {handle : (c : PortCall) → σ → PortReply c × σ}
    (context : String) (c : PortCall) (next : c.Value → CycleM α) (state : σ) :
    Program.exec handle (port context c >>= next).run state =
      match handle c state with
      | (.ok value, later) => Program.exec handle (next value).run later
      | (.error err, later) => (.error (.wrap context err), later) := by
  rw [Program.exec_except_bind, exec_port]
  generalize handle c state = answer
  obtain ⟨err | value, later⟩ := answer <;> rfl

/-! ## Up to the publish -/

/-- What a cycle has gathered when it publishes, read from the world it found. -/
structure Prepared (d : Deployment Address) (input : RunInput) (tenantID : String)
    (w : World Address) (res : ProveResult) (contract : TenantContract) : Prop where
  gathered : ∃ snap liabilities latest prev,
    input.snapshot = .ok snap ∧ loadLiabilities tenantID w.db = .ok liabilities ∧
    latestReserves tenantID w.db = .ok latest ∧ effectivePrev latest snap.reserves = .ok prev ∧
    proverProve d input.tools snap.reserves liabilities prev = .ok res
  resolved : resolveTenantContract tenantID w.db = .ok contract

/-- What a cycle gathers it gathers without recording anything. -/
theorem prepare_calls (tenantID : String) :
    Program.AllCalls (fun c : PortCall => c.port.recording = false)
      (Cycle.prepare tenantID).run := by
  have one (context : String) {c : PortCall} (preparing : c.port.recording = false) :
      Program.AllCalls (fun c : PortCall => c.port.recording = false) (port context c).run :=
    ⟨preparing, fun _ => trivial⟩
  unfold Cycle.prepare
  refine (one _ rfl).except_bind fun snap => (one _ rfl).except_bind fun _ =>
    (one _ rfl).except_bind fun liabilities => (one _ rfl).except_bind fun latest =>
      Program.AllCalls.except_bind ?_ fun prev => (one _ rfl).except_bind fun res =>
        (one _ rfl).except_bind fun contract => ?_
  · cases effectivePrev latest snap.reserves <;> trivial
  · trivial

variable (d input plan) in
theorem prepare_quiet (tenantID : String) (w : World Address) :
    Quiet w (Program.exec (faulty plan (handlePort d input)) (Cycle.prepare tenantID).run w).2 :=
  (prepare_calls tenantID).related Quiet.refl (fun _ _ _ => Quiet.trans) fun _ _ preparing =>
    quiet_faulty preparing _

/-- Reads see the same rows on both sides of a quiet step. -/
theorem Quiet.loadLiabilities_eq {w w' : World Address} (quiet : Quiet w w') (tenantID : String) :
    loadLiabilities tenantID w'.db = loadLiabilities tenantID w.db := by
  simp only [loadLiabilities, quiet.liabilities]

theorem Quiet.latestReserves_eq {w w' : World Address} (quiet : Quiet w w') (tenantID : String) :
    latestReserves tenantID w'.db = latestReserves tenantID w.db := by
  simp only [latestReserves, newestProof, quiet.proofs]

theorem Quiet.resolve_eq {w w' : World Address} (quiet : Quiet w w') (tenantID : String) :
    resolveTenantContract tenantID w'.db = resolveTenantContract tenantID w.db := by
  simp only [resolveTenantContract, quiet.tenants]

/-- A cycle that reaches its publish has gathered its arguments from the world. -/
theorem prepared_of_exec {tenantID : String} {w later : World Address} {res : ProveResult}
    {contract : TenantContract}
    (ok : Program.exec (faulty plan (handlePort d input)) (Cycle.prepare tenantID).run w =
      (.ok (res, contract), later)) : Prepared d input tenantID w res contract := by
  have reply {context : String} {c : PortCall} {value : c.Value} {before after : World Address}
      (called : Program.exec (faulty plan (handlePort d input)) (port context c).run before =
        (.ok value, after)) : handlePort d input c before = (.ok value, after) :=
    (handle_of_faulty (exec_port_eq_ok.mp called)).1
  have lifted {result : Result String} {value : String} {before after : World Address}
      (ran : Program.exec (faulty plan (handlePort d input)) (result : CycleM String).run before =
        (.ok value, after)) : result = .ok value ∧ after = before := by
    cases result with
    | error err => cases ran
    | ok found =>
        cases ran
        exact ⟨rfl, rfl⟩
  simp only [Cycle.prepare, Program.exec_except_bind_eq_ok] at ok
  obtain ⟨snap, _, fetched, _, saved, stored, liabilities, _, loaded, latest, _, read, prev, _,
    previous, _, _, proved, _, _, resolved, returned⟩ := ok
  cases returned
  obtain ⟨snapshot_eq, rfl⟩ : input.snapshot = .ok snap ∧ w = _ := Prod.mk.inj (reply fetched)
  have quiet : Quiet w saved := by
    have same : (handlePort d input (.saveSnapshot snap) w).2 = saved :=
      congrArg Prod.snd (reply stored)
    rw [← same]
    exact quiet_handlePort rfl w
  obtain ⟨liabilities_eq, rfl⟩ : loadLiabilities tenantID saved.db = .ok liabilities ∧ saved = _ :=
    Prod.mk.inj (reply loaded)
  obtain ⟨latest_eq, rfl⟩ : latestReserves tenantID saved.db = .ok latest ∧ saved = _ :=
    Prod.mk.inj (reply read)
  obtain ⟨prev_eq, rfl⟩ := lifted previous
  obtain ⟨res_eq, rfl⟩ : proverProve d input.tools snap.reserves liabilities prev = .ok res ∧ _ :=
    Prod.mk.inj (reply proved)
  have contract_eq : resolveTenantContract tenantID _ = .ok contract :=
    congrArg Prod.fst (reply resolved)
  rw [quiet.loadLiabilities_eq] at liabilities_eq
  rw [quiet.latestReserves_eq] at latest_eq
  rw [quiet.resolve_eq] at contract_eq
  exact ⟨⟨snap, liabilities, latest, prev, snapshot_eq, liabilities_eq, latest_eq, prev_eq,
    res_eq⟩, contract_eq⟩

/-- What is gathered after a quiet step could have been gathered before it. -/
theorem Prepared.of_quiet {tenantID : String} {w w' : World Address} {res : ProveResult}
    {contract : TenantContract} (quiet : Quiet w w')
    (prepared : Prepared d input tenantID w' res contract) :
    Prepared d input tenantID w res contract := by
  obtain ⟨gathered, resolved⟩ := prepared
  rw [quiet.loadLiabilities_eq, quiet.latestReserves_eq] at gathered
  rw [quiet.resolve_eq] at resolved
  exact ⟨gathered, resolved⟩

/-! ## The publish -/

/-- The world after the registry of a contract recorded a proof. -/
def World.published (w : World Address) (contractID : String) (env : Contract.Env Address)
    (id : U64) (pi : Contract.PubInputs) : World Address :=
  { w with
    registries := Function.update w.registries contractID
      (Contract.record env id pi (w.registries contractID)) }

@[simp]
theorem World.db_published (w : World Address) (contractID : String) (env : Contract.Env Address)
    (id : U64) (pi : Contract.PubInputs) : (w.published contractID env id pi).db = w.db :=
  rfl

@[simp]
theorem World.redis_published (w : World Address) (contractID : String)
    (env : Contract.Env Address) (id : U64) (pi : Contract.PubInputs) :
    (w.published contractID env id pi).redis = w.redis :=
  rfl

theorem World.registries_published (w : World Address) (contractID : String)
    (env : Contract.Env Address) (id : U64) (pi : Contract.PubInputs) :
    (w.published contractID env id pi).registries = Function.update w.registries contractID
      (Contract.record env id pi (w.registries contractID)) :=
  rfl

/-- The contract accepted the inputs that the texts denote, under the next id. -/
structure Publishes (d : Deployment Address) (ledgerTime : U64) (target : TenantContract)
    (proof : List UInt8) (pub : PublicInputs) (w : World Address) (id : U64)
    (pi : Contract.PubInputs) : Prop where
  denotes : Stellar.Denotes pub pi
  accepted : Contract.Accepted d.verifier ⟨d.auth, ledgerTime⟩ proof pi
    (w.registries target.contractID)
  id_eq : id.val = (w.registries target.contractID).latest.val + 1

/-- Publishing records one proof and returns its id, or changes nothing. -/
theorem publishAtomic_cases (d : Deployment Address) (ledgerTime : U64)
    (target : TenantContract) (proof : List UInt8) (pub : PublicInputs) (w : World Address) :
    (∃ id pi, Publishes d ledgerTime target proof pub w id pi ∧
        publishAtomic d ledgerTime target proof pub w =
          (.ok id, w.published target.contractID ⟨d.auth, ledgerTime⟩ id pi)) ∨
      ∃ err, publishAtomic d ledgerTime target proof pub w = (.error err, w) := by
  unfold publishAtomic
  split
  · exact Or.inr ⟨_, rfl⟩
  cases encoded : Stellar.encodePubInputs pub with
  | error err => exact Or.inr ⟨_, rfl⟩
  | ok map =>
  cases strkey : d.strkeyError target.contractID with
  | some text => exact Or.inr ⟨_, rfl⟩
  | none =>
      obtain ⟨pi, read, denotes⟩ := Stellar.readPubInputs_of_encode encoded
      simp only [read]
      rcases Contract.publishProof_cases d.verifier ⟨d.auth, ledgerTime⟩ proof pi
        (w.registries target.contractID) with ⟨id, published⟩ | ⟨failed, _⟩
      · obtain ⟨accepted, id_eq, _⟩ := Contract.publishProof_eq_ok_iff.mp published
        refine Or.inl ⟨id, pi, ⟨denotes, accepted, id_eq⟩, ?_⟩
        simp only [published]
        rfl
      · right
        split
        · rename_i id ok
          exact absurd ok (failed id)
        · exact ⟨_, rfl⟩

variable (d input plan) in
/-- So does publishing under a plan. -/
theorem faulty_publish_cases (target : TenantContract) (proof : List UInt8) (pub : PublicInputs)
    (w : World Address) :
    (∃ id pi, Publishes d input.ledgerTime target proof pub w id pi ∧
        faulty plan (handlePort d input) (.publishProof target proof pub) w =
          (.ok id, w.published target.contractID ⟨d.auth, input.ledgerTime⟩ id pi)) ∨
      ∃ err, faulty plan (handlePort d input) (.publishProof target proof pub) w =
        (.error err, w) := by
  unfold faulty
  split
  · exact publishAtomic_cases d input.ledgerTime target proof pub w
  · exact Or.inr ⟨_, rfl⟩
  · rename_i err planned
    exact absurd planned (plan.publish_atomic err)

/-! ## A whole cycle -/

/-- A cycle that published: what it gathered, what the contract accepted, and the
recording that followed. `ended` is how the recording ends. -/
structure Published (d : Deployment Address) (input : RunInput) (plan : FaultPlan)
    (tenantID requestKey : String) (w : World Address) (ended : Result Unit × World Address) where
  before : World Address
  res : ProveResult
  contract : TenantContract
  chainID : U64
  pi : Contract.PubInputs
  quiet : Quiet w before
  prepared : Prepared d input tenantID w res contract
  publishes : Publishes d input.ledgerTime contract res.proof res.publicInputs before chainID pi
  recorded : Program.exec (faulty plan (handlePort d input))
    (Cycle.recordPublished tenantID requestKey res chainID).run
    (before.published contract.contractID ⟨d.auth, input.ledgerTime⟩ chainID pi) = ended

/-- A claimed cycle is quiet and fails, or publishes. -/
theorem runClaimed_effect (d : Deployment Address) (input : RunInput) (plan : FaultPlan)
    (tenantID requestKey : String) (w : World Address) {ended : Result Unit × World Address}
    (ran : Program.exec (faulty plan (handlePort d input))
      (Cycle.runClaimed tenantID requestKey).run w = ended) :
    (Quiet w ended.2 ∧ ∃ err, ended.1 = .error err) ∨
      Nonempty (Published d input plan tenantID requestKey w ended) := by
  have quiet := prepare_quiet d input plan tenantID w
  rw [Cycle.runClaimed, Program.exec_except_bind] at ran
  cases gathered :
      Program.exec (faulty plan (handlePort d input)) (Cycle.prepare tenantID).run w with
  | mk reply before =>
  rw [gathered] at ran quiet
  cases reply with
  | error err =>
      subst ran
      exact Or.inl ⟨quiet, err, rfl⟩
  | ok found =>
  obtain ⟨res, contract⟩ := found
  have prepared := prepared_of_exec gathered
  dsimp only at ran
  rw [exec_port_bind] at ran
  rcases faulty_publish_cases d input plan contract res.proof res.publicInputs before with
    ⟨chainID, pi, publishes, published⟩ | ⟨err, failed⟩
  · rw [published] at ran
    exact Or.inr ⟨⟨before, res, contract, chainID, pi, quiet, prepared, publishes, ran⟩⟩
  · rw [failed] at ran
    subst ran
    exact Or.inl ⟨quiet, _, rfl⟩

/-- Under the lock a cycle is quiet and fails, or publishes. -/
theorem runLocked_effect (d : Deployment Address) (input : RunInput) (plan : FaultPlan)
    (tenantID requestKey : String) (w : World Address) {ended : Result Unit × World Address}
    (ran : Program.exec (faulty plan (handlePort d input))
      (Cycle.runLocked tenantID requestKey).run w = ended) :
    (Quiet w ended.2 ∧ ∃ err, ended.1 = .error err) ∨
      Nonempty (Published d input plan tenantID requestKey w ended) := by
  have quiet : Quiet w (faulty plan (handlePort d input)
      (.claimCycle tenantID requestKey) w).2 := quiet_faulty rfl w
  rw [Cycle.runLocked, exec_port_bind] at ran
  generalize faulty plan (handlePort d input) (.claimCycle tenantID requestKey) w =
    answer at ran quiet
  obtain ⟨err | claimed, w₁⟩ := answer
  case error =>
    subst ran
    exact Or.inl ⟨quiet, _, rfl⟩
  case ok =>
    cases claimed with
    | false =>
        subst ran
        exact Or.inl ⟨quiet, _, rfl⟩
    | true =>
        rcases runClaimed_effect d input plan tenantID requestKey w₁ ran with
          ⟨rest, failed⟩ | ⟨⟨published⟩⟩
        · exact Or.inl ⟨quiet.trans rest, failed⟩
        · exact Or.inr ⟨{ published with
            quiet := quiet.trans published.quiet
            prepared := published.prepared.of_quiet quiet }⟩

/-- A cycle is quiet and fails, or publishes; the release is quiet. -/
theorem run_effect (d : Deployment Address) (input : RunInput) (plan : FaultPlan)
    (tenantID requestKey : String) (w : World Address) {ended : Result Unit × World Address}
    (ran : Program.exec (faulty plan (handlePort d input)) (Cycle.run tenantID requestKey) w =
      ended) :
    (Quiet w ended.2 ∧ ∃ err, ended.1 = .error err) ∨
      ∃ later, Quiet later ended.2 ∧
        Nonempty (Published d input plan tenantID requestKey w (ended.1, later)) := by
  have quiet : Quiet w (faulty plan (handlePort d input) (.acquireCycleLock tenantID) w).2 :=
    quiet_faulty rfl w
  rw [Cycle.run, Program.exec_bind] at ran
  have called : Program.exec (faulty plan (handlePort d input))
      (Program.perform (PortCall.acquireCycleLock tenantID)) w =
        faulty plan (handlePort d input) (.acquireCycleLock tenantID) w := rfl
  rw [called] at ran
  generalize faulty plan (handlePort d input) (.acquireCycleLock tenantID) w =
    answer at ran quiet
  obtain ⟨err | acquired, w₁⟩ := answer
  case error =>
    subst ran
    exact Or.inl ⟨quiet, _, rfl⟩
  case ok =>
    cases acquired with
    | false =>
        subst ran
        exact Or.inl ⟨quiet, _, rfl⟩
    | true =>
        dsimp only at ran
        rw [Program.exec_bind] at ran
        generalize locked : Program.exec (faulty plan (handlePort d input))
          (Cycle.runLocked tenantID requestKey).run w₁ = inside at ran
        have released : Quiet inside.2
            (faulty plan (handlePort d input) (.releaseCycleLock tenantID) inside.2).2 :=
          quiet_faulty rfl inside.2
        have ended_eq : ended = (inside.1,
            (faulty plan (handlePort d input) (.releaseCycleLock tenantID) inside.2).2) := ran.symm
        subst ended_eq
        rcases runLocked_effect d input plan tenantID requestKey w₁ locked with
          ⟨rest, failed⟩ | ⟨⟨published⟩⟩
        · exact Or.inl ⟨(quiet.trans rest).trans released, failed⟩
        · exact Or.inr ⟨inside.2, released, ⟨{ published with
            quiet := quiet.trans published.quiet
            prepared := published.prepared.of_quiet quiet }⟩⟩

end Effects

end Solva.Orchestrator
