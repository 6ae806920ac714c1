import Solva.Orchestrator.Consistency
import Solva.Orchestrator.CycleProtocol

/-!
# A request key runs at most once

The claim in `cycle_runs` alone decides which run of a request key goes on. The
lock plays no part in the argument: Redis may change in any way, every call may
fail before or after it took effect, and a run that crashes is one that never
makes its next call.
-/

namespace Solva.Orchestrator

open Bn254 Codec Transition

/-! ## The table of claims -/

section Claims

variable {Address : Type} {d : Deployment Address}

/-- A claim that answers looked its key up, and inserted it if it was free. -/
theorem claimCycle_eq_ok {tenantID requestKey : String} {db db' : Database} {granted : Bool}
    (answered : claimCycle tenantID requestKey db = (.ok granted, db')) :
    ∃ tid, toUUID tenantID = .ok tid ∧
      (granted = true → ⟨tid, requestKey⟩ ∉ db.cycleRuns ∧ ⟨tid, requestKey⟩ ∈ db'.cycleRuns) ∧
      (granted = false → ⟨tid, requestKey⟩ ∈ db.cycleRuns) := by
  unfold claimCycle at answered
  cases tenant : toUUID tenantID with
  | error err =>
      rw [tenant] at answered
      cases answered
  | ok tid =>
      rw [tenant] at answered
      dsimp only at answered
      split at answered
      · split at answered
        · rename_i taken
          cases answered
          exact ⟨tid, rfl, by simp, fun _ => taken⟩
        · rename_i free
          cases answered
          exact ⟨tid, rfl, fun _ => ⟨free, by simp⟩, by simp⟩
      · cases answered

/-- A claim leaves every row where it is and adds at most its own. -/
theorem cycleRuns_claimCycle (tenantID requestKey : String) (db : Database) :
    db.cycleRuns ⊆ (claimCycle tenantID requestKey db).2.cycleRuns ∧
      ∀ row ∈ (claimCycle tenantID requestKey db).2.cycleRuns, row ∈ db.cycleRuns ∨
        toUUID tenantID = .ok row.tenantID ∧ requestKey = row.requestKey := by
  unfold claimCycle
  cases toUUID tenantID with
  | error err => exact ⟨fun _ mem => mem, fun _ mem => .inl mem⟩
  | ok tid =>
      dsimp only
      split
      · split
        · exact ⟨fun _ mem => mem, fun _ mem => .inl mem⟩
        · refine ⟨fun _ mem => List.mem_append_left _ mem, fun row mem => ?_⟩
          rcases List.mem_append.mp mem with old | new
          · exact .inl old
          · rw [List.mem_singleton.mp new]
            exact .inr ⟨rfl, rfl⟩
      · exact ⟨fun _ mem => mem, fun _ mem => .inl mem⟩

/-- No other port writes to the table. -/
theorem cycleRuns_handlePort (input : RunInput) {c : PortCall} (other : c.port ≠ .claimCycle)
    (w : World Address) : (handlePort d input c w).2.db.cycleRuns = w.db.cycleRuns := by
  cases c with
  | claimCycle => exact absurd rfl other
  | saveSnapshot snap =>
      rcases saveSnapshot_cases snap w.db with ⟨tid, saved⟩ | ⟨err, failed⟩
      · rw [handlePort, onDatabase, saved]
      · rw [handlePort, onDatabase, failed]
  | publishProof target proof pub =>
      rcases publishAtomic_cases d input.ledgerTime target proof pub w with
        ⟨id, pi, _, published⟩ | ⟨err, failed⟩
      · rw [handlePort, published, World.db_published]
      · rw [handlePort, failed]
  | saveProof proof tree =>
      rcases saveProof_cases d.serde.decode input.rowID proof tree w.db with
        ⟨tid, r, l, parsed, fresh, _, _, _, _, inserted⟩ | ⟨err, failed⟩
      · rw [handlePort, onDatabase, inserted]
        rfl
      · rw [handlePort, onDatabase, failed]
  | appendAudit tenantID event payload =>
      rcases appendAudit_cases tenantID event payload w.db with ⟨tid, _, appended⟩ | ⟨err, failed⟩
      · rw [handlePort, onDatabase, appended]
      · rw [handlePort, onDatabase, failed]
  | _ => rfl

/-- Rows are never lost, and a new one is the caller's. -/
theorem PortStep.cycleRuns {c : PortCall} {w w' : World Address} {reply : PortReply c}
    (step : PortStep d c w reply w') :
    w.db.cycleRuns ⊆ w'.db.cycleRuns ∧
      ∀ row ∈ w'.db.cycleRuns, row ∈ w.db.cycleRuns ∨ ∃ tenantID,
        c = .claimCycle tenantID row.requestKey ∧ toUUID tenantID = .ok row.tenantID := by
  rcases step.world_eq with rfl | ⟨input, rfl⟩
  · exact ⟨fun _ mem => mem, fun _ mem => .inl mem⟩
  · by_cases claims : c.port = .claimCycle
    · cases c <;> simp only [PortCall.port, reduceCtorEq] at claims
      case claimCycle tenantID requestKey =>
        obtain ⟨kept, added⟩ := cycleRuns_claimCycle tenantID requestKey w.db
        refine ⟨kept, fun row mem => (added row mem).imp_right ?_⟩
        rintro ⟨tenant, rfl⟩
        exact ⟨tenantID, rfl, tenant⟩
    · rw [cycleRuns_handlePort input claims]
      exact ⟨fun _ mem => mem, fun _ mem => .inl mem⟩

end Claims

/-! ## Any number of runs -/

section Runs

variable {Address : Type} {ι : Type} {d : Deployment Address} {tenantID requestKey : ι → String}
  {w : World Address} {labels : List (Option (ι × Performed PortCall PortReply))}

/-- Anything may happen to the rest of the world between two calls, Redis included;
claims that Postgres stored stay as they are. -/
def KeepsClaims (w w' : World Address) : Prop :=
  w'.db.cycleRuns = w.db.cycleRuns

/-- Another run may be why a key is taken: a run of the same tenant and key that
made its claim. -/
def TakenBy (tenantID requestKey : ι → String)
    (labels : List (Option (ι × Performed PortCall PortReply))) (row : CycleRunRow) (j : ι) :
    Prop :=
  j ∈ callers isClaim labels ∧ toUUID (tenantID j) = .ok row.tenantID ∧
    requestKey j = row.requestKey

/-- The table of claims against the runs: a granted claim has its row, one row
grants one run, and a row or a denial has its origin. -/
structure ClaimsHeld (tenantID requestKey : ι → String) (start : World Address)
    (labels : List (Option (ι × Performed PortCall PortReply))) (positions : ι → Progress)
    (w : World Address) : Prop where
  row : ∀ i, (positions i).claimed = true →
    ∃ tid, toUUID (tenantID i) = .ok tid ∧ ⟨tid, requestKey i⟩ ∈ w.db.cycleRuns
  unique : ∀ i j, (positions i).claimed = true → (positions j).claimed = true →
    toUUID (tenantID i) = toUUID (tenantID j) → requestKey i = requestKey j → i = j
  origin : ∀ row ∈ w.db.cycleRuns, row ∈ start.db.cycleRuns ∨
    ∃ j, TakenBy tenantID requestKey labels row j
  denied : ∀ i ∈ callers isDenial labels, ∃ tid, toUUID (tenantID i) = .ok tid ∧
    (⟨tid, requestKey i⟩ ∈ start.db.cycleRuns ∨
      ∃ j, j ≠ i ∧ TakenBy tenantID requestKey labels ⟨tid, requestKey i⟩ j)

theorem TakenBy.mono {labels' : List (Option (ι × Performed PortCall PortReply))}
    {row : CycleRunRow} {j : ι} (taken : TakenBy tenantID requestKey labels row j)
    (longer : callers isClaim labels ⊆ callers isClaim labels') :
    TakenBy tenantID requestKey labels' row j :=
  ⟨longer taken.1, taken.2⟩

theorem callers_subset_concat (p : Performed PortCall PortReply → Bool)
    (labels : List (Option (ι × Performed PortCall PortReply)))
    (label : Option (ι × Performed PortCall PortReply)) :
    callers p labels ⊆ callers p (labels ++ [label]) := by
  intro i mem
  rw [callers, List.filterMap_append]
  exact List.mem_append_left _ mem

/-- Of the callers of one kind, at most one belongs to a group whose members are all
equal. -/
theorem length_filter_le_one {items : List ι} (nodup : items.Nodup) {group : ι → Bool}
    (equal : ∀ i ∈ items, ∀ j ∈ items, group i = true → group j = true → i = j) :
    (items.filter group).length ≤ 1 := by
  have nodup_filter := nodup.filter group
  rcases filtered : items.filter group with _ | ⟨i, _ | ⟨j, rest⟩⟩
  · simp
  · simp
  · have i_mem : i ∈ items.filter group := by simp [filtered]
    have j_mem : j ∈ items.filter group := by simp [filtered]
    rw [filtered] at nodup_filter
    rw [List.mem_filter] at i_mem j_mem
    have same := equal i i_mem.1 j j_mem.1 i_mem.2 j_mem.2
    subst same
    simp at nodup_filter

variable [DecidableEq ι]

/-- A run claims its own key. -/
theorem Moves.claim_eq {tenant key : String} {q q' : Progress} {c : PortCall} {reply : PortReply c}
    (moves : Moves tenant key q c reply q') (claims : isClaim ⟨c, reply⟩ = true) :
    c = .claimCycle tenant key := by
  cases moves with
  | prepared prepares | stopped prepares => simp [(prepares.kind _).2.2.1] at claims
  | granted | denied => rfl
  | _ => simp [isClaim, PortCall.port] at claims

/-- A grant means that the key was free, and takes it. -/
theorem granted_row {c : PortCall} {reply : PortReply c} {w' : World Address}
    {tenant key : String} {q q' : Progress} (moves : Moves tenant key q c reply q')
    (grant : isGrant ⟨c, reply⟩ = true) (step : PortStep d c w reply w') :
    ∃ tid, toUUID tenant = .ok tid ∧ ⟨tid, key⟩ ∉ w.db.cycleRuns ∧
      ⟨tid, key⟩ ∈ w'.db.cycleRuns := by
  cases moves with
  | granted =>
      obtain ⟨input, answered⟩ := step.ok
      obtain ⟨answer_eq, db_eq⟩ := Prod.mk.inj answered
      obtain ⟨tid, tenant_eq, taken, _⟩ := claimCycle_eq_ok (Prod.ext answer_eq rfl)
      rw [← db_eq]
      exact ⟨tid, tenant_eq, taken rfl⟩
  | denied denied =>
      rename_i reply
      rcases reply with err | _ | _
      · simp [isGrant] at grant
      · simp [isGrant] at grant
      · exact absurd rfl denied
  | prepared prepares | stopped prepares => simp [(prepares.kind _).1] at grant
  | _ => simp [isGrant] at grant

/-- A denial means that the key was taken. -/
theorem denied_row {c : PortCall} {reply : PortReply c} {w' : World Address}
    {tenant key : String} {q q' : Progress} (moves : Moves tenant key q c reply q')
    (denial : isDenial ⟨c, reply⟩ = true) (step : PortStep d c w reply w') :
    ∃ tid, toUUID tenant = .ok tid ∧ ⟨tid, key⟩ ∈ w.db.cycleRuns := by
  cases moves with
  | denied denied =>
      rename_i reply
      rcases reply with err | _ | _
      · simp [isDenial] at denial
      · obtain ⟨input, answered⟩ := step.ok
        obtain ⟨answer_eq, _⟩ := Prod.mk.inj answered
        obtain ⟨tid, tenant_eq, _, taken⟩ := claimCycle_eq_ok (Prod.ext answer_eq rfl)
        exact ⟨tid, tenant_eq, taken rfl⟩
      · exact absurd rfl denied
  | prepared prepares | stopped prepares => simp [(prepares.kind _).2.1] at denial
  | _ => simp [isDenial] at denial

/-- One call keeps the table and the runs in step. -/
theorem ClaimsHeld.step {start : World Address} {positions : ι → Progress} {w' : World Address}
    {i : ι} {c : PortCall} {reply : PortReply c} {q' : Progress}
    (held : ClaimsHeld tenantID requestKey start labels positions w)
    (moves : Moves (tenantID i) (requestKey i) (positions i) c reply q')
    (fresh : isClaim ⟨c, reply⟩ = true → i ∉ callers isClaim labels)
    (step : PortStep d c w reply w') :
    ClaimsHeld tenantID requestKey start (labels ++ [some (i, ⟨c, reply⟩)])
      (Function.update positions i q') w' := by
  obtain ⟨kept, added⟩ := step.cycleRuns
  have longer := callers_subset_concat isClaim labels (some (i, ⟨c, reply⟩))
  have granted (j : ι) (claimed : (Function.update positions i q' j).claimed = true) :
      (positions j).claimed = true ∨ j = i ∧ isGrant ⟨c, reply⟩ = true := by
    by_cases same : j = i
    · subst same
      rw [Function.update_self, moves.claimed_eq, Bool.or_eq_true] at claimed
      exact claimed.imp_right fun grant => ⟨rfl, grant⟩
    · rw [Function.update_of_ne same] at claimed
      exact .inl claimed
  -- a key that was free when `i` was granted it belongs to no other claimed run
  have alone (j : ι) (grant : isGrant ⟨c, reply⟩ = true) (claimed : (positions j).claimed = true)
      (tenant_eq : toUUID (tenantID j) = toUUID (tenantID i))
      (key_eq : requestKey j = requestKey i) : False := by
    obtain ⟨tid, tenant, free, _⟩ := granted_row moves grant step
    obtain ⟨other, other_tenant, row⟩ := held.row j claimed
    rw [tenant_eq, tenant, Except.ok.injEq] at other_tenant
    rw [← other_tenant, key_eq] at row
    exact free row
  refine ⟨?_, ?_, ?_, ?_⟩
  · intro j claimed
    rcases granted j claimed with before | ⟨rfl, grant⟩
    · obtain ⟨tid, tenant, row⟩ := held.row j before
      exact ⟨tid, tenant, kept row⟩
    · obtain ⟨tid, tenant, _, row⟩ := granted_row moves grant step
      exact ⟨tid, tenant, row⟩
  · intro j k j_claimed k_claimed tenant_eq key_eq
    rcases granted j j_claimed with j_before | ⟨rfl, grant⟩
    · rcases granted k k_claimed with k_before | ⟨rfl, grant⟩
      · exact held.unique j k j_before k_before tenant_eq key_eq
      · exact (alone j grant j_before tenant_eq key_eq).elim
    · rcases granted k k_claimed with k_before | ⟨rfl, _⟩
      · exact (alone k grant k_before tenant_eq.symm key_eq.symm).elim
      · rfl
  · intro row mem
    rcases added row mem with old | ⟨tenant, rfl, tenant_eq⟩
    · rcases held.origin row old with initial | ⟨j, taken⟩
      · exact .inl initial
      · exact .inr ⟨j, taken.mono longer⟩
    · obtain ⟨rfl, key_eq⟩ := PortCall.claimCycle.inj (moves.claim_eq rfl)
      refine .inr ⟨i, ?_, tenant_eq, key_eq.symm⟩
      rw [callers_concat, if_pos (show isClaim ⟨.claimCycle _ _, reply⟩ = true from rfl)]
      exact List.mem_append_right _ List.mem_cons_self
  · intro j mem
    rw [callers_concat] at mem
    have before (j_mem : j ∈ callers isDenial labels) := held.denied j j_mem
    split at mem
    · rename_i denial
      rcases List.mem_append.mp mem with old | now
      · obtain ⟨tid, tenant, taken⟩ := before old
        refine ⟨tid, tenant, taken.imp_right ?_⟩
        rintro ⟨k, other, taken⟩
        exact ⟨k, other, taken.mono longer⟩
      · obtain rfl := List.mem_singleton.mp now
        obtain ⟨tid, tenant, row⟩ := denied_row moves denial step
        refine ⟨tid, tenant, (held.origin _ row).imp_right ?_⟩
        rintro ⟨k, taken⟩
        have other : k ≠ j := by
          rintro rfl
          exact fresh (isClaim_of_isDenial denial) taken.1
        exact ⟨k, other, taken.mono longer⟩
    · obtain ⟨tid, tenant, taken⟩ := before mem
      refine ⟨tid, tenant, taken.imp_right ?_⟩
      rintro ⟨k, other, taken⟩
      exact ⟨k, other, taken.mono longer⟩

omit [DecidableEq ι] in
theorem ClaimsHeld.moved {start : World Address} {positions : ι → Progress} {w' : World Address}
    (held : ClaimsHeld tenantID requestKey start labels positions w) (kept : KeepsClaims w w') :
    ClaimsHeld tenantID requestKey start (labels ++ [none]) positions w' where
  row i claimed := by
    rw [kept]
    exact held.row i claimed
  unique := held.unique
  origin row mem := by
    rw [kept] at mem
    simpa only [TakenBy, callers_concat_env] using held.origin row mem
  denied i mem := by
    rw [callers_concat_env] at mem
    simpa only [TakenBy, callers_concat_env] using held.denied i mem

/-- A run that has not made its claim is in a phase before it. -/
theorem mem_claims_iff {later : (ι → Progress) × World Address}
    (run : Run (Protocol.Interleaved (cycleProtocols tenantID requestKey) (fun _ => PortStep d)
      KeepsClaims) (fun _ => Progress.start, w) labels later) {i : ι}
    (called : i ∈ callers isClaim labels) : (later.1 i).phase.isUnclaimed = false := by
  have flag := flag_of_mem_callers (fun q : Progress => !q.phase.isUnclaimed) run
    (fun _ _ _ reply allowed claims => by
      rw [((moves_of_allowed allowed reply).unclaimed_of_claim claims).2]
      rfl)
    (fun _ _ _ reply allowed past => by
      rw [(moves_of_allowed allowed reply).unclaimed_mono (by simpa using past)]
      rfl) called
  simpa using flag

/-- The table and the runs are in step in every state reached. -/
theorem claimsHeld_of_run {later : (ι → Progress) × World Address}
    (run : Run (Protocol.Interleaved (cycleProtocols tenantID requestKey) (fun _ => PortStep d)
      KeepsClaims) (fun _ => Progress.start, w) labels later) :
    ClaimsHeld tenantID requestKey w labels later.1 later.2 := by
  induction run with
  | nil =>
      exact ⟨by simp [Progress.start], by simp [Progress.start], fun _ mem => .inl mem, by simp⟩
  | @snoc labels middle target label before last ih =>
      cases last with
      | @thread positions shared next i c reply allowed acted =>
          have moves := moves_of_allowed allowed reply
          refine ih.step moves (fun claims called => ?_) acted
          have past := mem_claims_iff before called
          have phase := (moves.unclaimed_of_claim claims).1
          simp only [phase, Phase.isUnclaimed, reduceCtorEq] at past
      | env kept => exact ih.moved kept

/-- The runs of one tenant under one request key. -/
def sameKey (tenantID requestKey : ι → String) (tenant key : String) (i : ι) : Bool :=
  toUUID (tenantID i) = toUUID tenant ∧ requestKey i = key

/-- A request key runs at most once: one run of a tenant and key is granted the claim
and publishes, all others return an error and save nothing, and a run is denied its
claim only on account of its own tenant and key. -/
theorem requestKey_once (d : Deployment Address) (tenantID requestKey : ι → String)
    (w : World Address)
    {target : Pool ι PortCall PortReply (Result Unit) (World Address)}
    (run : Run (Pool.Interleaved (fun _ => PortStep d) KeepsClaims)
      (cyclePool tenantID requestKey w) labels target) :
    (∀ tenant key,
      ((callers isGrant labels).filter (sameKey tenantID requestKey tenant key)).length ≤ 1 ∧
      ((callers isPublish labels).filter (sameKey tenantID requestKey tenant key)).length ≤ 1) ∧
    (∀ i ∉ callers isGrant labels, i ∉ callers isPublish labels ∧ i ∉ callers isSave labels ∧
      ∀ result, target.threads i = .ret result → ∃ err, result = .error err) ∧
    ∀ i ∈ callers isDenial labels, ∃ tid, toUUID (tenantID i) = .ok tid ∧
      (⟨tid, requestKey i⟩ ∈ w.db.cycleRuns ∨
        ∃ j, j ≠ i ∧ TakenBy tenantID requestKey labels ⟨tid, requestKey i⟩ j) := by
  obtain ⟨positions, run, abstracts⟩ :=
    Protocol.exists_run (cyclePool_abstracts tenantID requestKey w) run
  have held := claimsHeld_of_run run
  have sound := sound_of_run run
  have published_claimed (i : ι) (called : i ∈ callers isPublish labels) :
      (positions i).claimed = true :=
    (sound i).attempted ((mem_publishes_iff run i).mp called)
  have group_unique (tenant key : String) (i j : ι) (i_claimed : (positions i).claimed = true)
      (j_claimed : (positions j).claimed = true)
      (i_same : sameKey tenantID requestKey tenant key i = true)
      (j_same : sameKey tenantID requestKey tenant key j = true) : i = j := by
    simp only [sameKey, decide_eq_true_eq] at i_same j_same
    exact held.unique i j i_claimed j_claimed (i_same.1.trans j_same.1.symm)
      (i_same.2.trans j_same.2.symm)
  refine ⟨fun tenant key => ⟨?_, ?_⟩, fun i ungranted => ?_, held.denied⟩
  · refine length_filter_le_one (nodup_grants run) fun i i_mem j j_mem => ?_
    exact group_unique tenant key i j ((mem_grants_iff run i).mp i_mem)
      ((mem_grants_iff run j).mp j_mem)
  · refine length_filter_le_one (nodup_publishes run) fun i i_mem j j_mem => ?_
    exact group_unique tenant key i j (published_claimed i i_mem) (published_claimed j j_mem)
  · have unclaimed : (positions i).claimed ≠ true := fun claimed =>
      ungranted ((mem_grants_iff run i).mpr claimed)
    refine ⟨fun called => unclaimed (published_claimed i called),
      fun called => unclaimed (claimed_of_mem_saves run called), fun result returned => ?_⟩
    have ended := abstracts i
    rw [returned] at ended
    obtain ⟨complete, phase, ok_iff⟩ := ended
    cases result with
    | error err => exact ⟨err, rfl⟩
    | ok _ =>
        obtain rfl := ok_iff.mp rfl
        exact absurd ((sound i).complete (.inr phase)) unclaimed

end Runs

/-! ## A replay across a Redis restart -/

/-- A turn of a run whose call is carried out. -/
def turn {ι : Type} (i : ι) : Pool.Turn ι PortCall PortReply (World Unit) :=
  .thread i (handlePort sampleDeployment (sampleInput "12" 1))

theorem turn_admitted {ι : Type} {env : World Unit → World Unit → Prop} (i : ι) :
    (turn i).Admitted (fun _ => PortStep sampleDeployment) env :=
  fun c w => .handled _ c w

/-- The lock is lost under the first run, and the second replays its key. -/
def replay : List (Pool.Turn (Fin 2) PortCall PortReply (World Unit)) :=
  List.replicate 3 (turn 0) ++ [.env fun w => { w with redis := fun _ => none }] ++
    List.replicate 3 (turn 1) ++ List.replicate 10 (turn 0)

def replayed : Pool (Fin 2) PortCall PortReply (Result Unit) (World Unit) ×
    List (Option (Fin 2 × Performed PortCall PortReply)) :=
  (cyclePool (fun _ => sampleTenantID) (fun _ => "first") sampleWorld).play replay

theorem replay_admitted : ∀ turn ∈ replay,
    turn.Admitted (fun _ => PortStep sampleDeployment) KeepsClaims := by
  intro played mem
  simp only [replay, List.mem_append, List.mem_singleton, List.mem_replicate] at mem
  rcases mem with ((⟨_, rfl⟩ | rfl) | ⟨_, rfl⟩) | ⟨_, rfl⟩
  · exact turn_admitted 0
  · exact fun _ => rfl
  · exact turn_admitted 1
  · exact turn_admitted 0

theorem requestKey_once_sample :
    ((callers isPublish replayed.2).filter (sameKey (fun _ => sampleTenantID) (fun _ => "first")
        sampleTenantID "first")).length ≤ 1 ∧
      1 ∉ callers isSave replayed.2 ∧
      (replayed.1.threads 0).result? = some (.ok ()) ∧
      (replayed.1.threads 1).result? = some (.error (.sentinel .duplicateCycle)) ∧
      ∃ j, j ≠ 1 ∧ TakenBy (fun _ => sampleTenantID) (fun _ => "first") replayed.2
        ⟨sampleTenant, "first"⟩ j := by
  obtain ⟨unique, ungranted, denied⟩ := requestKey_once sampleDeployment (fun _ => sampleTenantID)
    (fun _ => "first") sampleWorld (Pool.run_play (Pool.admits_of_admitted replay_admitted _))
  obtain ⟨_, unsaved, _⟩ := ungranted 1 (by decide +kernel)
  obtain ⟨tid, tenant, taken⟩ := denied 1 (by decide +kernel)
  have known : toUUID sampleTenantID = .ok sampleTenant := by decide +kernel
  rw [known, Except.ok.injEq] at tenant
  subst tenant
  refine ⟨(unique sampleTenantID "first").2, unsaved, by decide +kernel, by decide +kernel, ?_⟩
  exact taken.resolve_left List.not_mem_nil

end Solva.Orchestrator
