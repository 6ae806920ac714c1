import Solva.Orchestrator.Consistency

/-!
# The growth baseline

The orchestrator and the contract decide separately what the previous reserves are:
the orchestrator from the text of the last saved reserves, the contract from its
counter. After any history without failures they agree, unless the last published
reserves are zero, which the orchestrator takes for no proof at all.
-/

namespace Solva.Orchestrator

open Bn254 Codec Transition

/-! ## The totals of a proof -/

/-- What the service reads as unsigned behind a plus sign is what Go reads. -/
theorem signed?_of_stripPlus {text : List Char} {n : Nat}
    (read : Decimal.unsigned? (Prover.stripPlus text) = some n) :
    Decimal.signed? text = some (n : Int) := by
  unfold Prover.stripPlus at read
  split at read
  · rw [Decimal.signed?, read]
    rfl
  · exact Decimal.signed?_of_unsigned? read

/-- Go's total of the balances is that of the figures the service read. -/
theorem addReserves_of_parsed {reserves : List Reserve} {figures : List U128} (total : Int)
    (parsed : List.Forall₂ (fun (r : Reserve) figure =>
      Prover.parseAmount "reserve balance" r.balance = .ok figure) reserves figures) :
    addReserves total reserves = .ok (total + (figures.map Fin.val).sum) := by
  induction parsed generalizing total with
  | nil => simp [addReserves]
  | @cons r figure _ _ first _ ih =>
      rw [addReserves, signed?_of_stripPlus (Prover.parseAmount_eq_ok first).2]
      dsimp only
      rw [ih, List.map_cons, List.sum_cons]
      congr 1
      push_cast
      omega

/-- The totals behind a result of the prover. -/
structure Totals (serde : JsonLink) (reserves : List Reserve) (prev : String) (res : ProveResult)
    (r l p : U128) : Prop where
  reserves_text : res.publicInputs.reservesTotal = toString r.val
  liabilities_text : res.publicInputs.liabilitiesTotal = toString l.val
  prev_text : res.publicInputs.prevReserves = toString p.val
  reserves_sum : addReserves 0 reserves = .ok (r.val : Int)
  prev_read : Decimal.unsigned? (Prover.stripPlus prev.toList) = some p.val
  covered : l.val ≤ r.val
  bounded : r.val < numericLimit
  tree_written : ∃ tree : Prover.SerializedTree, res.serializedTree = serde.encode tree.toJson

/-- A validated witness has at most four figures of 64 bits. -/
theorem assets_lt {w : Prover.Witness} (validated : w.Validated) : w.assets < numericLimit := by
  have bounded : ∀ figure ∈ w.reserves.map Fin.val, figure ≤ 2 ^ 64 := by
    intro figure mem
    obtain ⟨amount, amount_mem, rfl⟩ := List.mem_map.mp mem
    exact Nat.le_of_lt (validated.reserves_u64 amount amount_mem)
  calc w.assets ≤ w.reserves.length * 2 ^ 64 := by
        simpa [Prover.Witness.assets] using List.sum_le_card_nsmul _ _ bounded
    _ ≤ Prover.M * 2 ^ 64 := Nat.mul_le_mul_right _ validated.reserves_le
    _ < numericLimit := by decide

theorem totals_of_proved {Address : Type} {d : Deployment Address} {tools : Prover.Tools}
    {reserves : List Reserve} {liabilities : List Liability} {prev : String} {res : ProveResult}
    (proved : proverProve d tools reserves liabilities prev = .ok res) :
    ∃ r l p, Totals d.serde reserves prev res r l p := by
  unfold proverProve Prover.serviceProve at proved
  cases validated : Prover.validate (buildRequest reserves liabilities prev) with
  | error status =>
      simp only [validated] at proved
      split at proved <;> cases proved
  | ok w =>
  cases bundled : Prover.prove d.hash4 tools w with
  | none => simp [validated, bundled] at proved
  | some bundle? =>
  cases bundle? with
  | error err =>
      simp only [validated, bundled, Option.map_some, Except.mapError, Except.map] at proved
      split at proved <;> cases proved
  | ok bundle =>
      obtain ⟨assembled, proof, accepted, _, rfl⟩ := Prover.exists_assembled_of_prove bundled
      obtain ⟨_, liabilities_eq, assets_eq, covered, _⟩ := Prover.assemble_eq_ok_iff.mp accepted
      obtain ⟨_, _, figures, prev_read, _⟩ := Prover.validate_eq_ok validated
      simp only [validated, bundled, Option.map_some, Except.mapError, Except.map,
        Prover.ProofBundle.toResponse, Except.ok.injEq] at proved
      subst proved
      refine ⟨assembled.reservesTotal, assembled.liabilitiesTotal, w.prevReserves, rfl, rfl, rfl,
        ?_, (Prover.parseAmount_eq_ok prev_read).2, ?_, ?_, assembled.serializedTree, rfl⟩
      · rw [buildRequest, List.forall₂_map_left_iff] at figures
        rw [addReserves_of_parsed 0 figures, Int.zero_add, ← assets_eq]
        rfl
      · omega
      · rw [← assets_eq]
        exact assets_lt (Prover.validated_of_validate validated)

/-- The inputs the contract reads are the totals. -/
theorem Totals.eq_of_denotes {serde : JsonLink} {reserves : List Reserve} {prev : String}
    {res : ProveResult} {r l p : U128} {pi : Contract.PubInputs}
    (totals : Totals serde reserves prev res r l p)
    (denotes : Stellar.Denotes res.publicInputs pi) :
    pi.reservesTotal = r ∧ pi.liabilitiesTotal = l ∧ pi.prevReserves = p := by
  have amount {text : String} {total value : U128} (text_eq : text = toString total.val)
      (read : Decimal.signed? text.toList = some (value.val : Int)) : value = total := by
    rw [text_eq, show toString total.val = total.val.repr from rfl, Decimal.signed?_repr,
      Option.some.injEq] at read
    exact Fin.ext (by omega)
  exact ⟨amount totals.reserves_text denotes.reserves,
    amount totals.liabilities_text denotes.liabilities, amount totals.prev_text denotes.prev⟩

/-! ## What a cycle sends -/

section Sends

variable {Address : Type} {d : Deployment Address} {tenantID : String} {w : World Address}
  {pi : Contract.PubInputs}

/-- A cycle that starts in this world reaches its publish with these inputs. -/
def Sends (d : Deployment Address) (tenantID : String) (w : World Address)
    (pi : Contract.PubInputs) : Prop :=
  ∃ input res contract, Prepared d input tenantID w res contract ∧
    Stellar.Denotes res.publicInputs pi

/-- A number's text is genesis exactly for zero. -/
theorem isGenesisReserves_toString (n : Nat) : isGenesisReserves (toString n) = true ↔ n = 0 := by
  simp [isGenesisReserves]

/-- The text of a number is read back behind the optional plus sign. -/
theorem stripPlus_toString {n v : Nat}
    (read : Decimal.unsigned? (Prover.stripPlus (toString n).toList) = some v) : v = n := by
  have signed := signed?_of_stripPlus read
  rw [show toString n = n.repr from rfl, Decimal.signed?_repr, Option.some.injEq] at signed
  omega

/-- At genesis a cycle sends its own total, later the latest reserves. -/
theorem prev_of_sends {n : Nat} (latest : latestReserves tenantID w.db = .ok (toString n))
    (sends : Sends d tenantID w pi) :
    pi.prevReserves.val = if n = 0 then pi.reservesTotal.val else n := by
  obtain ⟨input, res, contract, prepared, denotes⟩ := sends
  obtain ⟨snap, liabilities, found, prev, _, _, found_eq, prev_eq, proved⟩ := prepared.gathered
  obtain rfl : toString n = found := Except.ok.inj (latest.symm.trans found_eq)
  obtain ⟨r, l, p, totals⟩ := totals_of_proved proved
  obtain ⟨rfl, _, rfl⟩ := totals.eq_of_denotes denotes
  have read := totals.prev_read
  unfold effectivePrev at prev_eq
  by_cases zero : n = 0
  · rw [if_pos ((isGenesisReserves_toString n).mpr zero), sumReserves, totals.reserves_sum]
      at prev_eq
    obtain rfl : toString pi.reservesTotal.val = prev := Except.ok.inj prev_eq
    rw [if_pos zero]
    exact stripPlus_toString read
  · rw [if_neg (fun genesis => zero ((isGenesisReserves_toString n).mp genesis))] at prev_eq
    obtain rfl : toString n = prev := Except.ok.inj prev_eq
    rw [if_neg zero]
    exact stripPlus_toString read

end Sends

/-! ## Histories without failures -/

section FailureFree

variable {Address : Type} {d : Deployment Address} {tenantID : String} {tid : Uuid}
  {target : TenantContract} {log : List Publication} {w : World Address}

/-- No call of a cycle fails on its own account, and its row id is new. -/
def FailureFree : Step (World Address) Event := fun w event _ =>
  match event with
  | .cycle _ input plan => plan = .none ∧ input.rowID ∉ w.db.proofs.map ProofRow.id
  | _ => True

theorem faulty_none {σ : Type} (handle : (c : PortCall) → σ → PortReply c × σ) :
    faulty .none handle = handle :=
  rfl

theorem hasTenant_of_resolve {db : Database} (tenant : toUUID tenantID = .ok tid)
    (resolved : resolveTenantContract tenantID db = .ok target) : db.hasTenant tid := by
  unfold resolveTenantContract at resolved
  simp only [tenant] at resolved
  split at resolved
  · cases resolved
  · rename_i row found
    have same : decide (row.id = tid) = true :=
      List.find?_some (p := fun row : TenantRow => decide (row.id = tid)) found
    exact List.any_eq_true.mpr ⟨row, List.mem_of_find?_eq_some found, same⟩

theorem toNumeric_toString (n : Nat) : toNumeric (toString n) = .ok (n : Int) := by
  have read : Decimal.signed? (toString n).toList = some (n : Int) := Decimal.signed?_repr n
  rw [toNumeric, read]

/-- Without failures the recording of a publish is complete. -/
theorem recordPublished_eq_ok {input : RunInput} {requestKey : String} {res : ProveResult}
    {chainID : U64} {reserves : List Reserve} {prev : String} {r l p : U128}
    (tenant : toUUID tenantID = .ok tid) (known : w.db.hasTenant tid)
    (totals : Totals d.serde reserves prev res r l p)
    (reads : ∀ tree : Prover.SerializedTree, (d.serde.decode (d.serde.encode tree.toJson)).isSome)
    (fresh : input.rowID ∉ w.db.proofs.map ProofRow.id) :
    (Program.exec (faulty .none (handlePort d input))
      (Cycle.recordPublished tenantID requestKey res chainID).run w).1 = .ok () := by
  obtain ⟨tree, written⟩ := totals.tree_written
  obtain ⟨json, parsed⟩ := Option.isSome_iff_exists.mp (reads tree)
  rw [← written] at parsed
  have covered := totals.covered
  have bounded := totals.bounded
  have reserves_read :
      toNumeric (cycleProof tenantID chainID res).reservesTotal = .ok (r.val : Int) := by
    rw [cycleProof, totals.reserves_text, toNumeric_toString]
  have liabilities_read :
      toNumeric (cycleProof tenantID chainID res).liabilitiesTotal = .ok (l.val : Int) := by
    rw [cycleProof, totals.liabilities_text, toNumeric_toString]
  have saved := saveProof_eq_ok tenant known reserves_read liabilities_read (by omega) (by omega)
    fresh parsed
  rw [faulty_none, Cycle.recordPublished, exec_port_bind, handlePort, onDatabase, saved]
  dsimp only
  rw [exec_port_bind, handlePort]
  dsimp only
  rw [exec_port, handlePort, onDatabase, appendAudit, tenant]
  dsimp only
  rw [createAuditLog, if_pos]
  · rfl
  · exact known

/-- Without failures every publication is recorded completely. -/
theorem complete_apply (consistent : Consistent tenantID tid target log w)
    (tenant : toUUID tenantID = .ok tid)
    (reads : ∀ tree : Prover.SerializedTree, (d.serde.decode (d.serde.encode tree.toJson)).isSome)
    (complete : ∀ p ∈ log, p.stage = .audited) {event : Event} {next : World Address}
    (failureFree : FailureFree w event next) :
    ∃ log, Consistent tenantID tid target log (event.apply d tenantID w) ∧
      ∀ p ∈ log, p.stage = .audited := by
  cases event with
  | cycle requestKey input plan =>
      obtain ⟨rfl, fresh⟩ := failureFree
      rcases run_effect d input .none tenantID requestKey w rfl with
        ⟨quiet, _⟩ | ⟨later, released, ⟨run⟩⟩
      · exact ⟨log, consistent.of_quiet quiet, complete⟩
      · obtain ⟨snap, liabilities, latest, prev, _, _, _, _, proved⟩ := run.prepared.gathered
        obtain ⟨r, l, p, totals⟩ := totals_of_proved proved
        have known : run.before.db.hasTenant tid :=
          hasTenant_of_resolve tenant ((run.quiet.resolve_eq tenantID).trans consistent.resolved)
        have returned := (congrArg Prod.fst run.recorded).symm.trans
          (recordPublished_eq_ok tenant known totals reads
            (by simpa only [World.db_published, run.quiet.proofs] using fresh))
        obtain ⟨p, added, _, stage_eq⟩ := consistent.of_published tenant run released
        refine ⟨log ++ [p], added, fun q mem => ?_⟩
        rcases List.mem_append.mp mem with old | new
        · exact complete q old
        · rw [List.mem_singleton.mp new]
          exact stage_eq returned
  | lockExpires =>
      exact ⟨log, consistent.of_quiet { Quiet.refl w with
        latest := fun other =>
          Function.update_of_ne (latestKey_ne_lockKey other tenantID) none w.redis }, complete⟩
  | liabilitiesReplaced rows => exact ⟨log, { consistent with }, complete⟩

/-! ## Agreement -/

/-- The two decisions agree: whatever a cycle sends next is the value that the
contract expects, it is not answered with a mismatch, and the text of the latest
reserves stands for genesis exactly before the first publish. -/
structure BaselineAgrees (d : Deployment Address) (tenantID : String) (target : TenantContract)
    (w : World Address) : Prop where
  expected : ∀ pi, Sends d tenantID w pi →
    Contract.expectedPrev (w.registries target.contractID) pi.reservesTotal = some pi.prevReserves
  accepted : ∀ pi, Sends d tenantID w pi → ∀ env proof,
    (Contract.publishProof d.verifier env proof pi (w.registries target.contractID)).1 ≠
      .err .prevReservesMismatch
  genesis : ∀ latest, latestReserves tenantID w.db = .ok latest →
    (isGenesisReserves latest = true ↔ (w.registries target.contractID).latest = 0)

/-- Where both read the same last reserves, they agree exactly when zero reserves and
no proof coincide. -/
theorem baselineAgrees_iff_genesis {n : Nat}
    (latest : latestReserves tenantID w.db = .ok (toString n))
    (last : (w.registries target.contractID).latest ≠ 0 → ∃ entry,
      (w.registries target.contractID).proofs (w.registries target.contractID).latest =
        some entry ∧ entry.r.val = n) :
    BaselineAgrees d tenantID target w ↔
      (n = 0 ↔ (w.registries target.contractID).latest = 0) := by
  constructor
  · intro agrees
    rw [← agrees.genesis _ latest, isGenesisReserves_toString]
  · intro coincide
    have expected (pi : Contract.PubInputs) (sends : Sends d tenantID w pi) :
        Contract.expectedPrev (w.registries target.contractID) pi.reservesTotal =
          some pi.prevReserves := by
      have sent := prev_of_sends latest sends
      unfold Contract.expectedPrev
      by_cases nothing : (w.registries target.contractID).latest = 0
      · rw [if_pos (coincide.mpr nothing)] at sent
        rw [if_pos nothing, Fin.ext sent]
      · obtain ⟨entry, found, r_eq⟩ := last nothing
        rw [if_neg fun zero => nothing (coincide.mp zero), ← r_eq] at sent
        rw [if_neg nothing, found, Option.map_some, Fin.ext sent]
    refine ⟨expected, fun pi sends env proof =>
      Contract.publishProof_ne_mismatch d.verifier env proof (expected pi sends), ?_⟩
    intro found found_eq
    obtain rfl : toString n = found := Except.ok.inj (latest.symm.trans found_eq)
    rw [isGenesisReserves_toString, coincide]

/-- For a complete log the two decisions agree exactly when the last reserves, where
there are any, are not zero. -/
theorem baselineAgrees_of_complete (consistent : Consistent tenantID tid target log w)
    (tenant : toUUID tenantID = .ok tid) (complete : ∀ p ∈ log, p.stage = .audited) :
    BaselineAgrees d tenantID target w ↔
      (w.registries target.contractID).latest = 0 ∨
        ∃ entry, (w.registries target.contractID).proofs
          (w.registries target.contractID).latest = some entry ∧ entry.r ≠ 0 := by
  have agree := consistent.agree tenant complete
  have baseline := agree.baseline
  have latest_val := agree.registry.latest
  have last_entry := agree.registry.proofs_latest
  rw [List.getLast?_map] at last_entry
  cases last : log.getLast? with
  | none =>
      rw [last] at baseline
      have nothing : (w.registries target.contractID).latest = 0 := by
        rw [List.getLast?_eq_none_iff.mp last] at latest_val
        exact Fin.ext latest_val
      have zero : latestReserves tenantID w.db = .ok (toString 0) := baseline
      rw [baselineAgrees_iff_genesis zero fun some => absurd nothing some]
      simp [nothing]
  | some p =>
      rw [last] at baseline last_entry
      have something : (w.registries target.contractID).latest ≠ 0 := by
        intro nothing
        rw [nothing, List.length_map] at latest_val
        rw [List.length_eq_zero_iff.mp latest_val.symm] at last
        cases last
      have text : latestReserves tenantID w.db = .ok (toString p.pi.reservesTotal.val) := baseline
      rw [baselineAgrees_iff_genesis text fun _ => ⟨p.entry, last_entry, rfl⟩,
        iff_false_right something, or_iff_right something, last_entry]
      constructor
      · intro nonzero
        exact ⟨p.entry, rfl, fun zero => nonzero (congrArg Fin.val zero)⟩
      · rintro ⟨entry, found, nonzero⟩ zero
        obtain rfl : p.entry = entry := Option.some.inj found
        exact nonzero (Fin.ext zero)

/-- After any history without failures the two decisions agree exactly when nothing
is published yet or the last published reserves are not zero. -/
theorem baselineAgrees_iff {start : World Address} {events : List Event}
    (tenant : toUUID tenantID = .ok tid) (empty : Consistent tenantID tid target [] start)
    (reads : ∀ tree : Prover.SerializedTree, (d.serde.decode (d.serde.encode tree.toJson)).isSome)
    (run : Run (restrict (ofFunction (Event.apply d tenantID)) FailureFree) start events w) :
    BaselineAgrees d tenantID target w ↔
      (w.registries target.contractID).latest = 0 ∨
        ∃ entry, (w.registries target.contractID).proofs
          (w.registries target.contractID).latest = some entry ∧ entry.r ≠ 0 := by
  obtain ⟨log, consistent, complete⟩ : ∃ log, Consistent tenantID tid target log w ∧
      ∀ p ∈ log, p.stage = .audited := by
    refine run.invariant (motive := fun reached => ∃ log,
      Consistent tenantID tid target log reached ∧ ∀ p ∈ log, p.stage = .audited)
      ⟨[], empty, by simp⟩ fun source event next before step => ?_
    obtain ⟨log, consistent, complete⟩ := before
    obtain ⟨applied, failureFree⟩ := step
    rw [ofFunction_iff] at applied
    rw [applied]
    exact complete_apply consistent tenant reads complete failureFree
  exact baselineAgrees_of_complete consistent tenant complete

end FailureFree

/-! ## Reserves that fall to zero -/

/-- The sample tenant with nothing owed. -/
def emptyWorld : World Unit :=
  { sampleWorld with db := { sampleWorld.db with liabilities := [⟨sampleTenant, "0xab", 0⟩] } }

/-- The world after a first cycle over reserves of zero. -/
def zeroWorld : World Unit :=
  Event.apply sampleDeployment sampleTenantID emptyWorld
    (.cycle "first" (sampleInput "0" 1) .none)

theorem zeroWorld_reached :
    Run (restrict (ofFunction (Event.apply sampleDeployment sampleTenantID)) FailureFree) emptyWorld
      [.cycle "first" (sampleInput "0" 1) .none] zeroWorld :=
  have fresh : (sampleInput "0" 1).rowID ∉ emptyWorld.db.proofs.map ProofRow.id := List.not_mem_nil
  Run.single ⟨(ofFunction_iff _ _ _ _).mpr (by rw [zeroWorld]), rfl, fresh⟩

theorem emptyWorld_consistent :
    Consistent sampleTenantID sampleTenant sampleContract [] emptyWorld :=
  { sampleWorld_consistent with }

theorem baselineAgrees_sample :
    BaselineAgrees sampleDeployment sampleTenantID sampleContract zeroWorld ↔
      (zeroWorld.registries sampleContract.contractID).latest = 0 ∨ ∃ entry,
        (zeroWorld.registries sampleContract.contractID).proofs
          (zeroWorld.registries sampleContract.contractID).latest = some entry ∧ entry.r ≠ 0 :=
  have tenant : toUUID sampleTenantID = .ok sampleTenant := by decide +kernel
  baselineAgrees_iff tenant emptyWorld_consistent (fun _ => rfl) zeroWorld_reached

/-- After a cycle over reserves of zero the latest reserves stand for genesis, though
a proof is published, and the next cycle over positive reserves is rejected by the
contract. -/
theorem baseline_zero :
    (zeroWorld.registries "C1").latest = 1 ∧
      latestReserves sampleTenantID zeroWorld.db = .ok "0" ∧ isGenesisReserves "0" = true ∧
        (Program.exec (handlePort sampleDeployment (sampleInput "5" 2))
          (Cycle.runClaimed sampleTenantID "second").run zeroWorld).1 =
            .error (.wrap "publish proof"
              (.plain "simulation rejected publish_proof: HostError: Error(Contract, #6)")) := by
  decide +kernel

end Solva.Orchestrator
