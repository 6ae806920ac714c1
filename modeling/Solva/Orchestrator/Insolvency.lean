import Solva.Orchestrator.Consistency
import Solva.Orchestrator.Inclusion
import Solva.Prover.Rejection

/-!
# Insolvency on its way to the caller

A cycle whose ports answer ends as the prover's client ends, and the client tells
insolvency from the text of a status. The trigger turns the sentinel into a status
of its own.
-/

namespace Solva.Orchestrator

open Bn254 Codec Transition

variable {Address : Type}

/-! ## The trigger -/

/-- The `switch` of `Handler.TriggerCycle`. -/
def cycleResponse (err? : Result Unit) : Response :=
  match err? with
  | .ok () => ⟨202, .object [("status", .string "accepted")]⟩
  | .error err =>
      if err.is .cycleInProgress then writeError 409 "cycle already in progress"
      else if err.is .duplicateCycle then ⟨200, .object [("status", .string "already processed")]⟩
      else if err.is .insolvent then
        writeError 422 "reserves are below liabilities; no proof generated"
      else writeError 500 "the proof cycle could not complete"

/-- The key of a trigger: the caller's, else a random one. -/
def triggerKey (idempotencyKey randomKey : String) : String :=
  if idempotencyKey = "" then randomKey else idempotencyKey

/-- `Handler.TriggerCycle`, on the tenant that the body decodes to. -/
def triggerCycle (tenantID? : Option String) (idempotencyKey randomKey : String) :
    Program PortCall PortReply Response :=
  match tenantID? with
  | none => pure (writeError 400 "invalid request body")
  | some tenantID =>
      if tenantID = "" then pure (writeError 400 "tenant_id is required")
      else do
        let err? ← Cycle.run tenantID (triggerKey idempotencyKey randomKey)
        pure (cycleResponse err?)

/-- Of the errors only insolvency alone is answered with 422. -/
theorem cycleResponse_status_iff {err? : Result Unit}
    (entered : ∀ err, err? = .error err → err.is .cycleInProgress = false ∧
      err.is .duplicateCycle = false) :
    (cycleResponse err?).status = 422 ↔ ∃ err, err? = .error err ∧ err.is .insolvent := by
  cases err? with
  | ok _ => simp [cycleResponse]
  | error err =>
      rcases entered err rfl with ⟨free, fresh⟩
      rw [cycleResponse, free, fresh]
      by_cases insolvent : err.is .insolvent
      · simp [insolvent, writeError]
      · simp [insolvent, writeError]

/-! ## Ports that answer -/

/-- The figures that a run meets. -/
structure Figures where
  snap : ReserveSnapshot
  liabilities : List Liability
  latest : String

/-- The call is answered: by the prover as its service does, by the others without
an error, with the lock and the key to be had and these figures. -/
def Answers (d : Deployment Address) (tools : Prover.Tools) (figures : Figures) :
    (c : PortCall) → PortReply c → Prop
  | .acquireCycleLock _, reply => reply = .ok true
  | .claimCycle _ _, reply => reply = .ok true
  | .fetchSigned _, reply => reply = .ok figures.snap
  | .loadLiabilities _, reply => reply = .ok figures.liabilities
  | .latestReserves _, reply => reply = .ok figures.latest
  | .prove reserves liabilities prevReserves, reply =>
      reply = proverProve d tools reserves liabilities prevReserves
  | .releaseCycleLock _, reply => ∃ value, reply = .ok value
  | .saveSnapshot _, reply => ∃ value, reply = .ok value
  | .resolveTenantContract _, reply => ∃ value, reply = .ok value
  | .publishProof _ _ _, reply => ∃ value, reply = .ok value
  | .saveProof _ _, reply => ∃ value, reply = .ok value
  | .setLatest _ _, reply => ∃ value, reply = .ok value
  | .appendAudit _ _ _, reply => ∃ value, reply = .ok value

/-- What the prover's client makes of the figures. -/
def proverOutcome (d : Deployment Address) (tools : Prover.Tools) (figures : Figures) :
    Result ProveResult := do
  let prev ← effectivePrev figures.latest figures.snap.reserves
  (proverProve d tools figures.snap.reserves figures.liabilities prev).mapError (.wrap "prove")

/-- What is asked of the prover once the previous total is known. -/
theorem proverOutcome_of_prev {d : Deployment Address} {tools : Prover.Tools} {figures : Figures}
    {prev : String} (previous : effectivePrev figures.latest figures.snap.reserves = .ok prev) :
    proverOutcome d tools figures =
      (proverProve d tools figures.snap.reserves figures.liabilities prev).mapError
        (.wrap "prove") := by
  rw [proverOutcome, previous]
  rfl

theorem proverOutcome_of_error {d : Deployment Address} {tools : Prover.Tools} {figures : Figures}
    {err : GoError} (previous : effectivePrev figures.latest figures.snap.reserves = .error err) :
    proverOutcome d tools figures = .error err := by
  rw [proverOutcome, previous]
  rfl

section Outcome

variable {d : Deployment Address} {tools : Prover.Tools} {figures : Figures}
  {handle : (c : PortCall) → World Address → PortReply c × World Address}

/-- The calls of a run that are answered. -/
abbrev Answered (d : Deployment Address) (tools : Prover.Tools) (figures : Figures)
    (handle : (c : PortCall) → World Address → PortReply c × World Address) {α : Type}
    (program : Program PortCall PortReply α) (w : World Address) : Prop :=
  Program.Along handle (fun c w => Answers d tools figures c (handle c w).1) program w

/-- A port that answers with a value hands it to the rest. -/
theorem Answered.port_bind {context : String} {c : PortCall} {α : Type} {next : c.Value → CycleM α}
    {w : World Address} {value : c.Value}
    (answered : Answered d tools figures handle (port context c >>= next).run w)
    (reads : Answers d tools figures c (handle c w).1 → (handle c w).1 = .ok value) :
    Program.exec handle (port context c >>= next).run w =
        Program.exec handle (next value).run (handle c w).2 ∧
      Answered d tools figures handle (next value).run (handle c w).2 := by
  rcases answered.except_bind with ⟨⟨answers, _⟩, rest⟩
  have reply : handle c w = (.ok value, (handle c w).2) := Prod.ext (reads answers) rfl
  constructor
  · rw [exec_port_bind, reply]
  · exact rest _ _ (exec_port_eq_ok.mpr reply)

/-- A port whose value does not matter hands on some value. -/
theorem Answered.exists_port_bind {context : String} {c : PortCall} {α : Type}
    {next : c.Value → CycleM α} {w : World Address}
    (answered : Answered d tools figures handle (port context c >>= next).run w)
    (reads : Answers d tools figures c (handle c w).1 → ∃ value, (handle c w).1 = .ok value) :
    ∃ value, Program.exec handle (port context c >>= next).run w =
        Program.exec handle (next value).run (handle c w).2 ∧
      Answered d tools figures handle (next value).run (handle c w).2 := by
  rcases reads answered.except_bind.1.1 with ⟨value, reply⟩
  exact ⟨value, answered.port_bind fun _ => reply⟩

/-- What a cycle gathers is gathered as far as the prover lets it. -/
theorem prepare_outcome {tenantID : String} {w : World Address}
    (answered : Answered d tools figures handle (Cycle.prepare tenantID).run w) :
    (Program.exec handle (Cycle.prepare tenantID).run w).1.map Prod.fst =
      proverOutcome d tools figures := by
  unfold Cycle.prepare at answered ⊢
  rcases answered.port_bind id with ⟨fetched, answered⟩
  rw [fetched]
  rcases answered.exists_port_bind id with ⟨_, saved, answered⟩
  rw [saved]
  rcases answered.port_bind id with ⟨loaded, answered⟩
  rw [loaded]
  rcases answered.port_bind id with ⟨read, answered⟩
  rw [read]
  generalize (handle (.latestReserves tenantID) _).2 = later at answered ⊢
  cases previous : effectivePrev figures.latest figures.snap.reserves with
  | error err =>
      rw [proverOutcome_of_error previous]
      rfl
  | ok prev =>
      rw [previous] at answered
      rw [proverOutcome_of_prev previous]
      have asked : Answered d tools figures handle
          (port "prove" (.prove figures.snap.reserves figures.liabilities prev) >>= fun res =>
            port "resolve tenant contract" (.resolveTenantContract tenantID) >>= fun contract =>
              pure (res, contract)).run later := answered
      change (Program.exec handle
          (port "prove" (.prove figures.snap.reserves figures.liabilities prev) >>= fun res =>
            port "resolve tenant contract" (.resolveTenantContract tenantID) >>= fun contract =>
              pure (res, contract)).run later).1.map Prod.fst =
        (proverProve d tools figures.snap.reserves figures.liabilities prev).mapError
          (.wrap "prove")
      cases proved : proverProve d tools figures.snap.reserves figures.liabilities prev with
      | error err =>
          have refused : (handle (.prove figures.snap.reserves figures.liabilities prev) later).1 =
              .error err := asked.1.trans proved
          rw [exec_port_bind]
          generalize handle (.prove figures.snap.reserves figures.liabilities prev) later = answer
            at refused
          rcases answer with ⟨reply, state⟩
          cases refused
          rfl
      | ok res =>
          rcases asked.port_bind fun answers => answers.trans proved with ⟨called, asked⟩
          rw [called]
          rcases asked.exists_port_bind id with ⟨contract, resolved, _⟩
          rw [resolved]
          rfl

/-- What follows the proving ends without an error. -/
theorem publish_outcome {tenantID requestKey : String} {res : ProveResult}
    {contract : TenantContract} {w : World Address}
    (answered : Answered d tools figures handle
      (port "publish proof" (.publishProof contract res.proof res.publicInputs) >>= fun chainID =>
        Cycle.recordPublished tenantID requestKey res chainID).run w) :
    (Program.exec handle
      (port "publish proof" (.publishProof contract res.proof res.publicInputs) >>= fun chainID =>
        Cycle.recordPublished tenantID requestKey res chainID).run w).1 = .ok () := by
  rcases answered.exists_port_bind id with ⟨chainID, published, answered⟩
  rw [published]
  unfold Cycle.recordPublished at answered ⊢
  rcases answered.exists_port_bind id with ⟨_, saved, answered⟩
  rw [saved]
  rcases answered.exists_port_bind id with ⟨_, cached, answered⟩
  rw [cached, exec_port]
  rcases answered.1 with ⟨_, audited⟩
  rw [audited]
  rfl

/-- A claimed cycle ends as the prover's client does. -/
theorem runClaimed_outcome {tenantID requestKey : String} {w : World Address}
    (answered : Answered d tools figures handle (Cycle.runClaimed tenantID requestKey).run w) :
    (Program.exec handle (Cycle.runClaimed tenantID requestKey).run w).1 =
      (proverOutcome d tools figures).map fun _ => () := by
  unfold Cycle.runClaimed at answered ⊢
  rcases answered.except_bind with ⟨preparing, publishing⟩
  rw [← prepare_outcome preparing, Program.exec_except_bind]
  generalize prepared : Program.exec handle (Cycle.prepare tenantID).run w = ended
  rcases ended with ⟨err | ⟨res, contract⟩, later⟩
  · rfl
  · exact publish_outcome (publishing _ _ prepared)

/-- A cycle that the prover turned away records nothing. -/
theorem runClaimed_quiet {tenantID requestKey : String} {w : World Address} {err : GoError}
    (quiet : ∀ (c : PortCall) w, c.port.recording = false → Quiet w (handle c w).2)
    (answered : Answered d tools figures handle (Cycle.runClaimed tenantID requestKey).run w)
    (refused : proverOutcome d tools figures = .error err) :
    Quiet w (Program.exec handle (Cycle.runClaimed tenantID requestKey).run w).2 := by
  have preparing : Quiet w (Program.exec handle (Cycle.prepare tenantID).run w).2 :=
    (prepare_calls tenantID).related Quiet.refl (fun _ _ _ => Quiet.trans) fun c w => quiet c w
  have outcome := prepare_outcome answered.except_bind.1
  rw [Cycle.runClaimed, Program.exec_except_bind]
  generalize Program.exec handle (Cycle.prepare tenantID).run w = ended at preparing outcome
  rcases ended with ⟨err | found, later⟩
  · exact preparing
  · rw [refused] at outcome
    cases outcome

/-- A run whose ports answer takes the lock and the key, does what a claimed cycle
does, and releases the lock. -/
theorem run_claimed {tenantID requestKey : String} {w : World Address}
    (answered : Answered d tools figures handle (Cycle.run tenantID requestKey) w) :
    ∃ w', w' = (handle (.claimCycle tenantID requestKey)
        (handle (.acquireCycleLock tenantID) w).2).2 ∧
      Answered d tools figures handle (Cycle.runClaimed tenantID requestKey).run w' ∧
      Program.exec handle (Cycle.run tenantID requestKey) w =
        ((Program.exec handle (Cycle.runClaimed tenantID requestKey).run w').1,
          (handle (.releaseCycleLock tenantID)
            (Program.exec handle (Cycle.runClaimed tenantID requestKey).run w').2).2) := by
  rcases answered with ⟨acquired, entered⟩
  have lock : handle (.acquireCycleLock tenantID) w =
      (.ok true, (handle (.acquireCycleLock tenantID) w).2) := Prod.ext acquired rfl
  have opened : Program.exec handle (Cycle.run tenantID requestKey) w =
      Program.exec handle ((Cycle.runLocked tenantID requestKey).run >>= fun result =>
        Program.perform (PortCall.releaseCycleLock tenantID) >>= fun _ => pure result)
          (handle (.acquireCycleLock tenantID) w).2 := by
    rw [Cycle.run, Program.exec_bind, Program.perform, Program.exec_call, Program.exec_ret, lock]
  rw [lock] at entered
  have inside : Answered d tools figures handle ((Cycle.runLocked tenantID requestKey).run >>=
      fun result => Program.perform (PortCall.releaseCycleLock tenantID) >>= fun _ => pure result)
        (handle (.acquireCycleLock tenantID) w).2 := entered
  have locked : Answered d tools figures handle (Cycle.runLocked tenantID requestKey).run
      (handle (.acquireCycleLock tenantID) w).2 := (Program.along_bind_iff.mp inside).1
  rw [Cycle.runLocked] at locked
  rcases locked.port_bind id with ⟨claimed, answered⟩
  refine ⟨_, rfl, answered, ?_⟩
  rw [opened, Program.exec_bind, Cycle.runLocked, claimed]
  rfl

/-- So does the whole run. -/
theorem run_outcome {tenantID requestKey : String} {w : World Address}
    (answered : Answered d tools figures handle (Cycle.run tenantID requestKey) w) :
    (Program.exec handle (Cycle.run tenantID requestKey) w).1 =
      (proverOutcome d tools figures).map fun _ => () := by
  rcases run_claimed answered with ⟨w', _, claimed, ran⟩
  rw [ran]
  exact runClaimed_outcome claimed

theorem run_quiet {tenantID requestKey : String} {w : World Address} {err : GoError}
    (quiet : ∀ (c : PortCall) w, c.port.recording = false → Quiet w (handle c w).2)
    (answered : Answered d tools figures handle (Cycle.run tenantID requestKey) w)
    (refused : proverOutcome d tools figures = .error err) :
    Quiet w (Program.exec handle (Cycle.run tenantID requestKey) w).2 := by
  rcases run_claimed answered with ⟨w', rfl, claimed, ran⟩
  rw [ran]
  have entering := (quiet (.acquireCycleLock tenantID) w rfl).trans
    (quiet (.claimCycle tenantID requestKey) _ rfl)
  exact (entering.trans (runClaimed_quiet quiet claimed refused)).trans
    (quiet (.releaseCycleLock tenantID) _ rfl)

end Outcome

/-! ## What the prover says -/

/-- What a run hands to the prover is an insolvent request. -/
def SentInsolvent (figures : Figures) : Prop :=
  ∃ prev, effectivePrev figures.latest figures.snap.reserves = .ok prev ∧
    Prover.InsolventRequest (buildRequest figures.snap.reserves figures.liabilities prev)

/-- Figures that fill at least one and at most all places of the circuit. -/
structure Figures.Fits (figures : Figures) : Prop where
  reserves_pos : 1 ≤ figures.snap.reserves.length
  reserves_le : figures.snap.reserves.length ≤ 4
  liabilities_pos : 1 ≤ figures.liabilities.length
  liabilities_le : figures.liabilities.length ≤ 8

theorem Figures.Fits.request {figures : Figures} (fits : figures.Fits) (prev : String) :
    (buildRequest figures.snap.reserves figures.liabilities prev).Fits where
  reserves_ne := List.ne_nil_of_length_pos (by
    rw [buildRequest, List.length_map]
    exact fits.reserves_pos)
  liabilities_ne := List.ne_nil_of_length_pos (by
    rw [buildRequest, List.length_map]
    exact fits.liabilities_pos)
  liabilities_le := by simpa [buildRequest, Prover.N] using fits.liabilities_le
  reserves_le := by simpa [buildRequest, Prover.M] using fits.reserves_le

theorem isInsolvent_iff {status : Prover.Status} :
    isInsolvent status = true ↔ status.SaysInsolvent :=
  decide_eq_true_iff

/-- The client reports insolvency for the requests that are insolvent. -/
theorem proverProve_insolvent_iff (d : Deployment Address) (run : Prover.ToolRun)
    {reserves : List Reserve} {liabilities : List Liability} {prev : String}
    (fits : (buildRequest reserves liabilities prev).Fits) :
    (∃ err, proverProve d run.tools reserves liabilities prev = .error err ∧ err.is .insolvent) ↔
      Prover.InsolventRequest (buildRequest reserves liabilities prev) := by
  rw [← Prover.serviceProve_saysInsolvent_iff d.hash4 run fits]
  unfold proverProve
  cases Prover.serviceProve d.hash4 run.tools (buildRequest reserves liabilities prev) with
  | none => simp [GoError.is, GoError.wrap]
  | some reply =>
  cases reply with
  | ok resp => simp
  | error status =>
      dsimp only
      by_cases told : isInsolvent status
      · have insolvent := isInsolvent_iff.mp told
        rw [if_pos told]
        exact ⟨fun _ => ⟨status, rfl, insolvent⟩, fun _ => ⟨_, rfl, rfl⟩⟩
      · rw [if_neg told]
        constructor
        · rintro ⟨err, failed, found⟩
          cases failed
          cases found
        · rintro ⟨other, answered, insolvent⟩
          cases answered
          exact absurd (isInsolvent_iff.mpr insolvent) told

/-- A total that cannot be formed is none of the sentinels. -/
theorem effectivePrev_not_sentinel {latest : String} {reserves : List Reserve} {err : GoError}
    (failed : effectivePrev latest reserves = .error err) (target : Sentinel) :
    err.is target = false := by
  have plain : ∀ (total : Int) (reserves : List Reserve) (err : GoError),
      addReserves total reserves = .error err → err.is target = false := by
    intro total reserves err failed
    induction reserves generalizing total with
    | nil => cases failed
    | cons r rest ih =>
        rw [addReserves] at failed
        split at failed
        · exact ih _ failed
        · cases failed
          rfl
  unfold effectivePrev at failed
  split at failed
  · unfold sumReserves at failed
    cases total : addReserves 0 reserves with
    | ok sum => simp [total, Except.map, Except.mapError] at failed
    | error inner =>
        simp only [total, Except.map, Except.mapError, Except.error.injEq] at failed
        rw [← failed]
        exact plain 0 reserves inner total
  · cases failed

theorem proverOutcome_insolvent_iff (d : Deployment Address) (run : Prover.ToolRun)
    {figures : Figures} (fits : figures.Fits) :
    (∃ err, proverOutcome d run.tools figures = .error err ∧ err.is .insolvent) ↔
      SentInsolvent figures := by
  unfold SentInsolvent
  cases previous : effectivePrev figures.latest figures.snap.reserves with
  | error err =>
      rw [proverOutcome_of_error previous]
      constructor
      · rintro ⟨other, failed, insolvent⟩
        cases failed
        rw [effectivePrev_not_sentinel previous] at insolvent
        cases insolvent
      · rintro ⟨prev, sent, _⟩
        cases sent
  | ok prev =>
      have answered := proverProve_insolvent_iff d run (fits.request prev)
      have sent : (∃ other, Except.ok (ε := GoError) prev = .ok other ∧ Prover.InsolventRequest
            (buildRequest figures.snap.reserves figures.liabilities other)) ↔
          Prover.InsolventRequest
            (buildRequest figures.snap.reserves figures.liabilities prev) := by
        simp
      rw [sent, ← answered, proverOutcome_of_prev previous]
      generalize proverProve d run.tools figures.snap.reserves figures.liabilities prev = reply
      cases reply with
      | ok res => simp [Except.mapError]
      | error err => simp [Except.mapError, GoError.is, GoError.wrap]

/-- Insolvency is the one sentinel among the outcomes of the prover. -/
theorem proverOutcome_sentinel {d : Deployment Address} {tools : Prover.Tools} {figures : Figures}
    {err : GoError} (failed : proverOutcome d tools figures = .error err) {target : Sentinel}
    (other : target ≠ .insolvent) : err.is target = false := by
  cases previous : effectivePrev figures.latest figures.snap.reserves with
  | error first =>
      rw [proverOutcome_of_error previous] at failed
      cases failed
      exact effectivePrev_not_sentinel previous target
  | ok prev =>
      rw [proverOutcome_of_prev previous, proverProve] at failed
      split at failed
      · cases failed
        rfl
      · split at failed
        · cases failed
          exact decide_eq_false (Ne.symm other)
        · cases failed
          rfl
      · cases failed

/-! ## Insolvency is reported exactly when it is insolvency -/

/-- In a run whose other ports answer, the error is the one for insolvency, and the
trigger answers 422, exactly when the figures sent to the prover read as ids and
amounts and owe more than they hold; then nothing is recorded. -/
theorem run_insolvent_iff (d : Deployment Address) (run : Prover.ToolRun) (figures : Figures)
    (fits : figures.Fits)
    (handle : (c : PortCall) → World Address → PortReply c × World Address)
    (quiet : ∀ (c : PortCall) w, c.port.recording = false → Quiet w (handle c w).2)
    (tenantID idempotencyKey randomKey : String) (w : World Address)
    (answered : Answered d run.tools figures handle
      (Cycle.run tenantID (triggerKey idempotencyKey randomKey)) w) :
    let ended := Program.exec handle (Cycle.run tenantID (triggerKey idempotencyKey randomKey)) w
    ((∃ err, ended.1 = .error err ∧ err.is .insolvent) ↔ SentInsolvent figures) ∧
      (tenantID ≠ "" →
        ((Program.exec handle (triggerCycle (some tenantID) idempotencyKey randomKey) w).1.status =
          422 ↔ SentInsolvent figures)) ∧
      (SentInsolvent figures → Quiet w ended.2) := by
  intro ended
  have outcome : ended.1 = (proverOutcome d run.tools figures).map fun _ => () :=
    run_outcome answered
  have sent := proverOutcome_insolvent_iff d run fits
  have failed_iff (err : GoError) :
      ended.1 = .error err ↔ proverOutcome d run.tools figures = .error err := by
    rw [outcome]
    cases proverOutcome d run.tools figures with
    | ok res => simp [Except.map]
    | error inner => simp [Except.map]
  have reported : (∃ err, ended.1 = .error err ∧ err.is .insolvent) ↔ SentInsolvent figures := by
    rw [← sent]
    constructor
    · rintro ⟨err, failed, insolvent⟩
      exact ⟨err, (failed_iff err).mp failed, insolvent⟩
    · rintro ⟨err, failed, insolvent⟩
      exact ⟨err, (failed_iff err).mpr failed, insolvent⟩
  refine ⟨reported, fun named => ?_, fun insolvent => ?_⟩
  · have triggered : (Program.exec handle
        (triggerCycle (some tenantID) idempotencyKey randomKey) w).1 = cycleResponse ended.1 := by
      rw [triggerCycle, if_neg named, Program.exec_bind]
      rfl
    rw [triggered, ← reported]
    apply cycleResponse_status_iff
    intro err failed
    have refused := (failed_iff err).mp failed
    constructor
    · exact proverOutcome_sentinel refused (by decide)
    · exact proverOutcome_sentinel refused (by decide)
  · rcases sent.mpr insolvent with ⟨err, refused, _⟩
    exact run_quiet quiet answered refused

/-- Tools that find nothing to complain about. -/
def sampleRun : Prover.ToolRun where
  written _ := .ok ()
  nargo _ := .succeeded
  bb _ := .succeeded
  proofFile _ := .ok []

/-- A reserve of five against what the sample tenant owes. -/
def sampleShortfall : Figures where
  snap := ⟨sampleTenantID, [⟨"bank", "5", "EUR"⟩], "2026-01-01T00:00:00Z"⟩
  liabilities := [⟨"0xab", "7"⟩]
  latest := "0"

/-- The sample tenant's cycle over the short reserve. -/
def sampleShortInput : RunInput where
  snapshot := .ok sampleShortfall.snap
  tools := sampleRun.tools
  rowID := BytesN.ofNat 16 1
  ledgerTime := 100

theorem run_insolvent_iff_sample :
    let ended := Program.exec (handlePort sampleDeployment sampleShortInput)
      (Cycle.run sampleTenantID (triggerKey "" "first")) sampleWorld
    ((∃ err, ended.1 = .error err ∧ err.is .insolvent) ↔ SentInsolvent sampleShortfall) ∧
      (sampleTenantID ≠ "" →
        ((Program.exec (handlePort sampleDeployment sampleShortInput)
          (triggerCycle (some sampleTenantID) "" "first") sampleWorld).1.status =
          422 ↔ SentInsolvent sampleShortfall)) ∧
      (SentInsolvent sampleShortfall → Quiet sampleWorld ended.2) :=
  run_insolvent_iff sampleDeployment sampleRun sampleShortfall
    ⟨by decide, by decide, by decide, by decide⟩ (handlePort sampleDeployment sampleShortInput)
    (fun _ _ preparing => quiet_handlePort preparing _)
    sampleTenantID "" "first" sampleWorld
    ⟨rfl, rfl, rfl, ⟨(), rfl⟩, rfl, rfl, rfl, ⟨(), rfl⟩, trivial⟩

end Solva.Orchestrator
