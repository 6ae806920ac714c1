import Solva.Orchestrator.Ports
import Solva.Transition.Protocol

/-!
# Cycles side by side

How far a run of the cycle has got decides which port call it can make next. The
protocol below is all that the concurrency results know of the code; `run_follows`
is its connection to `Cycle.Run`.
-/

namespace Solva.Orchestrator

open Bn254 Codec Transition

/-! ## Where a run stands -/

/-- The phases of a run, named by what comes next or what was done last. -/
inductive Phase where
  | acquiring
  | claiming
  | preparing (resolved : Option TenantContract)
  | published (chainID : U64)
  | saved (chainID : U64)
  | cached (chainID : U64)
  | releasing (complete : Bool)
  | ended (complete : Bool)
  deriving DecidableEq

/-- A phase, and whether the claim was granted and `PublishProof` was called. -/
structure Progress where
  phase : Phase
  claimed : Bool
  attempted : Bool
  deriving DecidableEq

namespace Progress

/-- A run that has not called anything. -/
def start : Progress :=
  ⟨.acquiring, false, false⟩

/-- Where a reply leads. -/
def next (q : Progress) : (c : PortCall) → PortReply c → Progress
  | c, reply =>
      match q.phase, c, reply with
      | .acquiring, .acquireCycleLock _, .ok true => { q with phase := .claiming }
      | .acquiring, _, _ => { q with phase := .ended false }
      | .claiming, .claimCycle _ _, .ok true =>
          { q with phase := .preparing none, claimed := true }
      | .claiming, _, _ => { q with phase := .releasing false }
      | .preparing _, .publishProof _ _ _, .ok chainID =>
          { q with phase := .published chainID, attempted := true }
      | .preparing _, .publishProof _ _ _, .error _ =>
          { q with phase := .releasing false, attempted := true }
      | .preparing _, .releaseCycleLock _, _ => { q with phase := .ended false }
      | .preparing _, .resolveTenantContract _, .ok contract =>
          { q with phase := .preparing (some contract) }
      | .preparing _, _, .ok _ => q
      | .preparing _, _, .error _ => { q with phase := .releasing false }
      | .published chainID, _, .ok _ => { q with phase := .saved chainID }
      | .saved chainID, _, .ok _ => { q with phase := .cached chainID }
      | .cached _, _, .ok _ => { q with phase := .releasing true }
      | .published _, _, .error _ => { q with phase := .releasing false }
      | .saved _, _, .error _ => { q with phase := .releasing false }
      | .cached _, _, .error _ => { q with phase := .releasing false }
      | .releasing complete, _, _ => { q with phase := .ended complete }
      | .ended _, _, _ => q

end Progress

/-- The calls that gather what a publish needs. -/
def PortCall.Prepares (tenantID : String) : PortCall → Prop
  | .fetchSigned tenant => tenant = tenantID
  | .loadLiabilities tenant => tenant = tenantID
  | .latestReserves tenant => tenant = tenantID
  | .resolveTenantContract tenant => tenant = tenantID
  | .saveSnapshot _ => True
  | .prove _ _ _ => True
  | _ => False

/-- The calls that may come next in a phase. -/
def Phase.Allows (tenantID requestKey : String) : Phase → PortCall → Prop
  | .acquiring, c => c = .acquireCycleLock tenantID
  | .claiming, c => c = .claimCycle tenantID requestKey
  | .preparing resolved, c =>
      c.Prepares tenantID ∨
      (∃ contract proof pub, resolved = some contract ∧ c = .publishProof contract proof pub) ∨
      c = .releaseCycleLock tenantID
  | .published chainID, c =>
      ∃ res : ProveResult, c = .saveProof (cycleProof tenantID chainID res) res.serializedTree
  | .saved chainID, c => c = .setLatest tenantID (toString chainID.val)
  | .cached _, c => ∃ payload, c = .appendAudit tenantID "proof_cycle" payload
  | .releasing _, c => c = .releaseCycleLock tenantID
  | .ended _, _ => False

/-- The protocol of `Cycle.Run` on a tenant and a request key. -/
def cycleProtocol (tenantID requestKey : String) : Protocol PortCall PortReply Progress where
  allowed q c := q.phase.Allows tenantID requestKey c
  next := Progress.next

/-- Everything a call can do to where a run stands. -/
inductive Moves (tenantID requestKey : String) :
    Progress → (c : PortCall) → PortReply c → Progress → Prop
  | acquired {claimed attempted : Bool} :
      Moves tenantID requestKey ⟨.acquiring, claimed, attempted⟩ (.acquireCycleLock tenantID)
        (.ok true) ⟨.claiming, claimed, attempted⟩
  | excluded {claimed attempted : Bool} {reply : Result Bool} : reply ≠ .ok true →
      Moves tenantID requestKey ⟨.acquiring, claimed, attempted⟩ (.acquireCycleLock tenantID) reply
        ⟨.ended false, claimed, attempted⟩
  | granted {claimed attempted : Bool} :
      Moves tenantID requestKey ⟨.claiming, claimed, attempted⟩ (.claimCycle tenantID requestKey)
        (.ok true) ⟨.preparing none, true, attempted⟩
  | denied {claimed attempted : Bool} {reply : Result Bool} : reply ≠ .ok true →
      Moves tenantID requestKey ⟨.claiming, claimed, attempted⟩ (.claimCycle tenantID requestKey)
        reply ⟨.releasing false, claimed, attempted⟩
  | resolved {before : Option TenantContract} {claimed attempted : Bool}
      {contract : TenantContract} :
      Moves tenantID requestKey ⟨.preparing before, claimed, attempted⟩
        (.resolveTenantContract tenantID) (.ok contract)
        ⟨.preparing (some contract), claimed, attempted⟩
  | prepared {before : Option TenantContract} {claimed attempted : Bool} {c : PortCall}
      {value : c.Value} : c.Prepares tenantID → c.port ≠ .resolveTenantContract →
      Moves tenantID requestKey ⟨.preparing before, claimed, attempted⟩ c (.ok value)
        ⟨.preparing before, claimed, attempted⟩
  | stopped {before : Option TenantContract} {claimed attempted : Bool} {c : PortCall}
      {err : GoError} : c.Prepares tenantID →
      Moves tenantID requestKey ⟨.preparing before, claimed, attempted⟩ c (.error err)
        ⟨.releasing false, claimed, attempted⟩
  | published {contract : TenantContract} {claimed attempted : Bool} {proof : List UInt8}
      {pub : PublicInputs} {chainID : U64} :
      Moves tenantID requestKey ⟨.preparing (some contract), claimed, attempted⟩
        (.publishProof contract proof pub) (.ok chainID) ⟨.published chainID, claimed, true⟩
  | unpublished {contract : TenantContract} {claimed attempted : Bool} {proof : List UInt8}
      {pub : PublicInputs} {err : GoError} :
      Moves tenantID requestKey ⟨.preparing (some contract), claimed, attempted⟩
        (.publishProof contract proof pub) (.error err) ⟨.releasing false, claimed, true⟩
  | saved {chainID : U64} {claimed attempted : Bool} {res : ProveResult} :
      Moves tenantID requestKey ⟨.published chainID, claimed, attempted⟩
        (.saveProof (cycleProof tenantID chainID res) res.serializedTree) (.ok ())
        ⟨.saved chainID, claimed, attempted⟩
  | unsaved {chainID : U64} {claimed attempted : Bool} {res : ProveResult} {err : GoError} :
      Moves tenantID requestKey ⟨.published chainID, claimed, attempted⟩
        (.saveProof (cycleProof tenantID chainID res) res.serializedTree) (.error err)
        ⟨.releasing false, claimed, attempted⟩
  | cached {chainID : U64} {claimed attempted : Bool} :
      Moves tenantID requestKey ⟨.saved chainID, claimed, attempted⟩
        (.setLatest tenantID (toString chainID.val)) (.ok ()) ⟨.cached chainID, claimed, attempted⟩
  | uncached {chainID : U64} {claimed attempted : Bool} {err : GoError} :
      Moves tenantID requestKey ⟨.saved chainID, claimed, attempted⟩
        (.setLatest tenantID (toString chainID.val)) (.error err)
        ⟨.releasing false, claimed, attempted⟩
  | audited {chainID : U64} {claimed attempted : Bool} {payload : Json} :
      Moves tenantID requestKey ⟨.cached chainID, claimed, attempted⟩
        (.appendAudit tenantID "proof_cycle" payload) (.ok ()) ⟨.releasing true, claimed, attempted⟩
  | unaudited {chainID : U64} {claimed attempted : Bool} {payload : Json} {err : GoError} :
      Moves tenantID requestKey ⟨.cached chainID, claimed, attempted⟩
        (.appendAudit tenantID "proof_cycle" payload) (.error err)
        ⟨.releasing false, claimed, attempted⟩
  | abandoned {before : Option TenantContract} {claimed attempted : Bool}
      {reply : Result Unit} :
      Moves tenantID requestKey ⟨.preparing before, claimed, attempted⟩
        (.releaseCycleLock tenantID) reply ⟨.ended false, claimed, attempted⟩
  | released {complete claimed attempted : Bool} {reply : Result Unit} :
      Moves tenantID requestKey ⟨.releasing complete, claimed, attempted⟩
        (.releaseCycleLock tenantID) reply ⟨.ended complete, claimed, attempted⟩

theorem moves_of_prepares {tenantID requestKey : String} {before : Option TenantContract}
    {claimed attempted : Bool} {c : PortCall} (prepares : c.Prepares tenantID)
    (reply : PortReply c) :
    Moves tenantID requestKey ⟨.preparing before, claimed, attempted⟩ c reply
      (Progress.next ⟨.preparing before, claimed, attempted⟩ c reply) := by
  cases reply with
  | error err =>
      cases c <;> first
        | exact .stopped prepares
        | exact prepares.elim
  | ok value =>
      cases c with
      | resolveTenantContract tenant =>
          obtain rfl : tenant = tenantID := prepares
          exact .resolved
      | _ => first
          | exact .prepared prepares (by simp [PortCall.port])
          | exact prepares.elim

/-- An allowed call moves a run in one of these ways. -/
theorem moves_of_allowed {tenantID requestKey : String} {q : Progress} {c : PortCall}
    (allowed : (cycleProtocol tenantID requestKey).allowed q c) (reply : PortReply c) :
    Moves tenantID requestKey q c reply
      ((cycleProtocol tenantID requestKey).next q c reply) := by
  obtain ⟨phase, claimed, attempted⟩ := q
  cases phase with
  | acquiring =>
      obtain rfl : c = _ := allowed
      rcases reply with err | _ | _
      · exact .excluded (by simp)
      · exact .excluded (by simp)
      · exact .acquired
  | claiming =>
      obtain rfl : c = _ := allowed
      rcases reply with err | _ | _
      · exact .denied (by simp)
      · exact .denied (by simp)
      · exact .granted
  | preparing before =>
      rcases allowed with prepares | ⟨contract, proof, pub, rfl, rfl⟩ | rfl
      · exact moves_of_prepares prepares reply
      · cases reply with
        | error err => exact .unpublished
        | ok chainID => exact .published
      · exact .abandoned
  | published chainID =>
      obtain ⟨res, rfl⟩ := allowed
      cases reply with
      | error err => exact .unsaved
      | ok value => exact .saved
  | saved chainID =>
      obtain rfl : c = _ := allowed
      cases reply with
      | error err => exact .uncached
      | ok value => exact .cached
  | cached chainID =>
      obtain ⟨payload, rfl⟩ := allowed
      cases reply with
      | error err => exact .unaudited
      | ok value => exact .audited
  | releasing complete =>
      obtain rfl : c = _ := allowed
      exact .released
  | ended complete => exact allowed.elim

/-! ## `Cycle.Run` follows it -/

/-- Where the locked part of a run may end: complete with nil, or stopped with an
error. -/
def Stops (q : Progress) (result : Result Unit) : Prop :=
  (result = .ok () ∧ q.phase = .releasing true) ∨
    ((∃ err, result = .error err) ∧
      (q.phase = .releasing false ∨ ∃ resolved, q.phase = .preparing resolved))

/-- Where a run may return: it has ended, and returns nil exactly when complete. -/
def Returns (q : Progress) (result : Result Unit) : Prop :=
  ∃ complete, q.phase = .ended complete ∧ (result = .ok () ↔ complete = true)

section Follows

variable {tenantID requestKey : String} {claimed attempted : Bool}

/-- A port that is allowed, with one continuation for its value and one for its
error. -/
theorem follows_port_bind {context : String} {c : PortCall} {α : Type}
    {next : c.Value → CycleM α} {returns : Progress → Result α → Prop} {q : Progress}
    (allowed : q.phase.Allows tenantID requestKey c)
    (fails : ∀ err, returns (q.next c (.error err)) (.error (.wrap context err)))
    (second : ∀ value, (cycleProtocol tenantID requestKey).Follows returns (q.next c (.ok value))
      (next value).run) :
    (cycleProtocol tenantID requestKey).Follows returns q (port context c >>= next).run := by
  refine ⟨allowed, fun reply => ?_⟩
  cases reply with
  | ok value => exact second value
  | error err => exact fails err

theorem follows_port {context : String} {c : PortCall} {returns : Progress → Result c.Value → Prop}
    {q : Progress} (allowed : q.phase.Allows tenantID requestKey c)
    (fails : ∀ err, returns (q.next c (.error err)) (.error (.wrap context err)))
    (passes : ∀ value, returns (q.next c (.ok value)) (.ok value)) :
    (cycleProtocol tenantID requestKey).Follows returns q (port context c).run := by
  refine ⟨allowed, fun reply => ?_⟩
  cases reply with
  | ok value => exact passes value
  | error err => exact fails err

/-- Gathering ends with the resolved contract or stops. -/
theorem prepare_follows :
    (cycleProtocol tenantID requestKey).Follows
      (fun q (result : Result (ProveResult × TenantContract)) =>
        match result with
        | .ok (_, contract) => q = ⟨.preparing (some contract), claimed, attempted⟩
        | .error _ => q = ⟨.releasing false, claimed, attempted⟩ ∨
            ∃ resolved, q = ⟨.preparing resolved, claimed, attempted⟩)
      ⟨.preparing none, claimed, attempted⟩ (Cycle.prepare tenantID).run := by
  unfold Cycle.prepare
  refine follows_port_bind (.inl rfl) (fun _ => .inl rfl) fun snap => ?_
  refine follows_port_bind (.inl trivial) (fun _ => .inl rfl) fun _ => ?_
  refine follows_port_bind (.inl rfl) (fun _ => .inl rfl) fun liabilities => ?_
  refine follows_port_bind (.inl rfl) (fun _ => .inl rfl) fun latest => ?_
  -- the genesis total is computed without a call
  cases effectivePrev latest snap.reserves with
  | error err => exact .inr ⟨none, rfl⟩
  | ok prev =>
      refine follows_port_bind (.inl trivial) (fun _ => .inl rfl) fun res => ?_
      refine follows_port_bind (.inl rfl) (fun _ => .inl rfl) fun contract => ?_
      rfl

/-- Recording goes from stage to stage and stops at the first error. -/
theorem recordPublished_follows (res : ProveResult) (chainID : U64) :
    (cycleProtocol tenantID requestKey).Follows Stops ⟨.published chainID, claimed, attempted⟩
      (Cycle.recordPublished tenantID requestKey res chainID).run := by
  have stopped (err : GoError) : Stops ⟨.releasing false, claimed, attempted⟩ (.error err) :=
    .inr ⟨⟨err, rfl⟩, .inl rfl⟩
  unfold Cycle.recordPublished
  refine follows_port_bind ⟨res, rfl⟩ (fun _ => stopped _) fun _ => ?_
  refine follows_port_bind rfl (fun _ => stopped _) fun _ => ?_
  exact follows_port ⟨_, rfl⟩ (fun _ => stopped _) fun _ => .inl ⟨rfl, rfl⟩

theorem runClaimed_follows :
    (cycleProtocol tenantID requestKey).Follows Stops ⟨.preparing none, claimed, attempted⟩
      (Cycle.runClaimed tenantID requestKey).run := by
  unfold Cycle.runClaimed
  refine prepare_follows.except_bind ?_ ?_
  · rintro q err (rfl | ⟨resolved, rfl⟩)
    · exact .inr ⟨⟨err, rfl⟩, .inl rfl⟩
    · exact .inr ⟨⟨err, rfl⟩, .inr ⟨resolved, rfl⟩⟩
  · rintro q ⟨res, contract⟩ rfl
    exact follows_port_bind (.inr (.inl ⟨contract, _, _, rfl, rfl⟩))
      (fun err => .inr ⟨⟨_, rfl⟩, .inl rfl⟩) fun chainID => recordPublished_follows res chainID

theorem runLocked_follows :
    (cycleProtocol tenantID requestKey).Follows Stops ⟨.claiming, claimed, attempted⟩
      (Cycle.runLocked tenantID requestKey).run := by
  unfold Cycle.runLocked
  refine follows_port_bind rfl (fun err => .inr ⟨⟨_, rfl⟩, .inl rfl⟩) fun granted => ?_
  cases granted with
  | false => exact .inr ⟨⟨_, rfl⟩, .inl rfl⟩
  | true => exact runClaimed_follows

/-- `Cycle.Run` follows the protocol. -/
theorem run_follows (tenantID requestKey : String) :
    (cycleProtocol tenantID requestKey).Follows Returns Progress.start
      (Cycle.run tenantID requestKey) := by
  refine ⟨rfl, fun reply => ?_⟩
  cases reply with
  | error err => exact ⟨false, rfl, by simp⟩
  | ok acquired =>
      cases acquired with
      | false => exact ⟨false, rfl, by simp⟩
      | true =>
          refine runLocked_follows.bind fun q result stops => ?_
          rcases stops with ⟨rfl, phase⟩ | ⟨⟨err, rfl⟩, phase | ⟨resolved, phase⟩⟩
          · obtain ⟨_, claimed, attempted⟩ := q
            cases phase
            exact ⟨rfl, fun _ => ⟨true, rfl, by simp⟩⟩
          · obtain ⟨_, claimed, attempted⟩ := q
            cases phase
            exact ⟨rfl, fun _ => ⟨false, rfl, by simp⟩⟩
          · obtain ⟨_, claimed, attempted⟩ := q
            cases phase
            exact ⟨.inr (.inr rfl), fun _ => ⟨false, rfl, by simp⟩⟩

end Follows

/-! ## Calls among others -/

section Calls

variable {Address : Type}

/-- What a call does among others: it is carried out, refused without a trace, or
carried out with its reply lost. -/
inductive PortStep (d : Deployment Address) :
    (c : PortCall) → World Address → PortReply c → World Address → Prop
  | handled (input : RunInput) (c : PortCall) (w : World Address) :
      PortStep d c w (handlePort d input c w).1 (handlePort d input c w).2
  | refused (c : PortCall) (err : GoError) (w : World Address) : PortStep d c w (.error err) w
  | lost (input : RunInput) (c : PortCall) (err : GoError) (w : World Address) :
      PortStep d c w (.error err) (handlePort d input c w).2

/-- A call changes nothing or what its handler changes. -/
theorem PortStep.world_eq {d : Deployment Address} {c : PortCall} {w w' : World Address}
    {reply : PortReply c} (step : PortStep d c w reply w') :
    w' = w ∨ ∃ input, w' = (handlePort d input c w).2 := by
  cases step with
  | handled input => exact .inr ⟨input, rfl⟩
  | refused => exact .inl rfl
  | lost input => exact .inr ⟨input, rfl⟩

/-- A reply without an error is the handler's. -/
theorem PortStep.ok {d : Deployment Address} {c : PortCall} {w w' : World Address}
    {value : c.Value} (step : PortStep d c w (.ok value) w') :
    ∃ input, handlePort d input c w = (.ok value, w') := by
  generalize reply_eq : (Except.ok value : PortReply c) = reply at step
  cases step with
  | handled input => exact ⟨input, rfl⟩
  | refused => cases reply_eq
  | lost => cases reply_eq

end Calls

/-! ## Kinds of calls -/

/-- A claim that was granted. -/
def isGrant : Performed PortCall PortReply → Bool
  | ⟨.claimCycle _ _, .ok true⟩ => true
  | _ => false

/-- A claim that found its key taken. -/
def isDenial : Performed PortCall PortReply → Bool
  | ⟨.claimCycle _ _, .ok false⟩ => true
  | _ => false

def isClaim (performed : Performed PortCall PortReply) : Bool :=
  performed.call.port = .claimCycle

theorem isClaim_of_isGrant {performed : Performed PortCall PortReply}
    (grant : isGrant performed = true) : isClaim performed = true := by
  unfold isGrant at grant
  split at grant
  · rfl
  · cases grant

theorem isClaim_of_isDenial {performed : Performed PortCall PortReply}
    (denial : isDenial performed = true) : isClaim performed = true := by
  unfold isDenial at denial
  split at denial
  · rfl
  · cases denial

def isPublish (performed : Performed PortCall PortReply) : Bool :=
  performed.call.port = .publishProof

/-- A snapshot, a proof, a cached id or an audit entry. -/
def isSave (performed : Performed PortCall PortReply) : Bool :=
  performed.call.port ∈ [Port.saveSnapshot, .saveProof, .setLatest, .appendAudit]

/-! ## What a position says -/

namespace Phase

/-- The claim is still to be made. -/
def isUnclaimed : Phase → Bool
  | acquiring | claiming => true
  | _ => false

end Phase

/-- What the flags of a run say in each phase. -/
structure Progress.Sound (q : Progress) : Prop where
  unclaimed : q.phase.isUnclaimed = true → q.claimed = false
  preparing : ∀ resolved, q.phase = .preparing resolved → q.claimed = true ∧ q.attempted = false
  recording : ∀ chainID, q.phase = .published chainID ∨ q.phase = .saved chainID ∨
    q.phase = .cached chainID → q.claimed = true
  complete : q.phase = .releasing true ∨ q.phase = .ended true → q.claimed = true
  attempted : q.attempted = true → q.claimed = true

section Moves

variable {tenantID requestKey : String} {q q' : Progress} {c : PortCall} {reply : PortReply c}

theorem Progress.sound_start : Progress.start.Sound := by
  constructor <;> simp [Progress.start]

/-- A call that prepares is none of the kinds that the flags count. -/
theorem PortCall.Prepares.kind {tenantID : String} {c : PortCall} (prepares : c.Prepares tenantID)
    (reply : PortReply c) :
    isGrant ⟨c, reply⟩ = false ∧ isDenial ⟨c, reply⟩ = false ∧ isClaim ⟨c, reply⟩ = false ∧
      isPublish ⟨c, reply⟩ = false := by
  cases c <;> first
    | exact prepares.elim
    | exact ⟨rfl, rfl, rfl, rfl⟩

theorem Moves.sound (moves : Moves tenantID requestKey q c reply q') (sound : q.Sound) :
    q'.Sound := by
  obtain ⟨unclaimed, preparing, recording, complete, attempted⟩ := sound
  cases moves <;> constructor <;> simp_all [Phase.isUnclaimed]

/-- A grant, and nothing else, raises the first flag. -/
theorem Moves.claimed_eq (moves : Moves tenantID requestKey q c reply q') :
    q'.claimed = (q.claimed || isGrant ⟨c, reply⟩) := by
  cases moves with
  | prepared prepares | stopped prepares => simp [(prepares.kind _).1]
  | @denied _ _ reply denied =>
      rcases reply with err | _ | _
      · simp [isGrant]
      · simp [isGrant]
      · exact absurd rfl denied
  | _ => simp [isGrant]

/-- A call of `PublishProof`, and nothing else, raises the second. -/
theorem Moves.attempted_eq (moves : Moves tenantID requestKey q c reply q') :
    q'.attempted = (q.attempted || isPublish ⟨c, reply⟩) := by
  cases moves with
  | prepared prepares | stopped prepares => simp [(prepares.kind _).2.2.2]
  | _ => simp [isPublish, PortCall.port]

/-- A call of `ClaimCycle` ends the unclaimed phases. -/
theorem Moves.unclaimed_of_claim (moves : Moves tenantID requestKey q c reply q')
    (claims : isClaim ⟨c, reply⟩ = true) : q.phase = .claiming ∧ q'.phase.isUnclaimed = false := by
  cases moves with
  | prepared prepares | stopped prepares => simp [(prepares.kind _).2.2.1] at claims
  | granted | denied => exact ⟨rfl, rfl⟩
  | _ => simp [isClaim, PortCall.port] at claims

theorem Moves.unclaimed_mono (moves : Moves tenantID requestKey q c reply q')
    (past : q.phase.isUnclaimed = false) : q'.phase.isUnclaimed = false := by
  cases moves with
  | acquired | excluded | granted | denied => cases past
  | _ => rfl

/-- Only claimed runs publish, and only before they published. -/
theorem Moves.publishes (moves : Moves tenantID requestKey q c reply q')
    (publishes : isPublish ⟨c, reply⟩ = true) : ∃ resolved, q.phase = .preparing resolved := by
  cases moves with
  | prepared prepares | stopped prepares => simp [(prepares.kind _).2.2.2] at publishes
  | published | unpublished => exact ⟨_, rfl⟩
  | _ => simp [isPublish, PortCall.port] at publishes

/-- Only claimed runs save. -/
theorem Moves.saves (moves : Moves tenantID requestKey q c reply q') (sound : q.Sound)
    (saves : isSave ⟨c, reply⟩ = true) : q.claimed = true := by
  cases moves with
  | prepared | stopped => exact (sound.preparing _ rfl).1
  | saved | unsaved => exact sound.recording _ (.inl rfl)
  | cached | uncached => exact sound.recording _ (.inr (.inl rfl))
  | audited | unaudited => exact sound.recording _ (.inr (.inr rfl))
  | _ => simp [isSave, PortCall.port] at saves

end Moves

/-! ## Any number of runs -/

section Runs

variable {ι σ : Type} {tenantID requestKey : ι → String} {shared : σ}

/-- Runs of the cycle on one shared state, none of which has called anything yet. -/
def cyclePool (tenantID requestKey : ι → String) (shared : σ) :
    Pool ι PortCall PortReply (Result Unit) σ :=
  ⟨fun i => Cycle.run (tenantID i) (requestKey i), shared⟩

/-- The protocols of the runs. -/
abbrev cycleProtocols (tenantID requestKey : ι → String) (i : ι) :
    Protocol PortCall PortReply Progress :=
  cycleProtocol (tenantID i) (requestKey i)

theorem cyclePool_abstracts (tenantID requestKey : ι → String) (shared : σ) :
    Protocol.Abstracts (cycleProtocols tenantID requestKey) (fun _ => Returns)
      (fun _ => Progress.start) (cyclePool tenantID requestKey shared) :=
  fun i => run_follows (tenantID i) (requestKey i)

variable [DecidableEq ι] {act : ι → (c : PortCall) → σ → PortReply c → σ → Prop}
  {env : σ → σ → Prop} {labels : List (Option (ι × Performed PortCall PortReply))}
  {later : (ι → Progress) × σ}

theorem sound_of_run
    (run : Run (Protocol.Interleaved (cycleProtocols tenantID requestKey) act env)
      (fun _ => Progress.start, shared) labels later) (i : ι) : (later.1 i).Sound :=
  Protocol.position_invariant (motive := fun _ q => q.Sound) run (fun _ => Progress.sound_start)
    (fun _ _ _ reply sound allowed => (moves_of_allowed allowed reply).sound sound) i

theorem mem_grants_iff
    (run : Run (Protocol.Interleaved (cycleProtocols tenantID requestKey) act env)
      (fun _ => Progress.start, shared) labels later) (i : ι) :
    i ∈ callers isGrant labels ↔ (later.1 i).claimed = true :=
  mem_callers_iff Progress.claimed run (fun _ => rfl)
    (fun _ _ _ reply allowed => (moves_of_allowed allowed reply).claimed_eq) i

theorem mem_publishes_iff
    (run : Run (Protocol.Interleaved (cycleProtocols tenantID requestKey) act env)
      (fun _ => Progress.start, shared) labels later) (i : ι) :
    i ∈ callers isPublish labels ↔ (later.1 i).attempted = true :=
  mem_callers_iff Progress.attempted run (fun _ => rfl)
    (fun _ _ _ reply allowed => (moves_of_allowed allowed reply).attempted_eq) i

/-- No run is granted twice. -/
theorem nodup_grants
    (run : Run (Protocol.Interleaved (cycleProtocols tenantID requestKey) act env)
      (fun _ => Progress.start, shared) labels later) : (callers isGrant labels).Nodup := by
  refine nodup_callers Progress.claimed run (fun _ => rfl)
    (fun _ _ _ reply allowed => (moves_of_allowed allowed reply).claimed_eq) ?_
  intro _ reached before i c reply allowed grant
  refine (sound_of_run before i).unclaimed ?_
  rw [((moves_of_allowed allowed reply).unclaimed_of_claim (isClaim_of_isGrant grant)).1]
  rfl

/-- No run calls `PublishProof` twice. -/
theorem nodup_publishes
    (run : Run (Protocol.Interleaved (cycleProtocols tenantID requestKey) act env)
      (fun _ => Progress.start, shared) labels later) : (callers isPublish labels).Nodup := by
  refine nodup_callers Progress.attempted run (fun _ => rfl)
    (fun _ _ _ reply allowed => (moves_of_allowed allowed reply).attempted_eq) ?_
  intro _ reached before i c reply allowed publishes
  obtain ⟨resolved, phase⟩ := (moves_of_allowed allowed reply).publishes publishes
  exact ((sound_of_run before i).preparing resolved phase).2

/-- Only runs that were granted their claim save anything. -/
theorem claimed_of_mem_saves
    (run : Run (Protocol.Interleaved (cycleProtocols tenantID requestKey) act env)
      (fun _ => Progress.start, shared) labels later) {i : ι}
    (called : i ∈ callers isSave labels) : (later.1 i).claimed = true := by
  have kept {q q' : Progress} {c : PortCall} {reply : PortReply c} {tenant key : String}
      (moves : Moves tenant key q c reply q') (claimed : q.claimed = true) : q'.claimed = true := by
    rw [moves.claimed_eq, claimed, Bool.true_or]
  refine flag_of_mem_callers Progress.claimed run ?_ ?_ called
  · intro _ reached before i c reply allowed saves
    have moves := moves_of_allowed allowed reply
    exact kept moves (moves.saves (sound_of_run before i) saves)
  · exact fun i q c reply allowed claimed => kept (moves_of_allowed allowed reply) claimed

end Runs

end Solva.Orchestrator
