import Solva.Orchestrator.RequestKey
import Solva.Orchestrator.Scheduler

/-!
# One scheduled proof a window

The claim that should let one attempt of a tenant and window through is made under a key
that carries the attempt's number, so a second attempt is granted a key of its own, and a
transaction whose attempt was given up may still be applied. A window is published at most
once as long as an instance tries again only after an attempt that was granted its key and
handed no transaction to the network.
-/

namespace Solva.Orchestrator

open Bn254 Codec Transition

/-! ## Attempts and their transactions -/

namespace Slot

/-- Whether two attempts are for one tenant and window. -/
def sameWindow (a b : Slot) : Bool :=
  a.tenant = b.tenant ∧ a.window = b.window

/-- Another attempt of the window. -/
def at_ (slot : Slot) (attempt : Nat) : Slot :=
  { slot with attempt := attempt }

@[simp]
theorem at_at (slot : Slot) (m n : Nat) : (slot.at_ m).at_ n = slot.at_ n :=
  rfl

@[simp]
theorem at_attempt (slot : Slot) : slot.at_ slot.attempt = slot :=
  rfl

@[simp]
theorem attempt_at (slot : Slot) (n : Nat) : (slot.at_ n).attempt = n :=
  rfl

/-- Two attempts of one window differ in their numbers only. -/
theorem at_eq_of_sameWindow {a b : Slot} (same : a.sameWindow b = true) (n : Nat) :
    a.at_ n = b.at_ n := by
  simp only [sameWindow, decide_eq_true_eq] at same
  rw [at_, at_, same.1, same.2]

theorem sameWindow_trans {a b c : Slot} (left : a.sameWindow c = true)
    (right : b.sameWindow c = true) : a.sameWindow b = true := by
  simp only [sameWindow, decide_eq_true_eq] at left right ⊢
  exact ⟨left.1.trans right.1.symm, left.2.trans right.2.symm⟩

end Slot

/-- What a call of `PublishProof` handed to the network, and whether it was applied. -/
structure Flight (ι : Type) where
  owner : ι
  slot : Slot
  target : TenantContract
  proof : List UInt8
  pub : PublicInputs
  landed : Bool

/-- The world, the attempts that were granted their key, the calls of `PublishProof` that
handed a transaction to the network, and the instances that were killed. -/
structure SchedulerState (ι Address : Type) where
  world : World Address
  granted : List (ι × Slot)
  flights : List (Flight ι)
  killed : ι → Bool

section Steps

variable {ι Address : Type} [DecidableEq ι]

/-- Whether an attempt has handed a transaction to the network. -/
def SchedulerState.flew (s : SchedulerState ι Address) (i : ι) (slot : Slot) : Bool :=
  s.flights.any fun flight => flight.owner = i && flight.slot = slot

/-- Whether the contract of a target recorded a proof. -/
def publishedOn (before after : World Address) (target : TenantContract) : Bool :=
  (before.registries target.contractID).latest < (after.registries target.contractID).latest

/-- The flights after one of them was applied. -/
def Flight.land (owner : ι) (slot : Slot) (recorded : Bool) (flight : Flight ι) : Flight ι :=
  if flight.owner = owner ∧ flight.slot = slot then
    { flight with landed := flight.landed || recorded }
  else flight

/-- The calls that are none of a cycle's. -/
def SchedulerCall.waits : SchedulerCall → Bool
  | .port _ _ => false
  | _ => true

/-- A call of an instance; ticks, tenants and waits come as they may. A call of
`PublishProof` ends with an error before it hands a transaction to the network, or hands
one over: then it may report an error all the same, with the transaction applied or not. -/
inductive SchedulerStep (d : Deployment Address) (i : ι) :
    (c : SchedulerCall) → SchedulerState ι Address → SchedulerReply c →
      SchedulerState ι Address → Prop
  | waits {c : SchedulerCall} {s : SchedulerState ι Address} {reply : SchedulerReply c} :
      c.waits = true → SchedulerStep d i c s reply s
  | port {slot : Slot} {c : PortCall} {s : SchedulerState ι Address} {reply : PortReply c}
      {w : World Address} :
      c.port ≠ .publishProof → PortStep d c s.world reply w →
      SchedulerStep d i (.port slot c) s reply { s with
        world := w
        granted := if isGrant ⟨c, reply⟩ then s.granted ++ [(i, slot)] else s.granted }
  | unsubmitted {slot : Slot} {target : TenantContract} {proof : List UInt8}
      {pub : PublicInputs} {s : SchedulerState ι Address} {err : GoError} :
      SchedulerStep d i (.port slot (.publishProof target proof pub)) s (.error err) s
  | submitted {slot : Slot} {target : TenantContract} {proof : List UInt8} {pub : PublicInputs}
      {s : SchedulerState ι Address} {reply : Result U64} {w : World Address} :
      PortStep d (.publishProof target proof pub) s.world reply w →
      SchedulerStep d i (.port slot (.publishProof target proof pub)) s reply { s with
        world := w
        flights := s.flights ++ [⟨i, slot, target, proof, pub, publishedOn s.world w target⟩] }

/-- What happens between calls: an instance is killed, a transaction is applied, however
late and however often, or the world changes; claims that Postgres stored stay. -/
inductive SchedulerMoves (d : Deployment Address) :
    SchedulerState ι Address → SchedulerState ι Address → Prop
  | kills {s : SchedulerState ι Address} (i : ι) :
      SchedulerMoves d s { s with killed := Function.update s.killed i true }
  | lands {s : SchedulerState ι Address} {flight : Flight ι} {ledgerTime : U64}
      {w : World Address} :
      flight ∈ s.flights →
      w = (publishAtomic d ledgerTime flight.target flight.proof flight.pub s.world).2 →
      SchedulerMoves d s { s with
        world := w
        flights := s.flights.map
          (Flight.land flight.owner flight.slot (publishedOn s.world w flight.target)) }
  | changes {s : SchedulerState ι Address} {w : World Address} :
      s.world.db.cycleRuns ⊆ w.db.cycleRuns → SchedulerMoves d s { s with world := w }

omit [DecidableEq ι] in
/-- An instance that was killed calls nothing more; a publish that was under way may still
be carried out. -/
def aliveGuard (i : ι) (c : SchedulerCall) (s : SchedulerState ι Address) : Bool :=
  !s.killed i ||
    match c with
    | .port _ (.publishProof _ _ _) => true
    | _ => false

/-- The condition on the calls: an instance starts another attempt of a window only if its
attempt before was granted its key and handed no transaction to the network. -/
def retryGuard (i : ι) (c : SchedulerCall) (s : SchedulerState ι Address) : Bool :=
  aliveGuard i c s &&
    match c with
    | .port slot (.acquireCycleLock _) =>
        slot.attempt = 0 ||
          (i, slot.at_ (slot.attempt - 1)) ∈ s.granted && !s.flew i (slot.at_ (slot.attempt - 1))
    | _ => true

/-! ## The invariant -/

/-- The attempt before, if there is one, was granted its key and handed over nothing. -/
def Retryable (s : SchedulerState ι Address) (i : ι) (slot : Slot) : Prop :=
  ∀ n, slot.attempt = n + 1 → (i, slot.at_ n) ∈ s.granted ∧ s.flew i (slot.at_ n) = false

/-- The attempts of a window belong to one instance, and only the last of them has handed
a transaction to the network. -/
structure OncePerWindow (positions : ι → SchedulerPosition) (s : SchedulerState ι Address) :
    Prop where
  claimed : ∀ i slot, (i, slot) ∈ s.granted → ⟨slot.tenant, slot.requestKey⟩ ∈ s.world.db.cycleRuns
  owned : ∀ i j slot, (i, slot) ∈ s.granted → (j, slot) ∈ s.granted → i = j
  retried : ∀ i slot, (i, slot) ∈ s.granted → ∀ n < slot.attempt,
    (i, slot.at_ n) ∈ s.granted ∧ s.flew i (slot.at_ n) = false
  flown : ∀ flight ∈ s.flights, (flight.owner, flight.slot) ∈ s.granted
  unique : s.flights.Pairwise fun a b => a.slot.sameWindow b.slot = false
  claiming : ∀ i slot q, positions i = .running slot q → q.phase = .claiming → Retryable s i slot
  preparing : ∀ i slot q, positions i = .running slot q →
    ∀ resolved, q.phase = .preparing resolved →
      (i, slot) ∈ s.granted ∧ s.flew i slot = false ∧
        ∀ n, slot.attempt < n → (i, slot.at_ n) ∉ s.granted

theorem flew_eq_false {s : SchedulerState ι Address} {i : ι} {slot : Slot} :
    s.flew i slot = false ↔ ∀ flight ∈ s.flights, flight.owner = i → flight.slot ≠ slot := by
  simp [SchedulerState.flew]

section Port

variable {d : Deployment Address} {positions : ι → SchedulerPosition} {s : SchedulerState ι Address}
  {i : ι} {slot : Slot} {c : PortCall} {reply : PortReply c} {w : World Address} {q' : Progress}

/-- Where the instance itself stands after a call, and where the others stand. -/
theorem position_after {j : ι} {slot' : Slot} {q : Progress}
    (position : Function.update positions i (.settle slot q') j = .running slot' q) :
    (j = i ∧ slot' = slot ∧ q = q') ∨ (j ≠ i ∧ positions j = .running slot' q) := by
  by_cases same : j = i
  · subst same
    rw [Function.update_self] at position
    rcases eq_of_settle position with ⟨rfl, rfl⟩
    exact .inl ⟨rfl, rfl, rfl⟩
  · rw [Function.update_of_ne same] at position
    exact .inr ⟨same, position⟩

/-- A call that is granted nothing and hands over nothing. -/
theorem OncePerWindow.quiet (held : OncePerWindow positions s)
    (kept : s.world.db.cycleRuns ⊆ w.db.cycleRuns)
    (claiming : q'.phase = .claiming → Retryable s i slot)
    (preparing : ∀ resolved, q'.phase = .preparing resolved →
      ∃ q before, positions i = .running slot q ∧ q.phase = .preparing before) :
    OncePerWindow (Function.update positions i (.settle slot q')) { s with world := w } where
  claimed j slot' mem := kept (held.claimed j slot' mem)
  owned := held.owned
  retried := held.retried
  flown := held.flown
  unique := held.unique
  claiming j slot' q position phase := by
    rcases position_after position with ⟨rfl, rfl, rfl⟩ | ⟨_, before⟩
    · exact claiming phase
    · exact held.claiming j slot' q before phase
  preparing j slot' q position resolved phase := by
    rcases position_after position with ⟨rfl, rfl, rfl⟩ | ⟨_, before⟩
    · rcases preparing resolved phase with ⟨p, found, standing, p_phase⟩
      exact held.preparing j slot' p standing found p_phase
    · exact held.preparing j slot' q before resolved phase

/-- A key that is granted is the next of its instance, and was free. -/
theorem OncePerWindow.grant (held : OncePerWindow positions s)
    (retryable : Retryable s i slot)
    (free : ⟨slot.tenant, slot.requestKey⟩ ∉ s.world.db.cycleRuns)
    (taken : ⟨slot.tenant, slot.requestKey⟩ ∈ w.db.cycleRuns)
    (kept : s.world.db.cycleRuns ⊆ w.db.cycleRuns) (unclaiming : q'.phase ≠ .claiming) :
    OncePerWindow (Function.update positions i (.settle slot q'))
      { s with world := w, granted := s.granted ++ [(i, slot)] } := by
  have new (j : ι) : (j, slot) ∉ s.granted := fun mem => free (held.claimed j slot mem)
  have mem_iff (j : ι) (slot' : Slot) : (j, slot') ∈ s.granted ++ [(i, slot)] ↔
      (j, slot') ∈ s.granted ∨ j = i ∧ slot' = slot := by simp
  refine ⟨fun j slot' mem => ?_, fun j k slot' mem mem' => ?_, fun j slot' mem n lt => ?_, ?_,
    held.unique, fun j slot' q position phase n attempt_eq => ?_,
    fun j slot' q position resolved phase => ?_⟩
  · rcases (mem_iff j slot').mp mem with old | ⟨rfl, rfl⟩
    · exact kept (held.claimed j slot' old)
    · exact taken
  · rcases (mem_iff j slot').mp mem with old | ⟨rfl, rfl⟩ <;>
      rcases (mem_iff k slot').mp mem' with old' | ⟨rfl, same⟩
    · exact held.owned j k slot' old old'
    · exact absurd (same ▸ old) (new j)
    · exact absurd old' (new k)
    · rfl
  · rw [mem_iff]
    rcases (mem_iff j slot').mp mem with old | ⟨rfl, rfl⟩
    · exact (held.retried j slot' old n lt).imp_left .inl
    · -- the attempt before was granted, and with it all the others before
      obtain ⟨m, attempt_eq⟩ : ∃ m, slot'.attempt = m + 1 := ⟨slot'.attempt - 1, by omega⟩
      rcases retryable m attempt_eq with ⟨before, unflown⟩
      rcases Nat.lt_or_eq_of_le (by omega : n ≤ m) with earlier | rfl
      · exact (held.retried j _ before n earlier).imp_left .inl
      · exact ⟨.inl before, unflown⟩
  · exact fun flight mem => List.mem_append_left _ (held.flown flight mem)
  · rcases position_after position with ⟨rfl, rfl, rfl⟩ | ⟨_, before⟩
    · exact absurd phase unclaiming
    · exact (held.claiming j slot' q before phase n attempt_eq).imp_left
        (List.mem_append_left _)
  · rcases position_after position with ⟨rfl, rfl, rfl⟩ | ⟨ne, before⟩
    · refine ⟨by simp, flew_eq_false.mpr fun flight mem own same => ?_, fun n lt mem => ?_⟩
      · exact new j (own ▸ same ▸ held.flown flight mem)
      · rcases (mem_iff j _).mp mem with old | ⟨_, same⟩
        · have earlier := (held.retried j _ old slot'.attempt lt).1
          exact new j earlier
        · have attempt_eq := congrArg Slot.attempt same
          rw [Slot.attempt_at] at attempt_eq
          omega
    · rcases held.preparing j slot' q before resolved phase with ⟨mem, unflown, last⟩
      refine ⟨List.mem_append_left _ mem, unflown, fun n lt mem => ?_⟩
      rcases (mem_iff j _).mp mem with old | ⟨same, _⟩
      · exact last n lt old
      · exact ne same

/-- Any other flight of the window would be one of the instance's own attempts, and those
before handed over nothing while those after were not granted their keys. -/
theorem OncePerWindow.alone (held : OncePerWindow positions s) (mem : (i, slot) ∈ s.granted)
    (unflown : s.flew i slot = false)
    (last : ∀ n, slot.attempt < n → (i, slot.at_ n) ∉ s.granted) {flight : Flight ι}
    (flight_mem : flight ∈ s.flights) : flight.slot.sameWindow slot = false := by
  rw [← Bool.not_eq_true]
  intro same
  have first {j : ι} {slot' : Slot} (granted : (j, slot') ∈ s.granted) :
      (j, slot'.at_ 0) ∈ s.granted := by
    rcases Nat.eq_zero_or_pos slot'.attempt with zero | pos
    · rw [← zero, Slot.at_attempt]
      exact granted
    · exact (held.retried j slot' granted 0 pos).1
  have granted := held.flown flight flight_mem
  have own : flight.owner = i := by
    refine held.owned _ _ (slot.at_ 0) ?_ (first mem)
    rw [← Slot.at_eq_of_sameWindow same]
    exact first granted
  have slot_eq : flight.slot = slot.at_ flight.slot.attempt := by
    rw [← Slot.at_eq_of_sameWindow same, Slot.at_attempt]
  rcases Nat.lt_trichotomy flight.slot.attempt slot.attempt with before | equal | after
  · exact flew_eq_false.mp (held.retried i slot mem _ before).2 flight flight_mem own slot_eq
  · rw [equal, Slot.at_attempt] at slot_eq
    exact flew_eq_false.mp unflown flight flight_mem own slot_eq
  · rw [own, slot_eq] at granted
    exact last _ after granted

/-- A transaction is handed to the network by the attempt that was granted its key last. -/
theorem OncePerWindow.fly (held : OncePerWindow positions s) {q : Progress}
    {resolved : Option TenantContract} (standing : positions i = .running slot q)
    (phase : q.phase = .preparing resolved) (kept : s.world.db.cycleRuns ⊆ w.db.cycleRuns)
    (unclaiming : q'.phase ≠ .claiming) (unprepared : ∀ resolved, q'.phase ≠ .preparing resolved)
    {flight : Flight ι} (owner : flight.owner = i) (slot_eq : flight.slot = slot) :
    OncePerWindow (Function.update positions i (.settle slot q'))
      { s with world := w, flights := s.flights ++ [flight] } := by
  rcases held.preparing i slot q standing resolved phase with ⟨mem, unflown, last⟩
  have flew_iff (j : ι) (slot' : Slot) :
      ({ s with world := w, flights := s.flights ++ [flight] } : SchedulerState ι Address).flew
        j slot' = false ↔ s.flew j slot' = false ∧ (j = i → slot' ≠ slot) := by
    rw [flew_eq_false, flew_eq_false]
    simp only [List.mem_append, List.mem_singleton, or_imp, forall_and, forall_eq, owner, slot_eq]
    exact Iff.and Iff.rfl ⟨fun ne same => (ne same.symm).symm, fun ne same => (ne same.symm).symm⟩
  refine ⟨fun j slot' mem => kept (held.claimed j slot' mem), held.owned,
    fun j slot' mem' n lt => ?_, fun other other_mem => ?_, ?_,
    fun j slot' q position phase n attempt_eq => ?_, fun j slot' q position resolved phase => ?_⟩
  · refine (held.retried j slot' mem' n lt).imp_right fun before =>
      (flew_iff j _).mpr ⟨before, ?_⟩
    rintro rfl same
    have attempt_eq := congrArg Slot.attempt same
    rw [Slot.attempt_at] at attempt_eq
    refine last slot'.attempt (by omega) ?_
    rw [← same, Slot.at_at, Slot.at_attempt]
    exact mem'
  · rcases List.mem_append.mp other_mem with old | new
    · exact held.flown other old
    · rw [List.mem_singleton.mp new, owner, slot_eq]
      exact mem
  · refine List.pairwise_append.mpr
      ⟨held.unique, List.pairwise_singleton _ _, fun other other_mem new new_mem => ?_⟩
    rw [List.mem_singleton.mp new_mem, slot_eq]
    exact held.alone mem unflown last other_mem
  · rcases position_after position with ⟨rfl, rfl, rfl⟩ | ⟨ne, before⟩
    · exact absurd phase unclaiming
    · refine (held.claiming j slot' q before phase n attempt_eq).imp_right fun unflown =>
        (flew_iff j _).mpr ⟨unflown, fun same => absurd same ne⟩
  · rcases position_after position with ⟨rfl, rfl, rfl⟩ | ⟨ne, before⟩
    · exact absurd phase (unprepared resolved)
    · rcases held.preparing j slot' q before resolved phase with ⟨mem', unflown', last'⟩
      exact ⟨mem', (flew_iff j _).mpr ⟨unflown', fun same => absurd same ne⟩, last'⟩

end Port

/-! ## One step -/

section Call

variable {d : Deployment Address} {positions : ι → SchedulerPosition}
  {s next : SchedulerState ι Address} {i : ι} {slot : Slot} {c : PortCall} {reply : PortReply c}
  {p q' : Progress}

/-- Only `AcquireCycleLock` leads to the claim. -/
theorem Moves.acquires {tenantID requestKey : String}
    (moves : Moves tenantID requestKey p c reply q') (claiming : q'.phase = .claiming) :
    c = .acquireCycleLock tenantID := by
  cases moves with
  | acquired => rfl
  | _ => cases claiming

/-- Only a grant leads to the preparations, which go on until the publish. -/
theorem Moves.prepares {tenantID requestKey : String}
    (moves : Moves tenantID requestKey p c reply q') {resolved : Option TenantContract}
    (preparing : q'.phase = .preparing resolved) :
    isGrant ⟨c, reply⟩ = true ∨ ∃ before, p.phase = .preparing before := by
  cases moves with
  | granted => exact .inl rfl
  | resolved | prepared => exact .inr ⟨_, rfl⟩
  | _ => cases preparing

/-- A call that is granted its key is made where it claims. -/
theorem Moves.grants {tenantID requestKey : String} (moves : Moves tenantID requestKey p c reply q')
    (grant : isGrant ⟨c, reply⟩ = true) : p.phase = .claiming ∧ q'.phase = .preparing none := by
  cases moves with
  | granted => exact ⟨rfl, rfl⟩
  | denied denied =>
      rename_i reply
      rcases reply with err | _ | _
      · cases grant
      · cases grant
      · exact absurd rfl denied
  | prepared prepares | stopped prepares => simp [(prepares.kind _).1] at grant
  | _ => cases grant

/-- After a publish a cycle neither claims nor prepares. -/
theorem Moves.done {tenantID requestKey : String} (moves : Moves tenantID requestKey p c reply q')
    (publishes : isPublish ⟨c, reply⟩ = true) :
    q'.phase ≠ .claiming ∧ ∀ resolved, q'.phase ≠ .preparing resolved := by
  cases moves with
  | published | unpublished => simp
  | prepared prepares | stopped prepares => simp [(prepares.kind _).2.2.2] at publishes
  | _ => cases publishes

omit [DecidableEq ι] in
/-- A cycle that is past its start runs in its slot. -/
theorem running_of_phase
    (stands : positions i = .idle ∨ positions i = .running slot (positions i).progress)
    (started : (positions i).progress.phase ≠ .acquiring) :
    positions i = .running slot (positions i).progress := by
  rcases stands with idle | running
  · rw [idle] at started
    exact absurd rfl started
  · exact running

/-- A cycle is started in turn. -/
theorem retryable_of_guard {tenantID : String}
    (met : retryGuard i (.port slot (.acquireCycleLock tenantID)) s = true) :
    Retryable s i slot := by
  intro n attempt_eq
  have turn := (Bool.and_eq_true_iff.mp met).2
  simpa [attempt_eq] using turn

/-- A call of a cycle keeps the invariant. -/
theorem OncePerWindow.call (held : OncePerWindow positions s)
    (stands : positions i = .idle ∨ positions i = .running slot (positions i).progress)
    (moves : Moves slot.tenantID slot.requestKey (positions i).progress c reply q')
    (met : retryGuard i (.port slot c) s = true)
    (step : SchedulerStep d i (.port slot c) s reply next) :
    OncePerWindow (Function.update positions i (.settle slot q')) next := by
  cases step with
  | waits no => cases no
  | unsubmitted =>
      rcases moves.done rfl with ⟨unclaiming, unprepared⟩
      exact held.quiet (List.Subset.refl _) (fun phase => absurd phase unclaiming)
        fun resolved phase => absurd phase (unprepared resolved)
  | submitted acted =>
      rcases moves.publishes rfl with ⟨resolved, phase⟩
      rcases moves.done rfl with ⟨unclaiming, unprepared⟩
      have running := running_of_phase stands (by rw [phase]; exact Phase.noConfusion)
      exact held.fly running phase acted.cycleRuns.1 unclaiming unprepared rfl rfl
  | @port _ _ _ _ w other acted =>
      by_cases grant : isGrant ⟨c, reply⟩ = true
      · rw [if_pos grant]
        rcases moves.grants grant with ⟨claiming, preparing⟩
        have running := running_of_phase stands (by rw [claiming]; exact Phase.noConfusion)
        rcases granted_row moves grant acted with ⟨tid, tenant, free, taken⟩
        rw [Slot.tenantID, toUUID_fromUUID, Except.ok.injEq] at tenant
        subst tenant
        exact held.grant (held.claiming i slot _ running claiming) free taken acted.cycleRuns.1
          (by rw [preparing]; exact Phase.noConfusion)
      · rw [if_neg grant]
        refine held.quiet acted.cycleRuns.1 (fun claiming => ?_) fun resolved preparing => ?_
        · cases moves.acquires claiming
          exact retryable_of_guard met
        · rcases moves.prepares preparing with granted | ⟨before, phase⟩
          · exact absurd granted grant
          · exact ⟨_, before, running_of_phase stands (by rw [phase]; exact Phase.noConfusion),
              phase⟩

end Call

/-! ## Every run -/

/-- An instance that has not started, for a number of ticks each; one that is restarted is
another. -/
def schedulerPool (ticks : ι → Nat) (shared : SchedulerState ι Address) :
    Pool ι SchedulerCall SchedulerReply Unit (SchedulerState ι Address) :=
  ⟨fun i => Scheduler.run (ticks i), shared⟩

variable {d : Deployment Address}

@[simp]
theorem Flight.owner_land (i : ι) (slot : Slot) (recorded : Bool) (flight : Flight ι) :
    (flight.land i slot recorded).owner = flight.owner := by
  unfold land
  split <;> rfl

@[simp]
theorem Flight.slot_land (i : ι) (slot : Slot) (recorded : Bool) (flight : Flight ι) :
    (flight.land i slot recorded).slot = flight.slot := by
  unfold land
  split <;> rfl

/-- What happens between calls keeps the invariant. -/
theorem OncePerWindow.moved {positions : ι → SchedulerPosition} {s next : SchedulerState ι Address}
    (held : OncePerWindow positions s) (moved : SchedulerMoves d s next) :
    OncePerWindow positions next := by
  cases moved with
  | kills i => exact { held with }
  | changes kept => exact { held with claimed := fun i slot mem => kept (held.claimed i slot mem) }
  | @lands flight ledgerTime w mem world_eq =>
      have same : w.db = s.world.db := by
        rw [world_eq]
        rcases publishAtomic_cases d ledgerTime flight.target flight.proof flight.pub s.world with
          ⟨id, pi, _, published⟩ | ⟨err, failed⟩
        · rw [published, World.db_published]
        · rw [failed]
      let landed := s.flights.map
        (Flight.land flight.owner flight.slot (publishedOn s.world w flight.target))
      have flew_eq (i : ι) (slot : Slot) :
          ({ s with world := w, flights := landed } : SchedulerState ι Address).flew i slot =
            s.flew i slot := by
        simp [SchedulerState.flew, landed, List.any_map, Function.comp_def]
      refine ⟨fun i slot mem => ?_, held.owned, fun i slot mem n lt => ?_,
        fun other other_mem => ?_, ?_, fun i slot q position phase n attempt_eq => ?_,
        fun i slot q position resolved phase => ?_⟩
      · rw [same]
        exact held.claimed i slot mem
      · rw [flew_eq]
        exact held.retried i slot mem n lt
      · rcases List.mem_map.mp other_mem with ⟨before, before_mem, rfl⟩
        rw [Flight.owner_land, Flight.slot_land]
        exact held.flown before before_mem
      · exact List.pairwise_map.mpr (by simpa using held.unique)
      · rw [flew_eq]
        exact held.claiming i slot q position phase n attempt_eq
      · rw [flew_eq]
        exact held.preparing i slot q position resolved phase

/-- The invariant holds in every state reached. -/
theorem oncePerWindow_of_run {w : World Address}
    {labels : List (Option (ι × Performed SchedulerCall SchedulerReply))}
    {later : (ι → SchedulerPosition) × SchedulerState ι Address}
    (run : Run (Protocol.Interleaved (fun _ => schedulerProtocol)
        (Pool.guarded retryGuard (SchedulerStep d)) (SchedulerMoves d))
      (fun _ => .idle, ⟨w, [], [], fun _ => false⟩) labels later) :
    OncePerWindow later.1 later.2 := by
  refine run.invariant (motive := fun state => OncePerWindow state.1 state.2) ?_ ?_
  · constructor <;> simp
  · intro source label target held step
    cases step with
    | @thread positions shared next i c reply allowed acted =>
        rcases acted with ⟨met, effect⟩
        cases c with
        | port slot c =>
            rcases port_of_allowed allowed reply with ⟨stands, moves⟩
            exact held.call stands moves met effect
        | nextTick | listTenants | backoff =>
            cases effect
            exact (Function.update_eq_self i positions).symm ▸ held
    | env moved => exact held.moved moved

/-- The cycles of a tenant and window that published. -/
def publishedFor (tenant : Uuid) (window : Time) (s : SchedulerState ι Address) : List Slot :=
  (s.flights.filter fun flight =>
    flight.landed && flight.slot.sameWindow ⟨tenant, window, 0⟩).map Flight.slot

/-- In every run whose instances try again only after an attempt that was granted its key
and handed over nothing, every tenant and window is published by at most one cycle. -/
theorem window_published_once (d : Deployment Address) (ticks : ι → Nat) (w : World Address)
    {labels : List (Option (ι × Performed SchedulerCall SchedulerReply))}
    {target : Pool ι SchedulerCall SchedulerReply Unit (SchedulerState ι Address)}
    (run : Run (Pool.Interleaved (Pool.guarded retryGuard (SchedulerStep d)) (SchedulerMoves d))
      (schedulerPool ticks ⟨w, [], [], fun _ => false⟩) labels target)
    (tenant : Uuid) (window : Time) :
    (publishedFor tenant window target.shared).length ≤ 1 := by
  have abstracts : Protocol.Abstracts (fun _ => schedulerProtocol) (fun _ q _ => q = .idle)
      (fun _ => .idle)
      (schedulerPool ticks (⟨w, [], [], fun _ => false⟩ : SchedulerState ι Address)) :=
    fun i => Scheduler.run_idles (ticks i)
  rcases Protocol.exists_run abstracts run with ⟨positions, run, _⟩
  have distinct := (oncePerWindow_of_run run).unique.filter fun flight =>
    flight.landed && flight.slot.sameWindow ⟨tenant, window, 0⟩
  unfold publishedFor
  rw [List.length_map]
  cases publishes : target.shared.flights.filter fun flight =>
    flight.landed && flight.slot.sameWindow ⟨tenant, window, 0⟩
  case nil => simp
  case cons first others =>
    cases others with
    | nil => simp
    | cons second rest =>
        have both (flight : Flight ι) (mem : flight ∈ first :: second :: rest) :
            flight.slot.sameWindow ⟨tenant, window, 0⟩ = true := by
          rw [← publishes] at mem
          exact (Bool.and_eq_true_iff.mp (List.mem_filter.mp mem).2).2
        rw [publishes] at distinct
        have different := (List.pairwise_cons.mp distinct).1 second List.mem_cons_self
        rw [Slot.sameWindow_trans (both first (by simp)) (both second (by simp))] at different
        cases different

end Steps

/-! ## A retry after a publish -/

/-- What is due at the first tick of 2026. -/
def sampleTick : Time :=
  1767225600

section Samples

variable {ι : Type}

/-- The state after a call that was carried out, or failed with its reply lost. -/
def SchedulerState.after (i : ι) (slot : Slot) (c : PortCall) (reply : PortReply c)
    (w : World Unit) (s : SchedulerState ι Unit) : SchedulerState ι Unit :=
  match c with
  | .publishProof target proof pub => { s with
      world := w
      flights := s.flights ++ [⟨i, slot, target, proof, pub, publishedOn s.world w target⟩] }
  | c => { s with
      world := w
      granted := if isGrant ⟨c, reply⟩ then s.granted ++ [(i, slot)] else s.granted }

/-- A call that is carried out. -/
def instanceCall (i : ι) : (c : SchedulerCall) → SchedulerState ι Unit →
    SchedulerReply c × SchedulerState ι Unit
  | .nextTick, s => (some sampleTick, s)
  | .listTenants, s => (.ok [⟨sampleTenant, "pro"⟩], s)
  | .port slot c, s =>
      let (reply, w) := handlePort sampleDeployment (sampleInput "12" 1) c s.world
      (reply, s.after i slot c reply w)
  | .backoff _, s => (false, s)

/-- A port call that is refused; a transaction that was handed over stays in flight. -/
def timedOutCall (i : ι) : (c : SchedulerCall) → SchedulerState ι Unit →
    SchedulerReply c × SchedulerState ι Unit
  | .port slot c, s =>
      let reply : PortReply c := .error (.plain "context deadline exceeded")
      (reply, s.after i slot c reply s.world)
  | c, s => instanceCall i c s

/-- The context is cancelled. -/
def cancelledCall (i : ι) : (c : SchedulerCall) → SchedulerState ι Unit →
    SchedulerReply c × SchedulerState ι Unit
  | .backoff _, s => (true, s)
  | c, s => instanceCall i c s

theorem after_step (i : ι) (slot : Slot) {c : PortCall} {s : SchedulerState ι Unit}
    {reply : PortReply c} {w : World Unit} (acted : PortStep sampleDeployment c s.world reply w) :
    SchedulerStep sampleDeployment i (.port slot c) s reply (s.after i slot c reply w) := by
  cases c with
  | publishProof target proof pub => exact .submitted acted
  | _ => exact .port (by simp [PortCall.port]) acted

theorem instanceCall_step (i : ι) (c : SchedulerCall) (s : SchedulerState ι Unit) :
    SchedulerStep sampleDeployment i c s (instanceCall i c s).1 (instanceCall i c s).2 := by
  cases c with
  | port slot c => exact after_step i slot (.handled (sampleInput "12" 1) c s.world)
  | nextTick | listTenants | backoff => exact .waits rfl

theorem timedOutCall_step (i : ι) (c : SchedulerCall) (s : SchedulerState ι Unit) :
    SchedulerStep sampleDeployment i c s (timedOutCall i c s).1 (timedOutCall i c s).2 := by
  cases c with
  | port slot c => exact after_step i slot (.refused c _ s.world)
  | nextTick | listTenants | backoff => exact .waits rfl

theorem cancelledCall_step (i : ι) (c : SchedulerCall) (s : SchedulerState ι Unit) :
    SchedulerStep sampleDeployment i c s (cancelledCall i c s).1 (cancelledCall i c s).2 := by
  cases c with
  | port slot c => exact after_step i slot (.handled (sampleInput "12" 1) c s.world)
  | nextTick | listTenants | backoff => exact .waits rfl

variable [DecidableEq ι]

/-- The first transaction that was handed over is applied. -/
def landsFirst (s : SchedulerState ι Unit) : SchedulerState ι Unit :=
  match s.flights with
  | [] => s
  | flight :: _ =>
      let w := (publishAtomic sampleDeployment 100 flight.target flight.proof flight.pub s.world).2
      { s with
        world := w
        flights := s.flights.map
          (Flight.land flight.owner flight.slot (publishedOn s.world w flight.target)) }

theorem landsFirst_moves (s : SchedulerState ι Unit) :
    SchedulerMoves sampleDeployment s (landsFirst s) := by
  unfold landsFirst
  split
  · exact .changes (List.Subset.refl _)
  · rename_i flight rest flights_eq
    exact .lands (flights_eq ▸ List.mem_cons_self) rfl

/-- Instances that are started for one tick. -/
def instances (ι : Type) [DecidableEq ι] :
    Pool ι SchedulerCall SchedulerReply Unit (SchedulerState ι Unit) :=
  schedulerPool (fun _ => 1) ⟨sampleWorld, [], [], fun _ => false⟩

end Samples

/-- The prover of instance 0 is down; instance 1 finds the key taken; instance 0 tries
again, gives up on its publish and stops, and the transaction is applied. -/
def proverDown :
    List (Pool.Turn (Fin 2) SchedulerCall SchedulerReply (SchedulerState (Fin 2) Unit)) :=
  List.replicate 8 (.thread 0 (instanceCall 0)) ++ .thread 0 (timedOutCall 0) ::
    .thread 0 (instanceCall 0) :: List.replicate 5 (.thread 1 (instanceCall 1)) ++
      (List.replicate 9 (.thread 0 (instanceCall 0)) ++
        [.thread 0 (timedOutCall 0), .thread 0 (instanceCall 0), .thread 0 (cancelledCall 0),
          .env landsFirst])

/-- The row of the only instance is not saved, and the second attempt publishes again. -/
def unsavedProof :
    List (Pool.Turn Unit SchedulerCall SchedulerReply (SchedulerState Unit Unit)) :=
  List.replicate 11 (.thread () (instanceCall ())) ++ .thread () (timedOutCall ()) ::
    List.replicate 12 (.thread () (instanceCall ()))

/-- The only instance gives up on its publish and tries again; its first transaction is
applied after the second. -/
def lateLanding :
    List (Pool.Turn Unit SchedulerCall SchedulerReply (SchedulerState Unit Unit)) :=
  List.replicate 10 (.thread () (instanceCall ())) ++ .thread () (timedOutCall ()) ::
    List.replicate 12 (.thread () (instanceCall ())) ++ [.env landsFirst]

theorem proverDown_admitted : ∀ turn ∈ proverDown,
    turn.Admitted (SchedulerStep sampleDeployment) (SchedulerMoves sampleDeployment) := by
  intro turn mem
  simp only [proverDown, List.mem_append, List.mem_replicate, List.mem_cons, List.not_mem_nil,
    or_false] at mem
  rcases mem with (⟨_, rfl⟩ | rfl | rfl | ⟨_, rfl⟩) | ⟨_, rfl⟩ | rfl | rfl | rfl | rfl
  · exact instanceCall_step 0
  · exact timedOutCall_step 0
  · exact instanceCall_step 0
  · exact instanceCall_step 1
  · exact instanceCall_step 0
  · exact timedOutCall_step 0
  · exact instanceCall_step 0
  · exact cancelledCall_step 0
  · exact landsFirst_moves

theorem unsavedProof_admitted : ∀ turn ∈ unsavedProof,
    turn.Admitted (SchedulerStep sampleDeployment) (SchedulerMoves sampleDeployment) := by
  intro turn mem
  simp only [unsavedProof, List.mem_append, List.mem_replicate, List.mem_cons] at mem
  rcases mem with ⟨_, rfl⟩ | rfl | ⟨_, rfl⟩
  · exact instanceCall_step ()
  · exact timedOutCall_step ()
  · exact instanceCall_step ()

theorem lateLanding_admitted : ∀ turn ∈ lateLanding,
    turn.Admitted (SchedulerStep sampleDeployment) (SchedulerMoves sampleDeployment) := by
  intro turn mem
  simp only [lateLanding, List.mem_append, List.mem_replicate, List.mem_cons, List.not_mem_nil,
    or_false] at mem
  rcases mem with (⟨_, rfl⟩ | rfl | ⟨_, rfl⟩) | rfl
  · exact instanceCall_step ()
  · exact timedOutCall_step ()
  · exact instanceCall_step ()
  · exact landsFirst_moves

theorem window_published_once_sample :
    publishedFor sampleTenant sampleTick ((instances (Fin 2)).after proverDown).shared =
        [⟨sampleTenant, sampleTick, 1⟩] ∧
      (publishedFor sampleTenant sampleTick
        ((instances (Fin 2)).after proverDown).shared).length ≤ 1 := by
  have played : publishedFor sampleTenant sampleTick
        ((instances (Fin 2)).after proverDown).shared = [⟨sampleTenant, sampleTick, 1⟩] ∧
      (instances (Fin 2)).meets retryGuard proverDown = true := by decide +kernel
  rcases Pool.exists_run_after_guarded proverDown_admitted played.2 with ⟨_, run⟩
  exact ⟨played.1, window_published_once sampleDeployment (fun _ => 1) sampleWorld run
    sampleTenant sampleTick⟩

/-- Both attempts of the only instance publish, whether the first one's row is not saved
or its transaction is applied late. -/
theorem window_published_twice :
    (∀ turns ∈ [unsavedProof, lateLanding],
        publishedFor sampleTenant sampleTick ((instances Unit).after turns).shared =
          [⟨sampleTenant, sampleTick, 0⟩, ⟨sampleTenant, sampleTick, 1⟩] ∧
        ∃ labels, Run (Pool.Interleaved (Pool.guarded aliveGuard (SchedulerStep sampleDeployment))
          (SchedulerMoves sampleDeployment)) (instances Unit) labels
            ((instances Unit).after turns)) ∧
      ¬ ∀ labels target, Run (Pool.Interleaved (Pool.guarded aliveGuard
          (SchedulerStep sampleDeployment)) (SchedulerMoves sampleDeployment)) (instances Unit)
            labels target →
        (publishedFor sampleTenant sampleTick target.shared).length ≤ 1 := by
  have unsaved : publishedFor sampleTenant sampleTick
        ((instances Unit).after unsavedProof).shared =
          [⟨sampleTenant, sampleTick, 0⟩, ⟨sampleTenant, sampleTick, 1⟩] ∧
      (instances Unit).meets aliveGuard unsavedProof = true := by decide +kernel
  have late : publishedFor sampleTenant sampleTick
        ((instances Unit).after lateLanding).shared =
          [⟨sampleTenant, sampleTick, 0⟩, ⟨sampleTenant, sampleTick, 1⟩] ∧
      (instances Unit).meets aliveGuard lateLanding = true := by decide +kernel
  have run := Pool.exists_run_after_guarded unsavedProof_admitted unsaved.2
  have lateRun := Pool.exists_run_after_guarded lateLanding_admitted late.2
  refine ⟨fun turns mem => ?_, fun once => ?_⟩
  · simp only [List.mem_cons, List.not_mem_nil, or_false] at mem
    rcases mem with rfl | rfl
    · exact ⟨unsaved.1, run⟩
    · exact ⟨late.1, lateRun⟩
  · rcases run with ⟨labels, run⟩
    have short := once labels _ run
    rw [unsaved.1] at short
    exact absurd short (by decide)

end Solva.Orchestrator
