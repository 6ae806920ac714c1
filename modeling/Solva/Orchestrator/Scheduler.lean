import Solva.Orchestrator.CycleProtocol

/-!
# The scheduler

An instance waits for the hourly tick, lists the tenants, and runs a cycle for each
that is due, with up to three attempts under keys of their own. Between its cycles
an instance calls no port of theirs; `run_follows` says so for any number of ticks.
-/

namespace Solva.Orchestrator

open Codec Transition

/-! ## Time -/

/-- A moment in UTC, in seconds since 1970. What is below a second is never read. -/
abbrev Time : Type :=
  Int

namespace Time

/-- `Hour()`. -/
def hour (t : Time) : Int :=
  t % 86400 / 3600

/-- Year, month and day in the Gregorian calendar, counted from the 1st of March. -/
def date (t : Time) : Int × Int × Int :=
  let days := t / 86400 + 719468
  let era := days / 146097
  let dayOfEra := days % 146097
  let yearOfEra := (dayOfEra - dayOfEra / 1460 + dayOfEra / 36524 - dayOfEra / 146096) / 365
  let dayOfYear := dayOfEra - (365 * yearOfEra + yearOfEra / 4 - yearOfEra / 100)
  let monthFromMarch := (5 * dayOfYear + 2) / 153
  let day := dayOfYear - (153 * monthFromMarch + 2) / 5 + 1
  let month := if monthFromMarch < 10 then monthFromMarch + 3 else monthFromMarch - 9
  (yearOfEra + era * 400 + (if month ≤ 2 then 1 else 0), month, day)

/-- A number with leading zeros. -/
def padded (width : Nat) (value : Int) : String :=
  let digits := toString value.natAbs
  (if value < 0 then "-" else "") ++
    String.ofList (List.replicate (width - digits.length) '0') ++ digits

/-- `Format(time.RFC3339)` of a moment in UTC. -/
def formatRFC3339 (t : Time) : String :=
  let (year, month, day) := t.date
  padded 4 year ++ "-" ++ padded 2 month ++ "-" ++ padded 2 day ++ "T" ++ padded 2 t.hour ++ ":" ++
    padded 2 (t % 3600 / 60) ++ ":" ++ padded 2 (t % 60) ++ "Z"

example : formatRFC3339 1767225600 = "2026-01-01T00:00:00Z" := by decide

end Time

/-- `tickInterval` in seconds. -/
def tickInterval : Int :=
  3600

/-- `maxRetries`. -/
def maxRetries : Nat :=
  3

/-- `baseBackoff` in nanoseconds. -/
def baseBackoff : Nat :=
  1000000000

/-- `maxBackoff` in nanoseconds. -/
def maxBackoff : Nat :=
  30 * 1000000000

/-- `backoffDelay`, whose floating point is exact for the attempts there are. -/
def backoffDelay (attempt : Nat) : Nat :=
  min (baseBackoff * 2 ^ attempt) maxBackoff

/-- `CadenceForPlan`: whether a plan is hourly, and whether it is daily. -/
def cadenceForPlan (plan : String) : Bool × Bool :=
  if plan = "pro" then (true, false)
  else if plan = "free" then (false, true)
  else (true, false)

/-- `isDue`. -/
def isDue (plan : String) (t : Time) : Bool :=
  (cadenceForPlan plan).1 || t.hour = 0

/-! ## Calls -/

/-- A tenant's row as `ListTenants` reads it. -/
structure Tenant where
  id : Uuid
  plan : String

/-- An attempt at a scheduled cycle: the tick truncated to the hour is its window. -/
structure Slot where
  tenant : Uuid
  window : Time
  attempt : Nat
  deriving DecidableEq

namespace Slot

/-- The tenant's id as `ListTenants` writes it: all instances spell it alike. -/
def tenantID (slot : Slot) : String :=
  fromUUID slot.tenant

/-- The request key of an attempt. -/
def requestKey (slot : Slot) : String :=
  "scheduled:" ++ slot.tenantID ++ ":" ++ slot.window.formatRFC3339 ++ ":attempt" ++
    toString slot.attempt

end Slot

/-- What an instance waits for, and the port calls of its cycles. -/
inductive SchedulerCall where
  | nextTick
  | listTenants
  | port (slot : Slot) (c : PortCall)
  | backoff (delay : Nat)

/-- The replies: no tick is a cancelled context, as is a true reply to a backoff. -/
abbrev SchedulerReply : SchedulerCall → Type
  | .nextTick => Option Time
  | .listTenants => Result (List Tenant)
  | .port _ c => PortReply c
  | .backoff _ => Bool

abbrev SchedulerM (α : Type) : Type :=
  Program SchedulerCall SchedulerReply α

/-! ## The scheduler -/

namespace Scheduler

/-- The cycle of an attempt. -/
def runCycle (slot : Slot) : SchedulerM (Result Unit) :=
  (Cycle.run slot.tenantID slot.requestKey).embed (.port slot) fun _ reply => reply

/-- The loop of `runWithRetry`, from the attempts that are left. -/
def attempts (tenant : Uuid) (window : Time) : List Nat → SchedulerM Unit
  | [] => pure ()
  | attempt :: rest => do
      let result ← runCycle ⟨tenant, window, attempt⟩
      match result with
      | .ok () => pure ()
      | .error err =>
          if err.is .cycleInProgress || err.is .duplicateCycle then pure ()
          else
            let cancelled : Bool ← Program.perform (SchedulerCall.backoff (backoffDelay attempt))
            if cancelled then pure () else attempts tenant window rest

/-- `runWithRetry`. -/
def runWithRetry (tenant : Uuid) (tick : Time) : SchedulerM Unit :=
  attempts tenant (tick - tick % tickInterval) (List.range maxRetries)

/-- The loop of `tick` over the tenants. -/
def runDue (t : Time) : List Tenant → SchedulerM Unit
  | [] => pure ()
  | tenant :: rest => do
      if isDue tenant.plan t then runWithRetry tenant.id t
      runDue t rest

/-- `tick`. -/
def tick (t : Time) : SchedulerM Unit := do
  let listed : Result (List Tenant) ← Program.perform SchedulerCall.listTenants
  match listed with
  | .error _ => pure ()
  | .ok tenants => runDue t tenants

/-- `Run`, up to a number of ticks. -/
def run : Nat → SchedulerM Unit
  | 0 => pure ()
  | ticks + 1 => do
      let next : Option Time ← Program.perform SchedulerCall.nextTick
      match next with
      | none => pure ()
      | some t =>
          tick t
          run ticks

end Scheduler

/-! ## Where an instance stands -/

/-- Between cycles, or within one. -/
inductive SchedulerPosition where
  | idle
  | running (slot : Slot) (progress : Progress)

namespace SchedulerPosition

/-- Where a cycle that got so far leaves its instance. -/
def settle (slot : Slot) (progress : Progress) : SchedulerPosition :=
  match progress.phase with
  | .ended _ => .idle
  | _ => .running slot progress

/-- How far the cycle has got that a port call belongs to. -/
def progress : SchedulerPosition → Progress
  | idle => Progress.start
  | running _ progress => progress

end SchedulerPosition

/-- The protocol of an instance: its port calls are those of one cycle after another. -/
def schedulerProtocol : Protocol SchedulerCall SchedulerReply SchedulerPosition where
  allowed q c :=
    match q, c with
    | .idle, .port slot c =>
        (cycleProtocol slot.tenantID slot.requestKey).allowed Progress.start c
    | .idle, _ => True
    | .running current progress, .port slot c =>
        slot = current ∧ (cycleProtocol slot.tenantID slot.requestKey).allowed progress c
    | .running _ _, _ => False
  next q c reply :=
    match c, reply with
    | .port slot c, reply => .settle slot (q.progress.next c reply)
    | _, _ => q

/-- A port call moves the cycle it belongs to, which is the current one if there is any. -/
theorem port_of_allowed {q : SchedulerPosition} {slot : Slot} {c : PortCall}
    (allowed : schedulerProtocol.allowed q (.port slot c)) (reply : PortReply c) :
    (q = .idle ∨ q = .running slot q.progress) ∧
      Moves slot.tenantID slot.requestKey q.progress c reply (q.progress.next c reply) := by
  cases q with
  | idle =>
      have first : (cycleProtocol slot.tenantID slot.requestKey).allowed Progress.start c := allowed
      exact ⟨.inl rfl, moves_of_allowed first reply⟩
  | running current progress =>
      rcases allowed with ⟨rfl, allowed⟩
      exact ⟨.inr rfl, moves_of_allowed allowed reply⟩

/-- A program that leaves its instance between cycles. -/
def Idles {α : Type} (program : SchedulerM α) : Prop :=
  schedulerProtocol.Follows (fun q _ => q = .idle) .idle program

theorem Idles.bind {α β : Type} {program : SchedulerM α} {next : α → SchedulerM β}
    (first : Idles program) (second : ∀ value, Idles (next value)) : Idles (program >>= next) := by
  apply Protocol.Follows.bind first
  rintro q value rfl
  exact second value

theorem idles_pure {α : Type} (value : α) : Idles (pure value : SchedulerM α) :=
  rfl

/-- A cycle that may call something has not ended. -/
theorem settle_of_allowed {slot : Slot} {q : Progress} {c : PortCall} {tenantID requestKey : String}
    (allowed : (cycleProtocol tenantID requestKey).allowed q c) :
    SchedulerPosition.settle slot q = .running slot q := by
  rcases q with ⟨phase, claimed, attempted⟩
  cases phase with
  | ended complete => exact allowed.elim
  | _ => rfl

theorem eq_of_settle {slot slot' : Slot} {q q' : Progress}
    (settled : SchedulerPosition.settle slot q = .running slot' q') : slot = slot' ∧ q = q' := by
  rcases q with ⟨phase, claimed, attempted⟩
  cases phase <;> cases settled <;> exact ⟨rfl, rfl⟩

namespace Scheduler

/-- A cycle starts and ends between cycles. -/
theorem runCycle_idles (slot : Slot) : Idles (runCycle slot) := by
  have follows := run_follows slot.tenantID slot.requestKey
  refine ⟨follows.1, fun reply => ?_⟩
  apply (follows.2 reply).embed (SchedulerPosition.settle slot)
  case allowed =>
    intro q c allowed
    rw [settle_of_allowed allowed]
    exact ⟨rfl, allowed⟩
  case next =>
    intro q c reply allowed
    rw [settle_of_allowed allowed]
    rfl
  case admits =>
    rintro ⟨phase, claimed, attempted⟩ result ⟨complete, rfl, _⟩
    rfl

theorem attempts_idles (tenant : Uuid) (window : Time) (left : List Nat) :
    Idles (attempts tenant window left) := by
  induction left with
  | nil => exact idles_pure ()
  | cons attempt rest ih =>
      apply (runCycle_idles _).bind
      intro result
      cases result with
      | ok _ => exact idles_pure ()
      | error err =>
          dsimp only
          split
          · exact idles_pure ()
          · refine ⟨trivial, fun cancelled => ?_⟩
            cases cancelled with
            | true => exact idles_pure ()
            | false => exact ih

theorem runDue_idles (t : Time) (tenants : List Tenant) : Idles (runDue t tenants) := by
  induction tenants with
  | nil => exact idles_pure ()
  | cons tenant rest ih =>
      unfold runDue
      split
      · exact (attempts_idles _ _ _).bind fun _ => ih
      · exact ih

/-- An instance runs one cycle at a time, and ends between cycles. -/
theorem run_idles (ticks : Nat) : Idles (run ticks) := by
  induction ticks with
  | zero => exact idles_pure ()
  | succ ticks ih =>
      refine ⟨trivial, fun next => ?_⟩
      cases next with
      | none => exact idles_pure ()
      | some t =>
          apply Idles.bind _ fun _ => ih
          refine ⟨trivial, fun listed => ?_⟩
          cases listed with
          | error err => exact idles_pure ()
          | ok tenants => exact runDue_idles t tenants

end Scheduler

end Solva.Orchestrator
