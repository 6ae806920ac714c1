import Solva.Contract.Core
import Solva.Transition.Core

/-!
# Lifetimes of the registry's entries

Storage on the ledger is rented: every entry lives until some ledger and is archived
after it, and a call that needs an archived entry fails. The registry extends what it
writes and the proofs it reads, but only when less than a week is left, so a week is
all that an access guarantees.
-/

namespace Solva.Contract

open Bn254 Codec Transition

def LEDGERS_PER_DAY : Nat :=
  17280

def TTL_BUMP : Nat :=
  30 * LEDGERS_PER_DAY

def TTL_THRESHOLD : Nat :=
  7 * LEDGERS_PER_DAY

/-- `extend_ttl`: the new last ledger of an entry. -/
def extendTtl (sequence liveUntil threshold extendTo : Nat) : Nat :=
  if liveUntil - sequence < threshold then sequence + extendTo else liveUntil

/-- Extending never shortens a life. -/
theorem le_extendTtl {sequence liveUntil threshold extendTo : Nat}
    (threshold_le : threshold ≤ extendTo) :
    liveUntil ≤ extendTtl sequence liveUntil threshold extendTo := by
  unfold extendTtl
  split
  · omega
  · exact Nat.le_refl _

/-- After extending, the threshold is left. -/
theorem threshold_le_extendTtl {sequence liveUntil threshold extendTo : Nat}
    (positive : 0 < threshold) (threshold_le : threshold ≤ extendTo) :
    sequence + threshold ≤ extendTtl sequence liveUntil threshold extendTo := by
  unfold extendTtl
  split
  · omega
  · omega

/-! ## The ledger -/

/-- The registry's storage with the last ledger of its instance and of each proof. -/
structure Ledger (Address : Type) where
  storage : Storage Address
  sequence : Nat
  instanceUntil : Nat
  proofUntil : U64 → Nat

/-- How a transaction fails. -/
inductive Failure where
  | archived
  | err (error : Error)
  | trap
  deriving DecidableEq

variable {Address : Type}

namespace Ledger

/-- `extend_ttl` on a proof. -/
def extendProof (w : Ledger Address) (id : U64) : Ledger Address :=
  { w with
    proofUntil := Function.update w.proofUntil id
      (extendTtl w.sequence (w.proofUntil id) TTL_THRESHOLD TTL_BUMP) }

@[simp]
theorem proofUntil_extendProof (w : Ledger Address) (id : U64) : (w.extendProof id).proofUntil id =
    extendTtl w.sequence (w.proofUntil id) TTL_THRESHOLD TTL_BUMP :=
  Function.update_self ..

theorem proofUntil_extendProof_of_ne (w : Ledger Address) {id k : U64} (other : k ≠ id) :
    (w.extendProof id).proofUntil k = w.proofUntil k :=
  Function.update_of_ne other ..

/-- `extend_ttl` on the instance. -/
def extendInstance (w : Ledger Address) : Ledger Address :=
  { w with instanceUntil := extendTtl w.sequence w.instanceUntil TTL_THRESHOLD TTL_BUMP }

/-- A new proof entry, with the lifetime that the network gives it. -/
def create (w : Ledger Address) (id : U64) (initial : Nat) : Ledger Address :=
  { w with proofUntil := Function.update w.proofUntil id (w.sequence + initial) }

/-- `get_proof`. -/
def getProof (w : Ledger Address) (id : U64) : Except Failure (ProofMeta × Ledger Address) :=
  match Contract.getProof id w.storage with
  | .ok entry =>
      if w.sequence ≤ w.proofUntil id then .ok (entry, w.extendProof id) else .error .archived
  | .err error => .error (.err error)
  | .trap => .error .trap

/-- The proof that `publish_proof` reads for its growth baseline. -/
def readPrevious (w : Ledger Address) : Except Failure (Ledger Address) :=
  if w.storage.latest = 0 then .ok w else (w.getProof w.storage.latest).map Prod.snd

/-- `publish_proof`. A call that is turned away leaves no trace, whatever it read. -/
def publishProof (verifier : Verifier) (env : Env Address) (proof : List UInt8) (pi : PubInputs)
    (initial : Nat) (w : Ledger Address) : Except Failure (U64 × Ledger Address) :=
  match Contract.publishProof verifier env proof pi w.storage with
  | (.ok id, storage) =>
      w.readPrevious.map fun w =>
        (id, (({ w with storage := storage }.create id initial).extendProof id).extendInstance)
  | (.err error, _) => .error (.err error)
  | (.trap, _) => .error .trap

/-- `get_latest_proof`. -/
def getLatestProof (w : Ledger Address) : Except Failure (ProofMeta × Ledger Address) :=
  match w.storage.latestId with
  | some id => w.getProof id
  | none => .error (.err .notInitialized)

/-- `verify_inclusion`. -/
def verifyInclusion (hash4 : Hash4) (id : U64) (idHash : Bytes32) (balance : U128)
    (path : List PathNode) (w : Ledger Address) : Except Failure (Bool × Ledger Address) := do
  let (_, next) ← w.getProof id
  match Contract.verifyInclusion hash4 id idHash balance path w.storage with
  | .ok included => .ok (included, next)
  | .err error => .error (.err error)
  | .trap => .error .trap

/-- A call loads the contract's instance first. -/
def invoke {α : Type} (body : Ledger Address → Except Failure (α × Ledger Address))
    (w : Ledger Address) : Except Failure (α × Ledger Address) :=
  if w.sequence ≤ w.instanceUntil then body w else .error .archived

end Ledger

/-! ## Timelines -/

/-- Ledgers close, or a transaction is carried out. -/
inductive Event (Address : Type) where
  | advance (ledgers : Nat)
  | publishProof (env : Env Address) (proof : List UInt8) (pi : PubInputs) (initial : Nat)
  | getProof (id : U64)
  | getLatestProof
  | verifyInclusion (id : U64) (idHash : Bytes32) (balance : U128) (path : List PathNode)

namespace Event

def isPublish : Event Address → Bool
  | publishProof .. => true
  | _ => false

/-- The proofs that an event writes or reads. -/
def touches (s : Storage Address) : Event Address → U64 → Bool
  | advance _, _ => false
  | publishProof .., k => k = s.latest ∧ s.latest ≠ 0 ∨ k.val = s.latest.val + 1
  | getProof id, k => k = id
  | getLatestProof, k => k = s.latest
  | verifyInclusion id .., k => k = id

end Event

section Timelines

variable (hash4 : Hash4) (verifier : Verifier)

/-- The ledger after an event, if it succeeds. -/
def Ledger.exec (w : Ledger Address) : Event Address → Except Failure (Ledger Address)
  | .advance ledgers => .ok { w with sequence := w.sequence + ledgers }
  | .publishProof env proof pi initial =>
      (w.invoke (Ledger.publishProof verifier env proof pi initial)).map Prod.snd
  | .getProof id => (w.invoke fun w => w.getProof id).map Prod.snd
  | .getLatestProof => (w.invoke Ledger.getLatestProof).map Prod.snd
  | .verifyInclusion id idHash balance path =>
      (w.invoke (Ledger.verifyInclusion hash4 id idHash balance path)).map Prod.snd

/-- A successful event. -/
def Timeline : Step (Ledger Address) (Event Address) :=
  fun w event next => w.exec hash4 verifier event = .ok next

end Timelines

/-! ## What an event does -/

section Effects

variable {hash4 : Hash4} {verifier : Verifier} {w next : Ledger Address} {event : Event Address}

theorem Ledger.getProof_eq_ok {id : U64} {entry : ProofMeta}
    (read : w.getProof id = .ok (entry, next)) :
    w.storage.proofs id = some entry ∧ w.sequence ≤ w.proofUntil id ∧ next = w.extendProof id := by
  unfold Ledger.getProof Contract.getProof at read
  cases found : w.storage.proofs id with
  | none => simp [found] at read
  | some stored =>
      simp only [found] at read
      split at read
      · rename_i live
        cases read
        exact ⟨rfl, live, rfl⟩
      · cases read

/-- Reading the previous proof extends it, once there is one. -/
theorem Ledger.readPrevious_eq_ok (read : w.readPrevious = .ok next) :
    next = if w.storage.latest = 0 then w else w.extendProof w.storage.latest := by
  unfold Ledger.readPrevious at read
  split at read
  · rename_i genesis
    cases read
    rw [if_pos genesis]
  · rename_i later
    cases got : w.getProof w.storage.latest with
    | error failure => simp [got, Except.map] at read
    | ok result =>
        simp only [got, Except.map, Except.ok.injEq] at read
        rcases Ledger.getProof_eq_ok got with ⟨_, _, next_eq⟩
        rw [if_neg later, ← read, next_eq]

/-- What a successful event leaves. -/
inductive Ledger.Effect (w : Ledger Address) : Event Address → Ledger Address → Prop
  | advanced (ledgers : Nat) :
      Effect w (.advance ledgers) { w with sequence := w.sequence + ledgers }
  | read {event : Event Address} (id : U64) : event.isPublish = false →
      (∀ k, event.touches w.storage k = decide (k = id)) → Effect w event (w.extendProof id)
  | published {env : Env Address} {proof : List UInt8} {pi : PubInputs} {initial : Nat} {id : U64}
      {middle : Ledger Address} : id.val = w.storage.latest.val + 1 →
      (middle = if w.storage.latest = 0 then w else w.extendProof w.storage.latest) →
      Effect w (.publishProof env proof pi initial)
        ((({ middle with storage := record env id pi w.storage }.create id initial).extendProof
          id).extendInstance)

theorem Ledger.invoke_eq_ok {α : Type} {body : Ledger Address → Except Failure (α × Ledger Address)}
    (called : (w.invoke body).map Prod.snd = .ok next) :
    w.sequence ≤ w.instanceUntil ∧ ∃ value, body w = .ok (value, next) := by
  unfold Ledger.invoke at called
  split at called
  · rename_i live
    cases done : body w with
    | error failure => simp [done, Except.map] at called
    | ok result =>
        simp only [done, Except.map, Except.ok.injEq] at called
        exact ⟨live, result.1, by rw [← called]⟩
  · cases called

theorem effect_of_timeline (taken : Timeline hash4 verifier w event next) :
    w.Effect event next := by
  unfold Timeline at taken
  cases event with
  | advance ledgers =>
      cases taken
      exact Ledger.Effect.advanced ledgers
  | getProof id =>
      rcases Ledger.invoke_eq_ok taken with ⟨_, entry, read⟩
      rw [(Ledger.getProof_eq_ok read).2.2]
      exact Ledger.Effect.read id rfl fun _ => rfl
  | getLatestProof =>
      rcases Ledger.invoke_eq_ok taken with ⟨_, entry, read⟩
      unfold Ledger.getLatestProof at read
      cases latest : w.storage.latestId with
      | none => simp [latest] at read
      | some id =>
          rw [latest] at read
          rw [(Ledger.getProof_eq_ok read).2.2]
          exact Ledger.Effect.read id rfl fun k => by
            simp [Event.touches, Storage.latest, latest]
  | verifyInclusion id idHash balance path =>
      rcases Ledger.invoke_eq_ok taken with ⟨_, included, verified⟩
      unfold Ledger.verifyInclusion at verified
      cases read : w.getProof id with
      | error failure => simp [read, bind, Except.bind] at verified
      | ok result =>
          rcases result with ⟨entry, middle⟩
          have middle_eq := (Ledger.getProof_eq_ok read).2.2
          simp only [read, bind, Except.bind] at verified
          split at verified
          · cases verified
            rw [middle_eq]
            exact Ledger.Effect.read id rfl fun _ => rfl
          · cases verified
          · cases verified
  | publishProof env proof pi initial =>
      rcases Ledger.invoke_eq_ok taken with ⟨_, id, published⟩
      unfold Ledger.publishProof at published
      split at published
      · rename_i id' storage recorded
        rcases publishProof_eq_ok_iff.mp recorded with ⟨_, id_eq, rfl⟩
        cases read : w.readPrevious with
        | error failure => simp [read, Except.map] at published
        | ok middle =>
            simp only [read, Except.map, Except.ok.injEq, Prod.mk.injEq] at published
            rcases published with ⟨rfl, rfl⟩
            exact Ledger.Effect.published id_eq (Ledger.readPrevious_eq_ok read)
      · cases published
      · cases published

namespace Ledger.Effect

theorem sequence_le (effect : w.Effect event next) : w.sequence ≤ next.sequence := by
  cases effect with
  | advanced ledgers => exact Nat.le_add_right _ _
  | read id _ _ => exact Nat.le_refl _
  | published _ middle_eq =>
      subst middle_eq
      split <;> exact Nat.le_refl _

/-- A transaction closes no ledger. -/
theorem sequence_eq (effect : w.Effect event next) {k : U64}
    (touched : event.touches w.storage k = true) : next.sequence = w.sequence := by
  cases effect with
  | advanced ledgers => cases touched
  | read id _ _ => rfl
  | published _ middle_eq =>
      subst middle_eq
      split <;> rfl

/-- What an event touches has a week left. -/
theorem touched (effect : w.Effect event next) {k : U64}
    (touched : event.touches w.storage k = true) :
    next.sequence + TTL_THRESHOLD ≤ next.proofUntil k := by
  have extended (liveUntil : Nat) :
      w.sequence + TTL_THRESHOLD ≤ extendTtl w.sequence liveUntil TTL_THRESHOLD TTL_BUMP :=
    threshold_le_extendTtl (by decide) (by decide)
  rw [effect.sequence_eq touched]
  cases effect with
  | advanced ledgers => cases touched
  | read id _ touches =>
      rw [touches, decide_eq_true_eq] at touched
      rw [touched, proofUntil_extendProof]
      exact extended _
  | @published env proof pi initial id middle id_eq middle_eq =>
      simp only [extendInstance, extendProof, create]
      by_cases new : k = id
      · have sequence_eq : middle.sequence = w.sequence := by
          subst middle_eq
          split <;> rfl
        rw [new, Function.update_self, sequence_eq]
        exact extended _
      · rw [Function.update_of_ne new, Function.update_of_ne new, middle_eq]
        simp only [Event.touches, decide_eq_true_eq] at touched
        rcases touched with ⟨rfl, later⟩ | next_id
        · rw [if_neg later, proofUntil_extendProof]
          exact extended _
        · exact absurd (Fin.ext (next_id.trans id_eq.symm)) new

/-- What an event does not touch lives as long as before. -/
theorem untouched (effect : w.Effect event next) {k : U64}
    (untouched : event.touches w.storage k = false) : next.proofUntil k = w.proofUntil k := by
  cases effect with
  | advanced ledgers => rfl
  | read id _ touches =>
      rw [touches, decide_eq_false_iff_not] at untouched
      exact proofUntil_extendProof_of_ne w untouched
  | @published env proof pi initial id middle id_eq middle_eq =>
      simp only [Event.touches, decide_eq_false_iff_not, not_or, not_and, not_not] at untouched
      have old : k ≠ id := fun equal => untouched.2 (by rw [equal, id_eq])
      simp only [extendInstance, extendProof, create]
      rw [Function.update_of_ne old, Function.update_of_ne old, middle_eq]
      split
      · rfl
      · rename_i later
        have other : k ≠ w.storage.latest := fun equal => later (untouched.1 equal)
        exact proofUntil_extendProof_of_ne w other

/-- After a publish the instance and the new entry, the latest, have a week left. -/
theorem publishes (effect : w.Effect event next) (publishes : event.isPublish = true) :
    next.sequence + TTL_THRESHOLD ≤ next.instanceUntil ∧
      next.sequence + TTL_THRESHOLD ≤ next.proofUntil next.storage.latest ∧
      next.storage.latest ≠ 0 ∧ (next.storage.proofs next.storage.latest).isSome = true := by
  cases effect with
  | advanced ledgers => cases publishes
  | read id reads _ => exact absurd (reads.symm.trans publishes) (by decide)
  | @published env proof pi initial id middle id_eq middle_eq =>
      have new : (Event.publishProof env proof pi initial).touches w.storage id = true := by
        simp [Event.touches, id_eq]
      have nonzero : id ≠ 0 := fun zero => by simp [zero] at id_eq
      refine ⟨threshold_le_extendTtl (by decide) (by decide), ?_, nonzero, ?_⟩
      · exact (published id_eq middle_eq).touched new
      · simp [record, extendInstance, extendProof, create, Storage.latest]

/-- Other events leave the storage and the instance, and shorten no life. -/
theorem reads (effect : w.Effect event next) (reads : event.isPublish = false) :
    next.storage = w.storage ∧ next.instanceUntil = w.instanceUntil ∧
      ∀ k, w.proofUntil k ≤ next.proofUntil k := by
  cases effect with
  | advanced ledgers => exact ⟨rfl, rfl, fun _ => Nat.le_refl _⟩
  | published _ _ => cases reads
  | read id _ _ =>
      refine ⟨rfl, rfl, fun k => ?_⟩
      by_cases same : k = id
      · rw [same, proofUntil_extendProof]
        exact le_extendTtl (by decide)
      · exact Nat.le_of_eq (proofUntil_extendProof_of_ne w same).symm

end Ledger.Effect

end Effects

/-! ## Watching the accesses -/

/-- A ledger with the time of its last publish and of the last access to each proof. -/
structure Watched (Address : Type) where
  ledger : Ledger Address
  published : Option Nat
  touched : U64 → Option Nat

section Runs

variable (hash4 : Hash4) (verifier : Verifier)

/-- A successful event, its accesses recorded. -/
def WatchedTimeline : Step (Watched Address) (Event Address) :=
  fun x event y =>
    Timeline hash4 verifier x.ledger event y.ledger ∧
      y.published = (if event.isPublish then some x.ledger.sequence else x.published) ∧
      y.touched = fun k =>
        if event.touches x.ledger.storage k then some x.ledger.sequence else x.touched k

/-- What the accesses so far guarantee. -/
structure Watched.Rented (x : Watched Address) : Prop where
  touched : ∀ k last, x.touched k = some last → last + TTL_THRESHOLD ≤ x.ledger.proofUntil k
  instance_ : ∀ last, x.published = some last → last + TTL_THRESHOLD ≤ x.ledger.instanceUntil
  latest : ∀ last, x.published = some last →
    last + TTL_THRESHOLD ≤ x.ledger.proofUntil x.ledger.storage.latest ∧
      x.ledger.storage.latest ≠ 0 ∧
      (x.ledger.storage.proofs x.ledger.storage.latest).isSome = true

variable {hash4 verifier} {x y : Watched Address} {event : Event Address}

theorem Watched.Rented.step (rented : x.Rented) (taken : WatchedTimeline hash4 verifier x event y) :
    y.Rented := by
  rcases taken with ⟨timeline, published_eq, touched_eq⟩
  have effect := effect_of_timeline timeline
  have sequence_le := effect.sequence_le
  constructor
  case touched =>
    intro k last last_eq
    rw [touched_eq] at last_eq
    cases touched : event.touches x.ledger.storage k with
    | true =>
        simp only [touched, if_true, Option.some.injEq] at last_eq
        have week_left := effect.touched touched
        omega
    | false =>
        simp only [touched, Bool.false_eq_true, if_false] at last_eq
        rw [effect.untouched touched]
        exact rented.touched k last last_eq
  case instance_ =>
    intro last last_eq
    rw [published_eq] at last_eq
    cases publishes : event.isPublish with
    | true =>
        simp only [publishes, if_true, Option.some.injEq] at last_eq
        rcases effect.publishes publishes with ⟨instance_left, _⟩
        omega
    | false =>
        simp only [publishes, Bool.false_eq_true, if_false] at last_eq
        rw [(effect.reads publishes).2.1]
        exact rented.instance_ last last_eq
  case latest =>
    intro last last_eq
    rw [published_eq] at last_eq
    cases publishes : event.isPublish with
    | true =>
        simp only [publishes, if_true, Option.some.injEq] at last_eq
        rcases effect.publishes publishes with ⟨_, latest_left, nonzero, found⟩
        exact ⟨by omega, nonzero, found⟩
    | false =>
        simp only [publishes, Bool.false_eq_true, if_false] at last_eq
        rcases effect.reads publishes with ⟨storage_eq, _, lives⟩
        rcases rented.latest last last_eq with ⟨left, nonzero, found⟩
        rw [storage_eq]
        exact ⟨Nat.le_trans left (lives _), nonzero, found⟩

end Runs

/-! ## Publishes a week apart -/

/-- A publish of five against three. -/
def samplePublish : Event Unit :=
  .publishProof ⟨fun _ => true, 0⟩ (List.replicate PROOF_BYTES 0) ⟨5, 3, BytesN.ofNat 32 0, 5⟩ 0

end Solva.Contract
