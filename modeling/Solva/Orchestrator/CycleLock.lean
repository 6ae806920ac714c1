import Solva.Orchestrator.RequestKey

/-!
# Who owns the cycle lock

The lock is one Redis key per spelling of the tenant's id, the same value for every
holder, and a release deletes it whoever holds it. The state below remembers what Redis
does not: which runs hold an unexpired lock, and which runs in flight had theirs expire.
The lock is owned as long as the runs spell the id alike, nobody acquires while a run
whose lock expired is still in flight, and no context is cancelled where a lock is taken
or given back.
-/

namespace Solva.Orchestrator

open Bn254 Codec Transition

/-! ## The runs and their locks -/

/-- The world, the runs whose lock has not expired, the runs in flight whose lock has,
and the runs whose context is cancelled or whose instance has crashed. -/
structure LockState (ι Address : Type) where
  world : World Address
  holders : List ι
  lapsed : List ι
  cancelled : ι → Bool
  crashed : ι → Bool

section Steps

variable {ι Address : Type} [DecidableEq ι]

/-- Whether the lock under a spelling of the tenant's id is there. -/
def World.locked (w : World Address) (tenantID : String) : Bool :=
  (w.redis (lockKey tenantID)).isSome

/-- The holders after a call of a run. -/
def holdersAfter (i : ι) (before after : World Address) (holders : List ι) : PortCall → List ι
  | .acquireCycleLock tenantID =>
      if before.locked tenantID = false ∧ after.locked tenantID then holders ++ [i] else holders
  | .releaseCycleLock tenantID =>
      if after.locked tenantID then holders else holders.filter (· ≠ i)
  | _ => holders

/-- The release is the last call of a run. -/
def lapsedAfter (i : ι) (lapsed : List ι) : PortCall → List ι
  | .releaseCycleLock _ => lapsed.filter (· ≠ i)
  | _ => lapsed

/-- The state after a call. -/
def LockState.after (i : ι) (c : PortCall) (s : LockState ι Address) (w : World Address) :
    LockState ι Address :=
  { s with
    world := w
    holders := holdersAfter i s.world w s.holders c
    lapsed := lapsedAfter i s.lapsed c }

/-- The lock under a spelling expires. -/
def LockState.expire (tenantID : ι → String) (key : String) (s : LockState ι Address) :
    LockState ι Address :=
  { s with
    world := { s.world with redis := releaseCycleLock key s.world.redis }
    holders := s.holders.filter fun i => tenantID i ≠ key
    lapsed := s.lapsed ++ s.holders.filter fun i => tenantID i = key ∧ s.crashed i = false }

/-- The calls to the lock. -/
def Port.isLock : Port → Bool
  | .acquireCycleLock | .releaseCycleLock => true
  | _ => false

/-- A call of a run while Redis is reachable: the lock's calls fail only under a
cancelled context, then with or without effect. -/
def LockStep (d : Deployment Address) (i : ι) (c : PortCall) (s : LockState ι Address)
    (reply : PortReply c) (next : LockState ι Address) : Prop :=
  ∃ w, next = s.after i c w ∧ PortStep d c s.world reply w ∧
    (c.port.isLock = true → s.cancelled i = false →
      ∃ input, handlePort d input c s.world = (reply, w))

/-- What happens between calls: a lock expires, a context is cancelled, an instance
crashes, or the world changes away from the runs' locks. -/
inductive LockMoves (tenantID : ι → String) : LockState ι Address → LockState ι Address → Prop
  | expires (s : LockState ι Address) (key : String) :
      LockMoves tenantID s (s.expire tenantID key)
  | cancels (s : LockState ι Address) (i : ι) :
      LockMoves tenantID s { s with cancelled := Function.update s.cancelled i true }
  | crashes (s : LockState ι Address) (i : ι) :
      LockMoves tenantID s { s with
        lapsed := s.lapsed.filter (· ≠ i)
        crashed := Function.update s.crashed i true }
  | elsewhere (s : LockState ι Address) {w : World Address} :
      (∀ i, w.redis (lockKey (tenantID i)) = s.world.redis (lockKey (tenantID i))) →
      LockMoves tenantID s { s with world := w }

omit [DecidableEq ι] in
/-- A run whose instance has crashed calls nothing. -/
def inFlightGuard (i : ι) (_ : PortCall) (s : LockState ι Address) : Bool :=
  !s.crashed i

/-- The condition on the calls: a free lock is acquired, and the own lock given back,
under a context that is not cancelled, and nobody acquires while a run whose lock expired
is still in flight. -/
def lockGuard (i : ι) (c : PortCall) (s : LockState ι Address) : Bool :=
  inFlightGuard i c s &&
    match c with
    | .acquireCycleLock tenantID =>
        s.world.locked tenantID || !s.cancelled i && s.lapsed.isEmpty
    | .releaseCycleLock _ => decide (i ∈ s.holders → s.cancelled i = false)
    | _ => true

/-- The lock is owned. -/
structure LockOwned (d : Deployment Address) (tenantID : ι → String) {Result : Type}
    (pool : Pool ι PortCall PortReply Result (LockState ι Address)) : Prop where
  /-- An unexpired lock is there. -/
  held : ∀ i ∈ pool.shared.holders, pool.shared.world.locked (tenantID i)
  /-- It belongs to one run. -/
  exclusive : ∀ i ∈ pool.shared.holders, ∀ j ∈ pool.shared.holders, i = j
  /-- While it is unexpired no run gets past `AcquireCycleLock`. -/
  excluded : ∀ i ∈ pool.shared.holders, ∀ j reply next,
    LockStep d j (.acquireCycleLock (tenantID j)) pool.shared reply next → reply ≠ .ok true
  /-- A release that removes a lock is its owner's. -/
  removed : ∀ i resume, pool.threads i = .call (.releaseCycleLock (tenantID i)) resume →
    pool.shared.crashed i = false → ∀ reply next,
    LockStep d i (.releaseCycleLock (tenantID i)) pool.shared reply next →
    pool.shared.world.locked (tenantID i) = true → next.world.locked (tenantID i) = false →
    i ∈ pool.shared.holders
  /-- A run that has returned has given it back. -/
  released : ∀ i result, pool.threads i = .ret result → i ∉ pool.shared.holders

end Steps

/-! ## The invariant -/

/-- Between acquiring and releasing a run is in flight with a lock of its own. -/
def Phase.holds : Phase → Bool
  | .acquiring | .ended _ => false
  | _ => true

/-- Only the lock's calls lead into these phases or out of them. -/
theorem Moves.holds_eq {tenantID requestKey : String} {q q' : Progress} {c : PortCall}
    {reply : PortReply c} (moves : Moves tenantID requestKey q c reply q')
    (other : c.port.isLock = false) : q'.phase.holds = q.phase.holds := by
  cases moves with
  | acquired | excluded | abandoned | released => cases other
  | _ => rfl

section Invariant

variable {ι Address : Type} [DecidableEq ι] {d : Deployment Address} {tenantID : ι → String}
  {requestKey : ι → String} {positions : ι → Progress} {s : LockState ι Address}

/-- The locks against the runs: an unexpired lock is there and has one owner, while a run
whose lock expired is in flight there is none, and a run in flight has one or the other. -/
structure LockHeld (tenantID : ι → String) (positions : ι → Progress) (s : LockState ι Address) :
    Prop where
  held : ∀ i ∈ s.holders, s.world.locked (tenantID i) = true
  exclusive : ∀ i ∈ s.holders, ∀ j ∈ s.holders, i = j
  lapsed : ∀ i ∈ s.lapsed, s.world.locked (tenantID i) = false
  holding : ∀ i ∈ s.holders, (positions i).phase.holds = true
  standing : ∀ i, (positions i).phase.holds = true → s.crashed i = false →
    i ∈ s.holders ∨ i ∈ s.lapsed

/-- The other calls leave the lock alone. -/
theorem lock_handlePort (input : RunInput) {c : PortCall} (key : String)
    (other : c.port.isLock = false)
    (w : World Address) :
    (handlePort d input c w).2.redis (lockKey key) = w.redis (lockKey key) := by
  cases c with
  | acquireCycleLock | releaseCycleLock => cases other
  | setLatest tenant proofID =>
      exact Function.update_of_ne (latestKey_ne_lockKey tenant key).symm (some proofID) w.redis
  | publishProof target proof pub =>
      rcases publishAtomic_cases d input.ledgerTime target proof pub w with
        ⟨id, pi, _, published⟩ | ⟨err, failed⟩
      · rw [handlePort, published, World.redis_published]
      · rw [handlePort, failed]
  | _ => rfl

theorem PortStep.lock_eq {c : PortCall} {w w' : World Address} {reply : PortReply c}
    (step : PortStep d c w reply w') (key : String) (other : c.port.isLock = false) :
    w'.redis (lockKey key) = w.redis (lockKey key) := by
  rcases step.world_eq with rfl | ⟨input, rfl⟩
  · rfl
  · exact lock_handlePort input key other w

/-- `AcquireCycleLock` answers whether the lock was free, and takes it then. -/
theorem acquire_handled {input : RunInput} {key : String} {w w' : World Address}
    {reply : Result Bool}
    (handled : handlePort d input (.acquireCycleLock key) w = (reply, w')) :
    (w.locked key = false ∧ reply = .ok true ∧ w'.locked key = true) ∨
      (w.locked key = true ∧ reply = .ok false ∧ w' = w) := by
  obtain ⟨rfl, rfl⟩ := Prod.mk.inj handled
  cases locked : w.locked key with
  | true =>
      have taken : (w.redis (lockKey key)).isSome = true := locked
      refine .inr ⟨rfl, ?_, ?_⟩ <;> rw [acquireCycleLock, if_pos taken]
  | false =>
      have free : ¬(w.redis (lockKey key)).isSome = true := by
        rw [show (w.redis (lockKey key)).isSome = false from locked]
        simp
      refine .inl ⟨rfl, by rw [acquireCycleLock, if_neg free], ?_⟩
      rw [acquireCycleLock, if_neg free]
      simp [World.locked]

/-- `ReleaseCycleLock` leaves no lock behind. -/
theorem release_handled {input : RunInput} {key : String} {w w' : World Address}
    {reply : Result Unit}
    (handled : handlePort d input (.releaseCycleLock key) w = (reply, w')) :
    w'.locked key = false := by
  obtain ⟨_, rfl⟩ := Prod.mk.inj handled
  simp [World.locked, releaseCycleLock]

/-- Positions after one run has moved. -/
theorem standing_update {holders lapsed : List ι} {crashed : ι → Bool} {i : ι} {q' : Progress}
    (others : ∀ j, j ≠ i → (positions j).phase.holds = true → crashed j = false →
      j ∈ holders ∨ j ∈ lapsed)
    (here : q'.phase.holds = true → crashed i = false → i ∈ holders ∨ i ∈ lapsed) (j : ι)
    (holds : (Function.update positions i q' j).phase.holds = true) (running : crashed j = false) :
    j ∈ holders ∨ j ∈ lapsed := by
  by_cases same : j = i
  · subst same
    rw [Function.update_self] at holds
    exact here holds running
  · rw [Function.update_of_ne same] at holds
    exact others j same holds running

theorem holding_update {holders : List ι} {i : ι} {q' : Progress}
    (others : ∀ j ∈ holders, j ≠ i → (positions j).phase.holds = true)
    (here : i ∈ holders → q'.phase.holds = true) :
    ∀ j ∈ holders, (Function.update positions i q' j).phase.holds = true := by
  intro j mem
  by_cases same : j = i
  · subst same
    rw [Function.update_self]
    exact here mem
  · rw [Function.update_of_ne same]
    exact others j mem same

/-- A free lock is acquired while no run has lost its own. -/
theorem LockHeld.acquire {i : ι} {q' : Progress} {w : World Address}
    (alike : ∀ i j, tenantID i = tenantID j) (held : LockHeld tenantID positions s)
    (free : s.world.locked (tenantID i) = false) (taken : w.locked (tenantID i) = true)
    (settled : s.lapsed = []) (holds : q'.phase.holds = true) :
    LockHeld tenantID (Function.update positions i q')
      (s.after i (.acquireCycleLock (tenantID i)) w) := by
  have nobody : s.holders = [] := by
    apply List.eq_nil_iff_forall_not_mem.mpr
    intro j mem
    have locked := held.held j mem
    rw [alike j i, free] at locked
    cases locked
  have holders_eq : (s.after i (.acquireCycleLock (tenantID i)) w).holders = [i] := by
    rw [LockState.after, holdersAfter, if_pos ⟨free, taken⟩, nobody]
    rfl
  have lapsed_eq : (s.after i (.acquireCycleLock (tenantID i)) w).lapsed = [] := settled
  refine ⟨?_, ?_, ?_, ?_, ?_⟩
  · rw [holders_eq]
    intro j mem
    rw [List.mem_singleton.mp mem]
    exact taken
  · rw [holders_eq]
    intro j j_mem k k_mem
    rw [List.mem_singleton.mp j_mem, List.mem_singleton.mp k_mem]
  · rw [lapsed_eq]
    intro j mem
    cases mem
  · rw [holders_eq]
    refine holding_update (fun j mem other => ?_) fun _ => holds
    exact absurd (List.mem_singleton.mp mem) other
  · rw [holders_eq, lapsed_eq]
    refine standing_update (fun j other standing running => ?_) fun _ _ => .inl (by simp)
    rcases held.standing j standing running with holder | lapsed
    · rw [nobody] at holder
      cases holder
    · rw [settled] at lapsed
      cases lapsed

/-- A run that holds the lock or lost it releases, and no lock is left. -/
theorem LockHeld.release {i : ι} {q' : Progress} {w : World Address}
    (alike : ∀ i j, tenantID i = tenantID j) (held : LockHeld tenantID positions s)
    (own : i ∈ s.holders ∨ s.world.locked (tenantID i) = false)
    (gone : w.locked (tenantID i) = false) (ended : q'.phase.holds = false) :
    LockHeld tenantID (Function.update positions i q')
      (s.after i (.releaseCycleLock (tenantID i)) w) := by
  have holders_eq : (s.after i (.releaseCycleLock (tenantID i)) w).holders = [] := by
    rw [LockState.after, holdersAfter, if_neg (by simp [gone])]
    apply List.filter_eq_nil_iff.mpr
    intro j mem other
    rcases own with holder | free
    · exact of_decide_eq_true other (held.exclusive j mem i holder)
    · have locked := held.held j mem
      rw [alike j i, free] at locked
      cases locked
  have lapsed_eq : (s.after i (.releaseCycleLock (tenantID i)) w).lapsed =
      s.lapsed.filter (· ≠ i) := rfl
  refine ⟨?_, ?_, fun j mem => ?_, ?_, ?_⟩
  · simp [holders_eq]
  · simp [holders_eq]
  · rw [alike j i]
    exact gone
  · simp [holders_eq]
  · rw [holders_eq, lapsed_eq]
    refine standing_update (fun j other standing running => ?_) fun holds _ => ?_
    · rcases held.standing j standing running with holder | lapsed
      · rcases own with own | free
        · exact absurd (held.exclusive j holder i own) other
        · have locked := held.held j holder
          rw [alike j i, free] at locked
          cases locked
      · exact .inr (List.mem_filter.mpr ⟨lapsed, decide_eq_true other⟩)
    · rw [ended] at holds
      cases holds

omit [DecidableEq ι] in
/-- The locks are left as they are. -/
theorem LockHeld.keep {later : ι → Progress} {w : World Address} {cancelled : ι → Bool}
    (held : LockHeld tenantID positions s)
    (kept : ∀ i, w.redis (lockKey (tenantID i)) = s.world.redis (lockKey (tenantID i)))
    (holds : ∀ i, (later i).phase.holds = (positions i).phase.holds) :
    LockHeld tenantID later { s with world := w, cancelled := cancelled } := by
  have locked_eq (i : ι) : w.locked (tenantID i) = s.world.locked (tenantID i) := by
    rw [World.locked, World.locked, kept]
  refine ⟨fun i mem => ?_, held.exclusive, fun i mem => ?_, fun i mem => ?_,
    fun i standing => ?_⟩
  · rw [locked_eq]
    exact held.held i mem
  · rw [locked_eq]
    exact held.lapsed i mem
  · rw [holds]
    exact held.holding i mem
  · rw [holds] at standing
    exact held.standing i standing

omit [DecidableEq ι] in
/-- A lock expires. -/
theorem LockHeld.expire (held : LockHeld tenantID positions s) (key : String) :
    LockHeld tenantID positions (s.expire tenantID key) := by
  have mem_holders {i : ι} : i ∈ (s.expire tenantID key).holders ↔
      i ∈ s.holders ∧ tenantID i ≠ key := by
    simp [LockState.expire]
  have mem_lapsed {i : ι} : i ∈ (s.expire tenantID key).lapsed ↔
      i ∈ s.lapsed ∨ i ∈ s.holders ∧ tenantID i = key ∧ s.crashed i = false := by
    simp [LockState.expire]
  have locked_eq {i : ι} (other : tenantID i ≠ key) :
      (s.expire tenantID key).world.locked (tenantID i) = s.world.locked (tenantID i) := by
    have key_ne : lockKey (tenantID i) ≠ lockKey key := fun same => other (lockKey_inj.mp same)
    simp only [World.locked, LockState.expire, releaseCycleLock, Function.update_of_ne key_ne]
  have gone {i : ι} (same : tenantID i = key) :
      (s.expire tenantID key).world.locked (tenantID i) = false := by
    rw [same]
    simp [World.locked, LockState.expire, releaseCycleLock]
  refine ⟨fun i mem => ?_, fun i i_mem j j_mem => ?_, fun i mem => ?_, fun i mem => ?_,
    fun i standing running => ?_⟩
  · rw [locked_eq (mem_holders.mp mem).2]
    exact held.held i (mem_holders.mp mem).1
  · exact held.exclusive i (mem_holders.mp i_mem).1 j (mem_holders.mp j_mem).1
  · by_cases same : tenantID i = key
    · exact gone same
    · rw [locked_eq same]
      rcases mem_lapsed.mp mem with lapsed | ⟨_, equal, _⟩
      · exact held.lapsed i lapsed
      · exact absurd equal same
  · exact held.holding i (mem_holders.mp mem).1
  · rcases held.standing i standing running with holder | lapsed
    · by_cases same : tenantID i = key
      · exact .inr (mem_lapsed.mpr (.inr ⟨holder, same, running⟩))
      · exact .inl (mem_holders.mpr ⟨holder, same⟩)
    · exact .inr (mem_lapsed.mpr (.inl lapsed))

/-- An instance crashes. -/
theorem LockHeld.crash (held : LockHeld tenantID positions s) (i : ι) :
    LockHeld tenantID positions { s with
      lapsed := s.lapsed.filter (· ≠ i)
      crashed := Function.update s.crashed i true } := by
  refine ⟨held.held, held.exclusive, fun j mem => ?_, held.holding, fun j standing running => ?_⟩
  · exact held.lapsed j (List.mem_filter.mp mem).1
  · have other : j ≠ i := by
      rintro rfl
      simp at running
    have before : s.crashed j = false := by simpa [Function.update_of_ne other] using running
    rcases held.standing j standing before with holder | lapsed
    · exact .inl holder
    · exact .inr (List.mem_filter.mpr ⟨lapsed, decide_eq_true other⟩)

theorem after_of_not_isLock {i : ι} {c : PortCall} {w : World Address}
    (other : c.port.isLock = false) : s.after i c w = { s with world := w } := by
  cases c with
  | acquireCycleLock | releaseCycleLock => cases other
  | _ => rfl

/-- Under the condition an acquiring call takes a free lock, or leaves the lock to its
holder and is turned away. -/
theorem LockStep.acquire {i : ι} {key : String} {reply : Result Bool} {next : LockState ι Address}
    (step : LockStep d i (.acquireCycleLock key) s reply next)
    (met : s.world.locked key = false → s.cancelled i = false) :
    ∃ w, next = s.after i (.acquireCycleLock key) w ∧
      ((s.world.locked key = false ∧ reply = .ok true ∧ w.locked key = true) ∨
        (s.world.locked key = true ∧ reply ≠ .ok true ∧ w = s.world)) := by
  obtain ⟨w, rfl, acted, reachable⟩ := step
  refine ⟨w, rfl, ?_⟩
  cases locked : s.world.locked key with
  | false =>
      obtain ⟨input, handled⟩ := reachable rfl (met locked)
      rcases acquire_handled handled with ⟨_, granted, taken⟩ | ⟨busy, _⟩
      · exact .inl ⟨rfl, granted, taken⟩
      · rw [locked] at busy
        cases busy
  | true =>
      have turned_away (input : RunInput) :
          handlePort d input (.acquireCycleLock key) s.world = (.ok false, s.world) := by
        have handled : handlePort d input (.acquireCycleLock key) s.world =
            (_, (handlePort d input (.acquireCycleLock key) s.world).2) := rfl
        rcases acquire_handled handled with ⟨free, _⟩ | ⟨_, refused, kept⟩
        · rw [locked] at free
          cases free
        · exact Prod.ext refused kept
      refine .inr ⟨rfl, ?_, ?_⟩
      · rintro rfl
        obtain ⟨input, handled⟩ := acted.ok
        rw [turned_away] at handled
        cases handled
      · rcases acted.world_eq with kept | ⟨input, effect⟩
        · exact kept
        · rw [effect, turned_away]

/-- A releasing call under a context that is not cancelled, or without a lock there,
leaves no lock behind. -/
theorem LockStep.release {i : ι} {key : String} {reply : Result Unit} {next : LockState ι Address}
    (step : LockStep d i (.releaseCycleLock key) s reply next)
    (met : s.world.locked key = true → s.cancelled i = false) :
    ∃ w, next = s.after i (.releaseCycleLock key) w ∧ w.locked key = false := by
  obtain ⟨w, rfl, acted, reachable⟩ := step
  refine ⟨w, rfl, ?_⟩
  cases locked : s.world.locked key with
  | true =>
      obtain ⟨input, handled⟩ := reachable rfl (met locked)
      exact release_handled handled
  | false =>
      rcases acted.world_eq with rfl | ⟨input, effect⟩
      · exact locked
      · have handled : handlePort d input (.releaseCycleLock key) s.world = (.ok (), w) :=
          Prod.ext rfl effect.symm
        exact release_handled handled

omit [DecidableEq ι] in
/-- A run in flight finds its own lock or none. -/
theorem LockHeld.own {i : ι} (held : LockHeld tenantID positions s)
    (standing : (positions i).phase.holds = true) (running : s.crashed i = false) :
    i ∈ s.holders ∨ s.world.locked (tenantID i) = false :=
  (held.standing i standing running).imp_right (held.lapsed i)

/-- Where a run may release, it is in flight. -/
theorem holds_of_release {tenant key : String} {q : Progress}
    (allowed : (cycleProtocol tenant key).allowed q (.releaseCycleLock tenant)) :
    q.phase.holds = true := by
  have moves := moves_of_allowed allowed (.ok ())
  cases moves with
  | abandoned | released => rfl

/-- The guard on a lock that is free. -/
theorem allowed_of_free {key : String} {i : ι} (met : lockGuard i (.acquireCycleLock key) s = true)
    (free : s.world.locked key = false) : s.cancelled i = false ∧ s.lapsed = [] := by
  simpa [lockGuard, free, and_assoc] using (Bool.and_eq_true_iff.mp met).2

theorem holds_update {i : ι} {q' : Progress}
    (same : q'.phase.holds = (positions i).phase.holds) (j : ι) :
    (Function.update positions i q' j).phase.holds = (positions j).phase.holds := by
  by_cases own : j = i
  · subst own
    rwa [Function.update_self]
  · rw [Function.update_of_ne own]

/-- A call under the condition keeps the invariant. -/
theorem LockHeld.step {key : String} {i : ι} {q' : Progress} {c : PortCall} {reply : PortReply c}
    {next : LockState ι Address} (alike : ∀ i j, tenantID i = tenantID j)
    (held : LockHeld tenantID positions s)
    (moves : Moves (tenantID i) key (positions i) c reply q')
    (met : lockGuard i c s = true) (acted : LockStep d i c s reply next) :
    LockHeld tenantID (Function.update positions i q') next := by
  have running : s.crashed i = false := by
    simpa [inFlightGuard] using (Bool.and_eq_true_iff.mp met).1
  cases other : c.port.isLock with
  | false =>
      obtain ⟨w, rfl, step, _⟩ := acted
      rw [after_of_not_isLock other]
      exact held.keep (fun j => step.lock_eq _ other) (holds_update (moves.holds_eq other))
  | true =>
      have standing := held.standing i
      have holding := held.holding i
      generalize at_i : positions i = q at moves standing holding
      cases moves with
      | acquired =>
          obtain ⟨w, rfl, ⟨free, _, taken⟩ | ⟨_, turned_away, _⟩⟩ :=
            acted.acquire fun free => (allowed_of_free met free).1
          · exact held.acquire alike free taken (allowed_of_free met free).2 rfl
          · exact absurd rfl turned_away
      | excluded turned_away =>
          obtain ⟨w, rfl, ⟨_, granted, _⟩ | ⟨busy, _, rfl⟩⟩ :=
            acted.acquire fun free => (allowed_of_free met free).1
          · exact absurd granted turned_away
          · have unchanged : s.after i (.acquireCycleLock (tenantID i)) s.world = s := by
              rw [LockState.after, holdersAfter, if_neg (by simp [busy])]
              rfl
            rw [unchanged]
            exact held.keep (fun _ => rfl) (holds_update (by rw [at_i]; rfl))
      | abandoned | released =>
          have own := held.own (i := i) (by rw [at_i]; rfl) running
          obtain ⟨w, rfl, gone⟩ := acted.release fun locked => by
            rcases own with holder | free
            · exact of_decide_eq_true (Bool.and_eq_true_iff.mp met).2 holder
            · rw [free] at locked
              cases locked
          exact held.release alike own gone rfl
      | prepared prepares | stopped prepares =>
          cases c <;> first
            | exact prepares.elim
            | cases other
      | _ => cases other

/-- What happens between calls keeps it. -/
theorem LockHeld.moved {next : LockState ι Address} (held : LockHeld tenantID positions s)
    (moved : LockMoves tenantID s next) : LockHeld tenantID positions next := by
  cases moved with
  | expires key => exact held.expire key
  | cancels i => exact held.keep (fun _ => rfl) fun _ => rfl
  | crashes i => exact held.crash i
  | elsewhere kept => exact held.keep kept fun _ => rfl

/-- Before any run has called anything. -/
def LockState.start (w : World Address) : LockState ι Address :=
  ⟨w, [], [], fun _ => false, fun _ => false⟩

/-- The invariant holds in every state reached. -/
theorem lockHeld_of_run {w : World Address} (alike : ∀ i j, tenantID i = tenantID j)
    {labels : List (Option (ι × Performed PortCall PortReply))}
    {later : (ι → Progress) × LockState ι Address}
    (run : Run (Protocol.Interleaved (cycleProtocols tenantID requestKey)
        (Pool.guarded lockGuard (LockStep d)) (LockMoves tenantID))
      (fun _ => Progress.start, LockState.start w) labels later) :
    LockHeld tenantID later.1 later.2 := by
  refine run.invariant (motive := fun state => LockHeld tenantID state.1 state.2) ?_ ?_
  · exact ⟨by simp [LockState.start], by simp [LockState.start], by simp [LockState.start],
      by simp [LockState.start], fun _ holds => by cases holds⟩
  · intro source label target held step
    cases step with
    | @thread _ _ _ i c reply allowed acted =>
        exact held.step alike (moves_of_allowed allowed reply) acted.1 acted.2
    | env moved => exact held.moved moved

/-- In every run of any number of cycles whose runs spell the tenant's id alike and whose
calls to the lock meet the condition, the lock is owned in every state reached. -/
theorem cycleLock_owned (d : Deployment Address) (tenantID requestKey : ι → String)
    (alike : ∀ i j, tenantID i = tenantID j) (w : World Address)
    {labels : List (Option (ι × Performed PortCall PortReply))}
    {target : Pool ι PortCall PortReply (Result Unit) (LockState ι Address)}
    (run : Run (Pool.Interleaved (Pool.guarded lockGuard (LockStep d)) (LockMoves tenantID))
      (cyclePool tenantID requestKey (LockState.start w)) labels target) :
    LockOwned d tenantID target := by
  obtain ⟨positions, run, abstracts⟩ :=
    Protocol.exists_run (cyclePool_abstracts tenantID requestKey _) run
  have held := lockHeld_of_run alike run
  refine ⟨held.held, held.exclusive, fun i holder j reply next step => ?_,
    fun i resume at_release running reply next step locked removed => ?_,
    fun i result returned holder => ?_⟩
  · rintro rfl
    obtain ⟨w', -, acted, -⟩ := step
    obtain ⟨input, handled⟩ := acted.ok
    rcases acquire_handled handled with ⟨free, _⟩ | ⟨_, refused, _⟩
    · have locked := held.held i holder
      rw [alike i j, free] at locked
      cases locked
    · cases refused
  · have follows := abstracts i
    rw [at_release] at follows
    rcases held.own (holds_of_release follows.1) running with holder | free
    · exact holder
    · rw [free] at locked
      cases locked
  · have ended := abstracts i
    rw [returned] at ended
    obtain ⟨complete, phase, _⟩ := ended
    have holds := held.holding i holder
    rw [phase] at holds
    cases holds

end Invariant

/-! ## Expiry under a slow run -/

/-- A call that is carried out. -/
def carriedOut {ι : Type} [DecidableEq ι] (i : ι) (c : PortCall) (s : LockState ι Unit) :
    PortReply c × LockState ι Unit :=
  ((handlePort sampleDeployment (sampleInput "12" 1) c s.world).1,
    s.after i c (handlePort sampleDeployment (sampleInput "12" 1) c s.world).2)

/-- A call whose server does not answer, unless that is Redis asked for the lock. -/
def unanswered {ι : Type} [DecidableEq ι] (i : ι) (c : PortCall) (s : LockState ι Unit) :
    PortReply c × LockState ι Unit :=
  if c.port.isLock then carriedOut i c s
  else (.error (.plain "deadline exceeded"), s.after i c s.world)

/-- All runs spell the tenant's id canonically. -/
def spelledAlike (_ : Fin 3) : String :=
  sampleTenantID

/-- Run 1 leaves the dashes out. -/
def spelledApart : Fin 3 → String
  | 1 => "00000000000000000000000000000001"
  | _ => sampleTenantID

/-- Three runs for one tenant. -/
def threeRuns (tenantID : Fin 3 → String) :
    Pool (Fin 3) PortCall PortReply (Result Unit) (LockState (Fin 3) Unit) :=
  cyclePool tenantID (fun i => toString i.val) (LockState.start sampleWorld)

/-- The lock expires while run 0 waits for the prover. -/
def slowProof : List (Pool.Turn (Fin 3) PortCall PortReply (LockState (Fin 3) Unit)) :=
  List.replicate 6 (.thread 0 (carriedOut 0)) ++
    [.env (LockState.expire spelledAlike sampleTenantID)]

/-- The prover does not answer, run 0 ends, and run 1 acquires the lock. -/
def endsFirst : List (Pool.Turn (Fin 3) PortCall PortReply (LockState (Fin 3) Unit)) :=
  slowProof ++ [.thread 0 (unanswered 0), .thread 0 (carriedOut 0), .thread 1 (carriedOut 1)]

/-- Run 1 acquires the lock before run 0 ends, and run 2 starts. -/
def endsLate : List (Pool.Turn (Fin 3) PortCall PortReply (LockState (Fin 3) Unit)) :=
  slowProof ++ [.thread 1 (carriedOut 1), .thread 0 (unanswered 0), .thread 0 (carriedOut 0),
    .thread 2 (carriedOut 2)]

/-- Runs 0 and 1 ask for the lock. -/
def twoAsk : List (Pool.Turn (Fin 3) PortCall PortReply (LockState (Fin 3) Unit)) :=
  [.thread 0 (carriedOut 0), .thread 1 (carriedOut 1)]

theorem carriedOut_lockStep {ι : Type} [DecidableEq ι] (i : ι) (c : PortCall)
    (s : LockState ι Unit) :
    LockStep sampleDeployment i c s (carriedOut i c s).1 (carriedOut i c s).2 :=
  ⟨_, rfl, .handled _ c s.world, fun _ _ => ⟨_, rfl⟩⟩

theorem unanswered_lockStep {ι : Type} [DecidableEq ι] (i : ι) (c : PortCall)
    (s : LockState ι Unit) :
    LockStep sampleDeployment i c s (unanswered i c s).1 (unanswered i c s).2 := by
  unfold unanswered
  split
  · exact carriedOut_lockStep i c s
  · rename_i other
    exact ⟨s.world, rfl, .refused c _ s.world, fun lock => absurd lock other⟩

/-- Turns of these kinds are steps from any state. -/
theorem admitted_of_mem
    {turns : List (Pool.Turn (Fin 3) PortCall PortReply (LockState (Fin 3) Unit))}
    (kinds : ∀ turn ∈ turns, (∃ i, turn = .thread i (carriedOut i)) ∨
      (∃ i, turn = .thread i (unanswered i)) ∨
        turn = .env (LockState.expire spelledAlike sampleTenantID)) :
    ∀ turn ∈ turns, turn.Admitted (LockStep sampleDeployment) (LockMoves spelledAlike) := by
  intro turn mem
  rcases kinds turn mem with ⟨i, rfl⟩ | ⟨i, rfl⟩ | rfl
  · exact carriedOut_lockStep i
  · exact unanswered_lockStep i
  · exact fun s => .expires s sampleTenantID

theorem endsFirst_admitted : ∀ turn ∈ endsFirst,
    turn.Admitted (LockStep sampleDeployment) (LockMoves spelledAlike) := by
  apply admitted_of_mem
  simp [endsFirst, slowProof]

theorem endsLate_admitted : ∀ turn ∈ endsLate,
    turn.Admitted (LockStep sampleDeployment) (LockMoves spelledAlike) := by
  apply admitted_of_mem
  simp [endsLate, slowProof]

theorem twoAsk_admitted : ∀ turn ∈ twoAsk,
    turn.Admitted (LockStep sampleDeployment) (LockMoves spelledApart) := by
  intro turn mem
  simp only [twoAsk, List.mem_cons, List.not_mem_nil, or_false] at mem
  rcases mem with rfl | rfl
  · exact carriedOut_lockStep 0
  · exact carriedOut_lockStep 1

theorem cycleLock_owned_sample :
    ((threeRuns spelledAlike).after endsFirst).shared.holders = [1] ∧
      LockOwned sampleDeployment spelledAlike ((threeRuns spelledAlike).after endsFirst) := by
  have played : ((threeRuns spelledAlike).after endsFirst).shared.holders = [1] ∧
      (threeRuns spelledAlike).meets lockGuard endsFirst = true := by decide +kernel
  obtain ⟨_, run⟩ := Pool.exists_run_after_guarded endsFirst_admitted played.2
  exact ⟨played.1, cycleLock_owned sampleDeployment spelledAlike (fun i => toString i.val)
    (fun _ _ => rfl) sampleWorld run⟩

/-- Run 0 deletes the lock of run 1, and run 2 gets past it; two spellings of one id are
two locks. -/
theorem cycleLock_not_owned :
    ((threeRuns spelledAlike).after endsLate).shared.holders = [1, 2] ∧
      (¬ ∀ labels target, Run (Pool.Interleaved (Pool.guarded inFlightGuard
          (LockStep sampleDeployment)) (LockMoves spelledAlike)) (threeRuns spelledAlike) labels
            target → LockOwned sampleDeployment spelledAlike target) ∧
      (∀ i, toUUID (spelledApart i) = .ok sampleTenant) ∧
      ((threeRuns spelledApart).after twoAsk).shared.holders = [0, 1] ∧
      ¬ ∀ labels target, Run (Pool.Interleaved (Pool.guarded inFlightGuard
          (LockStep sampleDeployment)) (LockMoves spelledApart)) (threeRuns spelledApart) labels
            target → LockOwned sampleDeployment spelledApart target := by
  have late : ((threeRuns spelledAlike).after endsLate).shared.holders = [1, 2] ∧
      (threeRuns spelledAlike).meets inFlightGuard endsLate = true := by decide +kernel
  have apart : ((threeRuns spelledApart).after twoAsk).shared.holders = [0, 1] ∧
      (threeRuns spelledApart).meets inFlightGuard twoAsk = true := by decide +kernel
  have one_tenant : ∀ i, toUUID (spelledApart i) = .ok sampleTenant := by decide +kernel
  refine ⟨late.1, fun owned => ?_, one_tenant, apart.1, fun owned => ?_⟩
  · obtain ⟨labels, run⟩ := Pool.exists_run_after_guarded endsLate_admitted late.2
    have exclusive := (owned labels _ run).exclusive
    rw [late.1] at exclusive
    exact absurd (exclusive 1 (by simp) 2 (by simp)) (by decide)
  · obtain ⟨labels, run⟩ := Pool.exists_run_after_guarded twoAsk_admitted apart.2
    have exclusive := (owned labels _ run).exclusive
    rw [apart.1] at exclusive
    exact absurd (exclusive 0 (by simp) 1 (by simp)) (by decide)

end Solva.Orchestrator
