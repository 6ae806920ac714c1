import Mathlib.Algebra.Order.Ring.Nat
import Mathlib.Data.List.Nodup
import Mathlib.Logic.Function.Basic
import Solva.Transition.Program

/-!
# Programs side by side

A `Pool` runs programs on one shared state: calls are atomic, and anything may
happen between two calls of one program. A `Protocol` says at which position which
calls may come next and where each reply leads. Programs that follow a protocol
can be forgotten: every run of their pool is a run of the positions, on which
invariants of the shared state are proved without looking at code.
-/

namespace Solva.Transition

universe u v w x y

/-- A call with its reply. -/
structure Performed (Call : Type u) (Reply : Call → Type v) where
  call : Call
  reply : Reply call

/-! ## Pools -/

/-- Two threads are numbered by literals of `Fin 2`. -/
instance neZeroTwo : NeZero 2 :=
  ⟨by decide⟩

/-- Programs on one shared state. -/
structure Pool (ι : Type*) (Call : Type u) (Reply : Call → Type v) (α : Type w)
    (σ : Type x) where
  threads : ι → Program Call Reply α
  shared : σ

namespace Pool

variable {ι : Type*} [DecidableEq ι] {Call : Type u} {Reply : Call → Type v} {α : Type w}
  {σ : Type x}

/-- One step of a pool: a thread performs its call, or the environment moves. -/
inductive Interleaved (act : ι → (c : Call) → σ → Reply c → σ → Prop) (env : σ → σ → Prop) :
    Step (Pool ι Call Reply α σ) (Option (ι × Performed Call Reply))
  | thread {pool : Pool ι Call Reply α σ} {i : ι} {c : Call}
      {resume : Reply c → Program Call Reply α} {reply : Reply c} {next : σ} :
      pool.threads i = Program.call c resume → act i c pool.shared reply next →
      Interleaved act env pool (some (i, ⟨c, reply⟩))
        ⟨Function.update pool.threads i (resume reply), next⟩
  | env {pool : Pool ι Call Reply α σ} {next : σ} :
      env pool.shared next → Interleaved act env pool none ⟨pool.threads, next⟩

/-! ### Playing a schedule -/

/-- A turn of a schedule: one thread makes its next call, answered by a handler, or
the environment moves. -/
inductive Turn (ι : Type*) (Call : Type u) (Reply : Call → Type v) (σ : Type x)
  | thread (i : ι) (handle : (c : Call) → σ → Reply c × σ)
  | env (move : σ → σ)

/-- Play a schedule; a turn of a thread that has returned is skipped. -/
def play (pool : Pool ι Call Reply α σ) :
    List (Turn ι Call Reply σ) → Pool ι Call Reply α σ × List (Option (ι × Performed Call Reply))
  | [] => (pool, [])
  | .env move :: turns =>
      let (target, labels) := play ⟨pool.threads, move pool.shared⟩ turns
      (target, none :: labels)
  | .thread i handle :: turns =>
      match pool.threads i with
      | .ret _ => play pool turns
      | .call c resume =>
          let (reply, next) := handle c pool.shared
          let (target, labels) :=
            play ⟨Function.update pool.threads i (resume reply), next⟩ turns
          (target, some (i, ⟨c, reply⟩) :: labels)

/-- Every turn of a schedule is a step where it is played. -/
def Admits (act : ι → (c : Call) → σ → Reply c → σ → Prop) (env : σ → σ → Prop)
    (pool : Pool ι Call Reply α σ) : List (Turn ι Call Reply σ) → Prop
  | [] => True
  | .env move :: turns =>
      env pool.shared (move pool.shared) ∧ Admits act env ⟨pool.threads, move pool.shared⟩ turns
  | .thread i handle :: turns =>
      match pool.threads i with
      | .ret _ => Admits act env pool turns
      | .call c resume =>
          act i c pool.shared (handle c pool.shared).1 (handle c pool.shared).2 ∧
            Admits act env ⟨Function.update pool.threads i (resume (handle c pool.shared).1),
              (handle c pool.shared).2⟩ turns

/-- Turns that are steps from any state. -/
def Turn.Admitted (act : ι → (c : Call) → σ → Reply c → σ → Prop) (env : σ → σ → Prop) :
    Turn ι Call Reply σ → Prop
  | .thread i handle => ∀ c s, act i c s (handle c s).1 (handle c s).2
  | .env move => ∀ s, env s (move s)

/-- A condition on the calls, where they are made. -/
def guarded (guard : ι → Call → σ → Bool) (act : ι → (c : Call) → σ → Reply c → σ → Prop)
    (i : ι) (c : Call) (s : σ) (reply : Reply c) (next : σ) : Prop :=
  guard i c s = true ∧ act i c s reply next

/-- Whether every call of a schedule meets a condition. -/
def meets (guard : ι → Call → σ → Bool) (pool : Pool ι Call Reply α σ) :
    List (Turn ι Call Reply σ) → Bool
  | [] => true
  | .env move :: turns => meets guard ⟨pool.threads, move pool.shared⟩ turns
  | .thread i handle :: turns =>
      match pool.threads i with
      | .ret _ => meets guard pool turns
      | .call c resume =>
          guard i c pool.shared &&
            meets guard ⟨Function.update pool.threads i (resume (handle c pool.shared).1),
              (handle c pool.shared).2⟩ turns

variable {act : ι → (c : Call) → σ → Reply c → σ → Prop} {env : σ → σ → Prop}
  {turns : List (Turn ι Call Reply σ)}

theorem admits_of_admitted (admitted : ∀ turn ∈ turns, turn.Admitted act env)
    (pool : Pool ι Call Reply α σ) : pool.Admits act env turns := by
  induction turns generalizing pool with
  | nil => trivial
  | cons turn turns ih =>
      simp only [List.mem_cons, forall_eq_or_imp] at admitted
      obtain ⟨here, rest⟩ := admitted
      cases turn with
      | env move => exact ⟨here pool.shared, ih rest _⟩
      | thread i handle =>
          unfold Admits
          split
          · exact ih rest pool
          · exact ⟨here _ pool.shared, ih rest _⟩

theorem admits_guarded {guard : ι → Call → σ → Bool}
    (admitted : ∀ turn ∈ turns, turn.Admitted act env) {pool : Pool ι Call Reply α σ}
    (met : pool.meets guard turns = true) : pool.Admits (guarded guard act) env turns := by
  induction turns generalizing pool with
  | nil => trivial
  | cons turn turns ih =>
      simp only [List.mem_cons, forall_eq_or_imp] at admitted
      obtain ⟨here, rest⟩ := admitted
      cases turn with
      | env move => exact ⟨here pool.shared, ih rest met⟩
      | thread i handle =>
          unfold meets at met
          unfold Admits
          split
          · rename_i returned
            rw [returned] at met
            exact ih rest met
          · rename_i at_call
            rw [at_call] at met
            obtain ⟨guard_met, rest_met⟩ := Bool.and_eq_true_iff.mp met
            exact ⟨⟨guard_met, here _ pool.shared⟩, ih rest rest_met⟩

/-- A played schedule is a run. -/
theorem run_play {pool : Pool ι Call Reply α σ} (admits : pool.Admits act env turns) :
    Run (Interleaved act env) pool (play pool turns).2 (play pool turns).1 := by
  induction turns generalizing pool with
  | nil => exact .nil
  | cons turn turns ih =>
      cases turn with
      | env move => exact (Run.single (.env admits.1)).trans (ih admits.2)
      | thread i handle =>
          unfold Admits at admits
          unfold play
          split at admits
          · exact ih admits
          · rename_i at_call
            exact (Run.single (.thread at_call admits.1)).trans (ih admits.2)

/-- The pool after a schedule. -/
def after (pool : Pool ι Call Reply α σ) (turns : List (Turn ι Call Reply σ)) :
    Pool ι Call Reply α σ :=
  (play pool turns).1

theorem exists_run_after (admitted : ∀ turn ∈ turns, turn.Admitted act env)
    (pool : Pool ι Call Reply α σ) :
    ∃ labels, Run (Interleaved act env) pool labels (pool.after turns) :=
  ⟨_, run_play (admits_of_admitted admitted pool)⟩

theorem exists_run_after_guarded {guard : ι → Call → σ → Bool}
    (admitted : ∀ turn ∈ turns, turn.Admitted act env) {pool : Pool ι Call Reply α σ}
    (met : pool.meets guard turns = true) :
    ∃ labels, Run (Interleaved (guarded guard act) env) pool labels (pool.after turns) :=
  ⟨_, run_play (admits_guarded admitted met)⟩

end Pool

/-! ## Protocols -/

/-- The calls that may come next at a position, and where their replies lead. -/
structure Protocol (Call : Type u) (Reply : Call → Type v) (Q : Type y) where
  allowed : Q → Call → Prop
  next : Q → (c : Call) → Reply c → Q

namespace Protocol

variable {Call : Type u} {Reply : Call → Type v} {Q : Type y} {α β : Type w}
  (P : Protocol Call Reply Q)

/-- From a position, a program makes only calls that are allowed where it stands,
and returns only what `returns` admits there. -/
def Follows {α : Type w} (returns : Q → α → Prop) : Q → Program Call Reply α → Prop
  | q, .ret value => returns q value
  | q, .call c resume => P.allowed q c ∧ ∀ reply, Follows returns (P.next q c reply) (resume reply)

variable {P}

theorem Follows.bind {returns : Q → α → Prop} {returns' : Q → β → Prop} {q : Q}
    {program : Program Call Reply α} {next : α → Program Call Reply β}
    (first : P.Follows returns q program)
    (second : ∀ q value, returns q value → P.Follows returns' q (next value)) :
    P.Follows returns' q (program >>= next) := by
  induction program generalizing q with
  | ret value => exact second q value first
  | call c resume ih => exact ⟨first.1, fun reply => ih reply (first.2 reply)⟩

theorem Follows.mono {returns weaker : Q → α → Prop} {q : Q} {program : Program Call Reply α}
    (follows : P.Follows returns q program)
    (weaken : ∀ q value, returns q value → weaker q value) : P.Follows weaker q program := by
  induction program generalizing q with
  | ret value => exact weaken q value follows
  | call c resume ih => exact ⟨follows.1, fun reply => ih reply (follows.2 reply)⟩

/-- A program stays where it is if its calls may be made there and lead nowhere else. -/
theorem Follows.of_allCalls {stays : Call → Prop} {q : Q} {program : Program Call Reply α}
    (calls : program.AllCalls stays) (allowed : ∀ c, stays c → P.allowed q c)
    (next : ∀ c reply, stays c → P.next q c reply = q) :
    P.Follows (fun later _ => later = q) q program := by
  induction program with
  | ret value => rfl
  | call c resume ih =>
      refine ⟨allowed c calls.1, fun reply => ?_⟩
      rw [next c reply calls.1]
      exact ih reply (calls.2 reply)

/-- A program with errors stops at the first error. -/
theorem Follows.except_bind {ε : Type w} {returns : Q → Except ε α → Prop}
    {returns' : Q → Except ε β → Prop} {q : Q} {program : ExceptT ε (Program Call Reply) α}
    {next : α → ExceptT ε (Program Call Reply) β} (first : P.Follows returns q program.run)
    (fails : ∀ q err, returns q (.error err) → returns' q (.error err))
    (second : ∀ q value, returns q (.ok value) → P.Follows returns' q (next value).run) :
    P.Follows returns' q (program >>= next).run := by
  rw [ExceptT.run_bind]
  refine first.bind fun q result admitted => ?_
  cases result with
  | ok value => exact second q value admitted
  | error err => exact fails q err admitted

/-- A call whose reply is read as a result. -/
theorem Follows.call_bind {ε : Type w} {returns : Q → Except ε β → Prop} {q : Q} {c : Call}
    {read : Reply c → Except ε α} {next : α → ExceptT ε (Program Call Reply) β}
    (allowed : P.allowed q c)
    (fails : ∀ reply err, read reply = .error err → returns (P.next q c reply) (.error err))
    (second : ∀ reply value, read reply = .ok value →
      P.Follows returns (P.next q c reply) (next value).run) :
    P.Follows returns q
      ((ExceptT.mk (.call c fun reply => .ret (read reply)) : ExceptT ε (Program Call Reply) α) >>=
        next).run := by
  refine ⟨allowed, fun reply => ?_⟩
  cases result : read reply with
  | error err =>
      have program : (ExceptT.bindCont next (read reply) : Program Call Reply (Except ε β)) =
          .ret (.error err) := by
        rw [result]
        rfl
      change P.Follows returns _ (ExceptT.bindCont next (read reply))
      rw [program]
      exact fails reply err result
  | ok value =>
      change P.Follows returns _ (ExceptT.bindCont next (read reply))
      rw [result]
      exact second reply value result

/-- A program stays within a larger protocol if each of its positions stands for one
of the larger, and each move for a move. -/
theorem Follows.embed {Call' : Type*} {Reply' : Call' → Type*} {Q' : Type*}
    {P' : Protocol Call' Reply' Q'} {inject : Call → Call'}
    {view : (c : Call) → Reply' (inject c) → Reply c} (place : Q → Q')
    (allowed : ∀ q c, P.allowed q c → P'.allowed (place q) (inject c))
    (next : ∀ q c reply, P.allowed q c →
      P'.next (place q) (inject c) reply = place (P.next q c (view c reply)))
    {returns : Q → α → Prop} {returns' : Q' → α → Prop}
    (admits : ∀ q value, returns q value → returns' (place q) value) {q : Q}
    {program : Program Call Reply α} (follows : P.Follows returns q program) :
    P'.Follows returns' (place q) (program.embed inject view) := by
  induction program generalizing q with
  | ret value => exact admits q value follows
  | call c resume ih =>
      refine ⟨allowed q c follows.1, fun reply => ?_⟩
      rw [next q c reply follows.1]
      exact ih (view c reply) (follows.2 (view c reply))

section Positions

variable {ι : Type*} [DecidableEq ι] {σ : Type x}

/-- The pool with its programs forgotten: each thread stands at a position of its
protocol. -/
inductive Interleaved (P : ι → Protocol Call Reply Q)
    (act : ι → (c : Call) → σ → Reply c → σ → Prop) (env : σ → σ → Prop) :
    Step ((ι → Q) × σ) (Option (ι × Performed Call Reply))
  | thread {positions : ι → Q} {shared next : σ} {i : ι} {c : Call} {reply : Reply c} :
      (P i).allowed (positions i) c → act i c shared reply next →
      Interleaved P act env (positions, shared) (some (i, ⟨c, reply⟩))
        (Function.update positions i ((P i).next (positions i) c reply), next)
  | env {positions : ι → Q} {shared next : σ} :
      env shared next → Interleaved P act env (positions, shared) none (positions, next)

variable {P : ι → Protocol Call Reply Q} {act : ι → (c : Call) → σ → Reply c → σ → Prop}
  {env : σ → σ → Prop} {returns : ι → Q → α → Prop}

/-- The programs of a pool follow their protocols from given positions. -/
def Abstracts (P : ι → Protocol Call Reply Q) (returns : ι → Q → α → Prop) (positions : ι → Q)
    (pool : Pool ι Call Reply α σ) : Prop :=
  ∀ i, (P i).Follows (returns i) (positions i) (pool.threads i)

/-- One step of the programs is one step of the positions. -/
theorem exists_step {pool target : Pool ι Call Reply α σ} {positions : ι → Q}
    {label : Option (ι × Performed Call Reply)}
    (abstracts : Abstracts P returns positions pool)
    (step : Pool.Interleaved act env pool label target) :
    ∃ later, Interleaved P act env (positions, pool.shared) label (later, target.shared) ∧
      Abstracts P returns later target := by
  cases step with
  | @thread _ j c resume reply next at_call acted =>
      have follows := abstracts j
      rw [at_call] at follows
      refine ⟨_, .thread follows.1 acted, fun i => ?_⟩
      by_cases same : i = j
      · subst same
        simpa only [Function.update_self] using follows.2 reply
      · simpa only [Function.update_of_ne same] using abstracts i
  | env moved => exact ⟨positions, .env moved, abstracts⟩

/-- Every run of the programs is a run of the positions. -/
theorem exists_run {start target : Pool ι Call Reply α σ} {positions : ι → Q}
    {labels : List (Option (ι × Performed Call Reply))}
    (abstracts : Abstracts P returns positions start)
    (run : Run (Pool.Interleaved act env) start labels target) :
    ∃ later, Run (Interleaved P act env) (positions, start.shared) labels (later, target.shared) ∧
      Abstracts P returns later target := by
  induction run with
  | nil => exact ⟨positions, .nil, abstracts⟩
  | snoc _ last ih =>
      obtain ⟨middle, run, middle_abstracts⟩ := ih
      obtain ⟨later, step, later_abstracts⟩ := exists_step middle_abstracts last
      exact ⟨later, run.snoc step, later_abstracts⟩

/-- What holds at a thread's first position and survives its own moves holds wherever
it stands. -/
theorem position_invariant {motive : ι → Q → Prop} {start later : (ι → Q) × σ}
    {labels : List (Option (ι × Performed Call Reply))}
    (run : Run (Interleaved P act env) start labels later) (initial : ∀ i, motive i (start.1 i))
    (preserved : ∀ i q c reply, motive i q → (P i).allowed q c → motive i ((P i).next q c reply)) :
    ∀ i, motive i (later.1 i) := by
  refine run.invariant (motive := fun state => ∀ i, motive i (state.1 i)) initial ?_
  intro source label target holds step i
  cases step with
  | @thread _ _ _ j c reply allowed _ =>
      by_cases same : i = j
      · subst same
        simpa only [Function.update_self] using preserved i _ c reply (holds i) allowed
      · simpa only [Function.update_of_ne same] using holds i
  | env _ => exact holds i

end Positions

end Protocol

/-! ## Who called what -/

section Callers

variable {ι : Type*} {Call : Type u} {Reply : Call → Type v}

/-- The thread of a label, if its call and reply meet a predicate. -/
def caller? (p : Performed Call Reply → Bool) : Option (ι × Performed Call Reply) → Option ι
  | some (i, performed) => if p performed then some i else none
  | none => none

/-- The threads whose calls and replies meet a predicate, in order. -/
def callers (p : Performed Call Reply → Bool)
    (labels : List (Option (ι × Performed Call Reply))) : List ι :=
  labels.filterMap (caller? p)

variable {p : Performed Call Reply → Bool} {labels : List (Option (ι × Performed Call Reply))}

@[simp]
theorem callers_nil : callers p ([] : List (Option (ι × Performed Call Reply))) = [] :=
  rfl

@[simp]
theorem callers_concat_env : callers p (labels ++ [none]) = callers p labels := by
  simp [callers, caller?]

@[simp]
theorem callers_concat (i : ι) (performed : Performed Call Reply) :
    callers p (labels ++ [some (i, performed)]) =
      if p performed then callers p labels ++ [i] else callers p labels := by
  cases met : p performed <;> simp [callers, caller?, met]

variable {Q : Type y} {σ : Type x} [DecidableEq ι] {P : ι → Protocol Call Reply Q}
  {act : ι → (c : Call) → σ → Reply c → σ → Prop} {env : σ → σ → Prop} {start later : (ι → Q) × σ}

/-- A flag of the position that exactly the calls of one kind raise tells who made
such a call. -/
theorem mem_callers_iff (flag : Q → Bool)
    (run : Run (Protocol.Interleaved P act env) start labels later)
    (initial : ∀ i, flag (start.1 i) = false)
    (raises : ∀ i q c reply, (P i).allowed q c →
      flag ((P i).next q c reply) = (flag q || p ⟨c, reply⟩)) (i : ι) :
    i ∈ callers p labels ↔ flag (later.1 i) = true := by
  refine run.invariant_labels (motive := fun labels state =>
    ∀ i, i ∈ callers p labels ↔ flag (state.1 i) = true) (by simpa using initial) ?_ i
  intro labels source label target holds step i
  cases step with
  | @thread _ _ _ j c reply allowed _ =>
      have flag_eq := raises j _ c reply allowed
      have before := holds i
      dsimp only at before ⊢
      by_cases same : i = j
      · subst same
        rw [callers_concat, Function.update_self, flag_eq, Bool.or_eq_true, ← before]
        cases p ⟨c, reply⟩ <;> simp
      · rw [callers_concat, Function.update_of_ne same, ← before]
        cases p ⟨c, reply⟩ <;> simp [same]
  | env _ => simpa using holds i

/-- If such a call is only ever made while the flag is down, every thread makes at
most one. -/
theorem nodup_callers (flag : Q → Bool)
    (run : Run (Protocol.Interleaved P act env) start labels later)
    (initial : ∀ i, flag (start.1 i) = false)
    (raises : ∀ i q c reply, (P i).allowed q c →
      flag ((P i).next q c reply) = (flag q || p ⟨c, reply⟩))
    (once : ∀ {taken reached}, Run (Protocol.Interleaved P act env) start taken reached →
      ∀ i c reply, (P i).allowed (reached.1 i) c → p ⟨c, reply⟩ = true →
        flag (reached.1 i) = false) :
    (callers p labels).Nodup := by
  induction run with
  | nil => exact List.nodup_nil
  | @snoc labels middle target label before last ih =>
      cases last with
      | @thread positions _ _ j c reply allowed _ =>
          rw [callers_concat]
          split
          · rename_i met
            refine ih.append (List.nodup_singleton j) (List.disjoint_singleton.mpr ?_)
            rw [mem_callers_iff flag before initial raises, once before j c reply allowed met]
            simp
          · exact ih
      | env _ => simpa using ih

/-- If such calls are only ever made where they raise a flag, and the flag stays up,
their callers have it up. -/
theorem flag_of_mem_callers (flag : Q → Bool)
    (run : Run (Protocol.Interleaved P act env) start labels later)
    (raised : ∀ {taken reached}, Run (Protocol.Interleaved P act env) start taken reached →
      ∀ i c reply, (P i).allowed (reached.1 i) c → p ⟨c, reply⟩ = true →
        flag ((P i).next (reached.1 i) c reply) = true)
    (kept : ∀ i q c reply, (P i).allowed q c → flag q = true →
      flag ((P i).next q c reply) = true) {i : ι} (called : i ∈ callers p labels) :
    flag (later.1 i) = true := by
  induction run generalizing i with
  | nil => simp at called
  | @snoc labels middle target label before last ih =>
      cases last with
      | @thread positions _ _ j c reply allowed _ =>
          rw [callers_concat] at called
          by_cases same : i = j
          · subst same
            simp only [Function.update_self]
            split at called
            · rename_i met
              exact raised before i c reply allowed met
            · exact kept i _ c reply allowed (ih called)
          · simp only [Function.update_of_ne same]
            split at called
            · rcases List.mem_append.mp called with earlier | now
              · exact ih earlier
              · exact absurd (List.mem_singleton.mp now) same
            · exact ih called
      | env _ => exact ih (by simpa using called)

end Callers

end Solva.Transition
