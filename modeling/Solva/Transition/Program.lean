import Solva.Transition.Core

/-!
# Programs that call out

A `Program` either returns or performs a call and continues with the reply. It is
run alone against a handler of its calls by `exec`.
-/

namespace Solva.Transition

universe u v w x

/-- A program over a signature of calls and their replies. -/
inductive Program (Call : Type u) (Reply : Call → Type v) (α : Type w)
  | ret (value : α)
  | call (c : Call) (resume : Reply c → Program Call Reply α)

namespace Program

variable {Call : Type u} {Reply : Call → Type v} {α β : Type w}

/-- Sequential composition. -/
def bind {α β : Type w} : Program Call Reply α → (α → Program Call Reply β) →
    Program Call Reply β
  | ret value, next => next value
  | call c resume, next => call c fun reply => (resume reply).bind next

instance : Monad (Program Call Reply) where
  pure := ret
  bind := bind

@[simp]
theorem pure_eq (value : α) : (pure value : Program Call Reply α) = ret value :=
  rfl

@[simp]
theorem ret_bind (value : α) (next : α → Program Call Reply β) :
    (ret value >>= next) = next value :=
  rfl

@[simp]
theorem call_bind (c : Call) (resume : Reply c → Program Call Reply α)
    (next : α → Program Call Reply β) :
    (call c resume >>= next) = call c fun reply => resume reply >>= next :=
  rfl

/-- The program that performs one call. -/
def perform {Reply : Call → Type w} (c : Call) : Program Call Reply (Reply c) :=
  call c ret

/-- A program whose calls are made as calls of another signature. -/
def embed {Call' : Type*} {Reply' : Call' → Type*} {α : Type w} (inject : Call → Call')
    (view : (c : Call) → Reply' (inject c) → Reply c) :
    Program Call Reply α → Program Call' Reply' α
  | ret value => .ret value
  | call c resume => .call (inject c) fun reply => (resume (view c reply)).embed inject view

/-- The value of a program that has returned. -/
def result? {α : Type w} : Program Call Reply α → Option α
  | ret value => some value
  | call _ _ => none

theorem eq_ret_of_result? {program : Program Call Reply α} {value : α}
    (returned : program.result? = some value) : program = .ret value := by
  cases program with
  | ret result => exact congrArg ret (Option.some.inj returned)
  | call c resume => cases returned

/-- The values that a program may return, over all replies to its calls. -/
inductive Yields : Program Call Reply α → α → Prop
  | ret (value : α) : Yields (.ret value) value
  | call {c : Call} {resume : Reply c → Program Call Reply α} {value : α} (reply : Reply c) :
      Yields (resume reply) value → Yields (.call c resume) value

/-! ## Running alone -/

section Exec

variable {σ : Type x} (handle : (c : Call) → σ → Reply c × σ)

/-- Run a program against a handler of its calls. -/
def exec {α : Type w} : Program Call Reply α → σ → α × σ
  | ret value, state => (value, state)
  | call c resume, state => exec (resume (handle c state).1) (handle c state).2

@[simp]
theorem exec_ret (value : α) (state : σ) : exec handle (ret value) state = (value, state) :=
  rfl

@[simp]
theorem exec_call (c : Call) (resume : Reply c → Program Call Reply α) (state : σ) :
    exec handle (call c resume) state =
      exec handle (resume (handle c state).1) (handle c state).2 :=
  rfl

theorem exec_bind (program : Program Call Reply α) (next : α → Program Call Reply β)
    (state : σ) :
    exec handle (program >>= next) state =
      exec handle (next (exec handle program state).1) (exec handle program state).2 := by
  induction program generalizing state with
  | ret value => rfl
  | call c resume ih => exact ih _ _

/-- A program with errors stops at the first error. -/
theorem exec_except_bind {ε : Type w} {program : ExceptT ε (Program Call Reply) α}
    {next : α → ExceptT ε (Program Call Reply) β} (state : σ) :
    exec handle (program >>= next).run state =
      match exec handle program.run state with
      | (.ok value, later) => exec handle (next value).run later
      | (.error err, later) => (.error err, later) := by
  rw [ExceptT.run_bind, exec_bind]
  generalize exec handle program.run state = ended
  obtain ⟨err | value, later⟩ := ended <;> rfl

/-- A successful composition succeeds part by part. -/
theorem exec_except_bind_eq_ok {ε : Type w} {program : ExceptT ε (Program Call Reply) α}
    {next : α → ExceptT ε (Program Call Reply) β} {state target : σ} {value : β} :
    exec handle (program >>= next).run state = (.ok value, target) ↔
      ∃ first middle, exec handle program.run state = (.ok first, middle) ∧
        exec handle (next first).run middle = (.ok value, target) := by
  rw [exec_except_bind]
  generalize exec handle program.run state = ended
  obtain ⟨err | value, later⟩ := ended <;> simp

end Exec

/-! ## Programs that make only some calls -/

/-- Every call the program can make satisfies a predicate. -/
def AllCalls {α : Type w} (allowed : Call → Prop) : Program Call Reply α → Prop
  | ret _ => True
  | call c resume => allowed c ∧ ∀ reply, AllCalls allowed (resume reply)

theorem AllCalls.bind {allowed : Call → Prop} {program : Program Call Reply α}
    {next : α → Program Call Reply β} (first : AllCalls allowed program)
    (second : ∀ value, AllCalls allowed (next value)) : AllCalls allowed (program >>= next) := by
  induction program with
  | ret value => exact second value
  | call c resume ih => exact ⟨first.1, fun reply => ih reply (first.2 reply)⟩

theorem AllCalls.except_bind {ε : Type w} {allowed : Call → Prop}
    {program : ExceptT ε (Program Call Reply) α} {next : α → ExceptT ε (Program Call Reply) β}
    (first : AllCalls allowed program.run) (second : ∀ value, AllCalls allowed (next value).run) :
    AllCalls allowed (program >>= next).run := by
  rw [ExceptT.run_bind]
  refine first.bind fun value => ?_
  cases value with
  | ok value => exact second value
  | error err => trivial

/-- A reflexive and transitive relation that each allowed call respects relates the
two ends of a run of the program. -/
theorem AllCalls.related {σ : Type x} {handle : (c : Call) → σ → Reply c × σ}
    {allowed : Call → Prop} {r : σ → σ → Prop} {program : Program Call Reply α} {state : σ}
    (calls : AllCalls allowed program) (refl : ∀ state, r state state)
    (trans : ∀ ⦃first second third⦄, r first second → r second third → r first third)
    (respects : ∀ c state, allowed c → r state (handle c state).2) :
    r state (exec handle program state).2 := by
  induction program generalizing state with
  | ret value => exact refl state
  | call c resume ih =>
      exact trans (respects c state calls.1) (ih _ (calls.2 _))

/-! ## Every call of a run -/

/-- Every call of a run satisfies a predicate in the state it is made in. -/
def Along {σ : Type x} {α : Type w} (handle : (c : Call) → σ → Reply c × σ)
    (good : Call → σ → Prop) : Program Call Reply α → σ → Prop
  | ret _, _ => True
  | call c resume, state =>
      good c state ∧ Along handle good (resume (handle c state).1) (handle c state).2

section Along

variable {σ : Type x} {handle : (c : Call) → σ → Reply c × σ} {good : Call → σ → Prop}

theorem along_bind_iff {program : Program Call Reply α} {next : α → Program Call Reply β}
    {state : σ} :
    Along handle good (program >>= next) state ↔
      Along handle good program state ∧
        Along handle good (next (exec handle program state).1) (exec handle program state).2 := by
  induction program generalizing state with
  | ret value => exact ⟨fun rest => ⟨trivial, rest⟩, And.right⟩
  | call c resume ih =>
      rw [call_bind, Along, Along, exec_call, ih, and_assoc]

theorem Along.except_bind {ε : Type w} {program : ExceptT ε (Program Call Reply) α}
    {next : α → ExceptT ε (Program Call Reply) β} {state : σ}
    (along : Along handle good (program >>= next).run state) :
    Along handle good program.run state ∧
      ∀ value later, exec handle program.run state = (.ok value, later) →
        Along handle good (next value).run later := by
  rw [ExceptT.run_bind, along_bind_iff] at along
  refine ⟨along.1, fun value later ran => ?_⟩
  have rest := along.2
  rw [ran] at rest
  exact rest

end Along

end Program

end Solva.Transition
