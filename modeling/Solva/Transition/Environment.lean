import Mathlib.Logic.Relation
import Solva.Transition.Program

/-!
# One program in surroundings that move

The surroundings of a program take any number of steps before each of its calls and
after the last one. A call is answered in the state it is made in.
-/

namespace Solva.Transition.Program

open Relation

universe u v w x

variable {Call : Type u} {Reply : Call → Type v} {α β : Type w} {σ : Type x}

/-- Runs of a program to its end, from a state to a state. -/
inductive Amid (act : (c : Call) → σ → Reply c → σ → Prop) (env : σ → σ → Prop) {α : Type w} :
    Program Call Reply α → σ → α → σ → Prop
  | ret {value : α} {start target : σ} :
      ReflTransGen env start target → Amid act env (.ret value) start value target
  | call {c : Call} {resume : Reply c → Program Call Reply α} {reply : Reply c} {value : α}
      {start before after target : σ} : ReflTransGen env start before →
      act c before reply after → Amid act env (resume reply) after value target →
      Amid act env (.call c resume) start value target

variable {act : (c : Call) → σ → Reply c → σ → Prop} {env : σ → σ → Prop}

theorem amid_ret_iff {value result : α} {start target : σ} :
    Amid act env (.ret value) start result target ↔
      result = value ∧ ReflTransGen env start target := by
  constructor
  · intro run
    cases run with
    | ret moved => exact ⟨rfl, moved⟩
  · rintro ⟨rfl, moved⟩
    exact .ret moved

theorem amid_call_iff {c : Call} {resume : Reply c → Program Call Reply α} {value : α}
    {start target : σ} :
    Amid act env (.call c resume) start value target ↔
      ∃ before reply after, ReflTransGen env start before ∧ act c before reply after ∧
        Amid act env (resume reply) after value target := by
  constructor
  · intro run
    cases run with
    | call moved acted rest => exact ⟨_, _, _, moved, acted, rest⟩
  · rintro ⟨before, reply, after, moved, acted, rest⟩
    exact .call moved acted rest

/-- What the surroundings do first belongs to the run. -/
theorem Amid.after {program : Program Call Reply α} {value : α} {start middle target : σ}
    (moved : ReflTransGen env start middle) (run : Amid act env program middle value target) :
    Amid act env program start value target := by
  cases run with
  | ret later => exact .ret (moved.trans later)
  | call later acted rest => exact .call (moved.trans later) acted rest

/-- A composition runs part by part. -/
theorem amid_bind_iff {program : Program Call Reply α} {next : α → Program Call Reply β}
    {value : β} {start target : σ} :
    Amid act env (program >>= next) start value target ↔
      ∃ first middle, Amid act env program start first middle ∧
        Amid act env (next first) middle value target := by
  induction program generalizing start with
  | ret first =>
      rw [ret_bind]
      constructor
      · intro run
        exact ⟨first, start, .ret .refl, run⟩
      · rintro ⟨_, middle, run, rest⟩
        rcases amid_ret_iff.mp run with ⟨rfl, moved⟩
        exact rest.after moved
  | call c resume ih =>
      rw [call_bind, amid_call_iff]
      constructor
      · rintro ⟨before, reply, after, moved, acted, run⟩
        rcases (ih reply).mp run with ⟨first, middle, run, rest⟩
        exact ⟨first, middle, .call moved acted run, rest⟩
      · rintro ⟨first, middle, run, rest⟩
        rcases amid_call_iff.mp run with ⟨before, reply, after, moved, acted, run⟩
        exact ⟨before, reply, after, moved, acted, (ih reply).mpr ⟨first, middle, run, rest⟩⟩

theorem amid_perform_iff {Reply : Call → Type w} {act : (c : Call) → σ → Reply c → σ → Prop}
    {c : Call} {reply : Reply c} {start target : σ} :
    Amid act env (perform c) start reply target ↔
      ∃ before after, ReflTransGen env start before ∧ act c before reply after ∧
        ReflTransGen env after target := by
  rw [perform, amid_call_iff]
  constructor
  · rintro ⟨before, found, after, moved, acted, rest⟩
    rcases amid_ret_iff.mp rest with ⟨rfl, later⟩
    exact ⟨before, after, moved, acted, later⟩
  · rintro ⟨before, after, moved, acted, later⟩
    exact ⟨before, reply, after, moved, acted, .ret later⟩

end Solva.Transition.Program
