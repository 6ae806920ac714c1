import Mathlib.Logic.Relation
import Mathlib.Data.List.Induction

/-!
# Labelled transitions and their finite runs

A step relation `Step σ ι` relates a source state, a label and a target state.
A run records the labels it takes in order, newest last, so that a statement
can speak about every step of a history as well as about the state it reaches.

The induction rules below are the only place where runs are taken apart: an
invariant is proved once for a single step and lifted from there.
-/

namespace Solva.Transition

universe u v w

/-- A labelled step relation. -/
abbrev Step (σ : Type u) (ι : Type v) := σ → ι → σ → Prop

/-- Finite runs of a step relation, with the labels taken in order. -/
inductive Run {σ : Type u} {ι : Type v} (step : Step σ ι) (start : σ) :
    List ι → σ → Prop
  | nil : Run step start [] start
  | snoc {labels : List ι} {middle target : σ} {label : ι} :
      Run step start labels middle → step middle label target →
      Run step start (labels ++ [label]) target

variable {σ : Type u} {ι : Type v} {step : Step σ ι}

/-- The step relation of a total function of state and label. -/
def ofFunction (next : σ → ι → σ) : Step σ ι :=
  fun source label target => target = next source label

@[simp]
theorem ofFunction_iff (next : σ → ι → σ) (source target : σ) (label : ι) :
    ofFunction next source label target ↔ target = next source label :=
  Iff.rfl

/-- A run of a total function is its left fold over the labels. -/
theorem run_ofFunction_iff (next : σ → ι → σ) (start target : σ)
    (labels : List ι) :
    Run (ofFunction next) start labels target ↔
      target = labels.foldl next start := by
  constructor
  · intro run
    induction run with
    | nil => rfl
    | snoc _ last ih =>
        rw [ofFunction_iff] at last
        rw [last, ih, List.foldl_append]
        rfl
  · rintro rfl
    induction labels using List.reverseRecOn with
    | nil => exact Run.nil
    | append_singleton labels label ih =>
        rw [List.foldl_append]
        exact Run.snoc ih rfl

/-- Strengthen a step relation by a condition on source, label and target. -/
def restrict (step : Step σ ι) (allowed : Step σ ι) : Step σ ι :=
  fun source label target => step source label target ∧ allowed source label target

namespace Run

theorem single {source target : σ} {label : ι}
    (taken : step source label target) : Run step source [label] target :=
  Run.snoc Run.nil taken

/-- Concatenating runs concatenates their labels. -/
theorem trans {source middle target : σ} {first second : List ι}
    (left : Run step source first middle) (right : Run step middle second target) :
    Run step source (first ++ second) target := by
  induction right with
  | nil => simpa using left
  | snoc _ last ih =>
      rw [← List.append_assoc]
      exact Run.snoc ih last

/-- A state predicate that holds at the start and survives each step holds at
the end of every run. -/
theorem invariant {motive : σ → Prop} {start target : σ} {labels : List ι}
    (run : Run step start labels target) (initial : motive start)
    (preserved : ∀ ⦃source label next⦄, motive source →
      step source label next → motive next) :
    motive target := by
  induction run with
  | nil => exact initial
  | snoc _ last ih => exact preserved ih last

/-- The invariant rule for a predicate that also looks at the labels taken so
far. -/
theorem invariant_labels {motive : List ι → σ → Prop} {start target : σ}
    {labels : List ι} (run : Run step start labels target)
    (initial : motive [] start)
    (preserved : ∀ ⦃taken source label next⦄, motive taken source →
      step source label next → motive (taken ++ [label]) next) :
    motive labels target := by
  induction run with
  | nil => exact initial
  | snoc _ last ih => exact preserved ih last

/-- A reflexive and transitive relation that every step respects relates the
two ends of every run. -/
theorem related {r : σ → σ → Prop} {start target : σ} {labels : List ι}
    (run : Run step start labels target) (refl : ∀ state, r state state)
    (trans : ∀ ⦃first second third⦄, r first second → r second third → r first third)
    (respects : ∀ ⦃source label next⦄, step source label next → r source next) :
    r start target := by
  induction run with
  | nil => exact refl start
  | snoc _ last ih => exact trans ih (respects last)

/-- A run of the stronger relation is a run of the weaker one. -/
theorem mono {weak : Step σ ι} {start target : σ} {labels : List ι}
    (run : Run step start labels target)
    (weaken : ∀ ⦃source label next⦄, step source label next →
      weak source label next) :
    Run weak start labels target := by
  induction run with
  | nil => exact Run.nil
  | snoc _ last ih => exact Run.snoc ih (weaken last)

end Run

end Solva.Transition
