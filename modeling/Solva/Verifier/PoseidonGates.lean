import Solva.Prover.Permutation
import Solva.Verifier.Types

/-!
# Poseidon2 in gates

The verifier's Poseidon2 relations hold on a row exactly when the next row is a round of
the permutation that the tree is hashed with. A run of rows with the constants of the
permutation therefore starts from an input and ends in its image.
-/

namespace Solva.Verifier

open Bn254 Prover.Poseidon2

/-- The four wires of a row. -/
def wires (row : Wire → Fr) : State :=
  ⟨row .wl, row .wr, row .wo, row .w4⟩

/-- The four wires of the next row. -/
def shiftedWires (row : Wire → Fr) : State :=
  ⟨row .wlShift, row .wrShift, row .woShift, row .w4Shift⟩

/-- The selectors that hold round constants. -/
def roundConstants (row : Wire → Fr) : State :=
  ⟨row .ql, row .qr, row .qo, row .q4⟩

/-- A row of an external round. -/
structure ExternalGate (row : Wire → Fr) : Prop where
  selected : row .qPoseidon2External ≠ 0
  holds : ∀ e ∈ accumulatePoseidonExternalRelation row 1, e = 0

/-- A row of an internal round. -/
structure InternalGate (row : Wire → Fr) : Prop where
  selected : row .qPoseidon2Internal ≠ 0
  holds : ∀ e ∈ accumulatePoseidonInternalRelation row 1, e = 0

/-- A row of one round: one of the two relations is switched off, and all eight
contributions vanish. -/
structure OneRound (row : Wire → Fr) : Prop where
  one : row .qPoseidon2External = 0 ∨ row .qPoseidon2Internal = 0
  external : ∀ e ∈ accumulatePoseidonExternalRelation row 1, e = 0
  internal : ∀ e ∈ accumulatePoseidonInternalRelation row 1, e = 0

/-! ## One row -/

/-- What the four contributions of a round compare. -/
def differences (computed next : State) (selector : Fr) : List Fr :=
  [(computed.s0 - next.s0) * selector, (computed.s1 - next.s1) * selector,
    (computed.s2 - next.s2) * selector, (computed.s3 - next.s3) * selector]

theorem differences_iff {computed next : State} {selector : Fr} (selected : selector ≠ 0) :
    (∀ e ∈ differences computed next selector, e = 0) ↔ next = computed := by
  have entry (x y : Fr) : (x - y) * selector = 0 ↔ y = x := by
    rw [mul_eq_zero, or_iff_left selected, sub_eq_zero, eq_comm]
  rcases computed with ⟨x0, x1, x2, x3⟩
  rcases next with ⟨y0, y1, y2, y3⟩
  simp only [differences, List.forall_mem_cons, entry, State.mk.injEq, List.not_mem_nil,
    false_implies, implies_true, and_true]

/-- A relation that is switched off contributes nothing. -/
theorem differences_zero (computed next : State) : ∀ e ∈ differences computed next 0, e = 0 := by
  simp [differences]

theorem externalRelation_eq (row : Wire → Fr) : accumulatePoseidonExternalRelation row 1 =
    differences (fullRound (wires row) (roundConstants row)) (shiftedWires row)
      (row .qPoseidon2External) := by
  simp only [accumulatePoseidonExternalRelation, differences, fullRound, matMulExternal, sboxFull,
    addRc, wires, shiftedWires, roundConstants, sboxSingle_eq, List.cons.injEq, and_true, mul_one]
  constructor
  · ring
  constructor
  · ring
  constructor
  · ring
  · ring

theorem diagonal_eq :
    md = ⟨(INTERNAL_MATRIX_DIAGONAL.getD 0 0 : Fr), (INTERNAL_MATRIX_DIAGONAL.getD 1 0 : Fr),
      (INTERNAL_MATRIX_DIAGONAL.getD 2 0 : Fr), (INTERNAL_MATRIX_DIAGONAL.getD 3 0 : Fr)⟩ := by
  decide +kernel

theorem internalRelation_eq (row : Wire → Fr) : accumulatePoseidonInternalRelation row 1 =
    differences (partialRound (wires row) (row .ql)) (shiftedWires row)
      (row .qPoseidon2Internal) := by
  simp only [accumulatePoseidonInternalRelation, differences, partialRound, matMulInternal, wires,
    shiftedWires, sboxSingle_eq, diagonal_eq, mul_one]

/-- An external gate holds exactly when the next row is a full round. -/
theorem externalGate_iff {row : Wire → Fr} :
    ExternalGate row ↔ row .qPoseidon2External ≠ 0 ∧
      shiftedWires row = fullRound (wires row) (roundConstants row) := by
  constructor
  · rintro ⟨selected, holds⟩
    rw [externalRelation_eq] at holds
    exact ⟨selected, (differences_iff selected).mp holds⟩
  · rintro ⟨selected, round⟩
    refine ⟨selected, ?_⟩
    rw [externalRelation_eq]
    exact (differences_iff selected).mpr round

/-- An internal gate holds exactly when the next row is a partial round. -/
theorem internalGate_iff {row : Wire → Fr} :
    InternalGate row ↔ row .qPoseidon2Internal ≠ 0 ∧
      shiftedWires row = partialRound (wires row) (row .ql) := by
  constructor
  · rintro ⟨selected, holds⟩
    rw [internalRelation_eq] at holds
    exact ⟨selected, (differences_iff selected).mp holds⟩
  · rintro ⟨selected, round⟩
    refine ⟨selected, ?_⟩
    rw [internalRelation_eq]
    exact (differences_iff selected).mpr round

/-! ## Rows in a run -/

/-- Rows that follow one another, from a state to a state. -/
def Linked : State → List (Wire → Fr) → State → Prop
  | start, [], last => last = start
  | start, row :: rows, last => wires row = start ∧ Linked (shiftedWires row) rows last

theorem linked_append_iff {start last : State} {before after : List (Wire → Fr)} :
    Linked start (before ++ after) last ↔
      ∃ middle, Linked start before middle ∧ Linked middle after last := by
  induction before generalizing start with
  | nil =>
      constructor
      · intro linked
        exact ⟨start, rfl, linked⟩
      · rintro ⟨middle, rfl, linked⟩
        exact linked
  | cons row before ih =>
      rw [List.cons_append, Linked, ih]
      constructor
      · rintro ⟨here, middle, first, second⟩
        exact ⟨middle, ⟨here, first⟩, second⟩
      · rintro ⟨middle, ⟨here, first⟩, second⟩
        exact ⟨here, middle, first, second⟩

/-- Rows whose gates are rounds with constants of a kind compute their fold. -/
theorem linked_rounds {α : Type} {gate : (Wire → Fr) → Prop} {round : State → α → State}
    {constantOf : (Wire → Fr) → α}
    (computes : ∀ row, gate row → shiftedWires row = round (wires row) (constantOf row))
    {rows : List (Wire → Fr)} (gates : ∀ row ∈ rows, gate row) {start last : State}
    (linked : Linked start rows last) : last = (rows.map constantOf).foldl round start := by
  induction rows generalizing start with
  | nil => exact linked
  | cons row rows ih =>
      rw [List.forall_mem_cons] at gates
      rcases linked with ⟨here, linked⟩
      rw [List.map_cons, List.foldl_cons, ← here, ← computes row gates.1]
      exact ih gates.2 linked

/-- There are such rows for all constants. -/
theorem exists_linked_rounds {α : Type} {gate : (Wire → Fr) → Prop} {round : State → α → State}
    {constantOf : (Wire → Fr) → α}
    (realises : ∀ state constant, ∃ row, gate row ∧ wires row = state ∧
      constantOf row = constant ∧ shiftedWires row = round state constant)
    (constants : List α) (start : State) :
    ∃ rows, (∀ row ∈ rows, gate row) ∧ rows.map constantOf = constants ∧
      Linked start rows (constants.foldl round start) := by
  induction constants generalizing start with
  | nil => exact ⟨[], by simp, rfl, rfl⟩
  | cons constant constants ih =>
      rcases realises start constant with ⟨row, holds, here, constant_eq, next⟩
      rcases ih (round start constant) with ⟨rows, gates, constants_eq, linked⟩
      refine ⟨row :: rows, List.forall_mem_cons.mpr ⟨holds, gates⟩, ?_, here, ?_⟩
      · rw [List.map_cons, constant_eq, constants_eq]
      · rw [next]
        exact linked

/-- A row of an external or internal round with wires, constants and the wires of the
next row. -/
def roundRow (external : Bool) (state constants next : State) : Wire → Fr
  | .wl => state.s0
  | .wr => state.s1
  | .wo => state.s2
  | .w4 => state.s3
  | .ql => constants.s0
  | .qr => constants.s1
  | .qo => constants.s2
  | .q4 => constants.s3
  | .wlShift => next.s0
  | .wrShift => next.s1
  | .woShift => next.s2
  | .w4Shift => next.s3
  | .qPoseidon2External => if external then 1 else 0
  | .qPoseidon2Internal => if external then 0 else 1
  | _ => 0

/-- There is a row for every external round. -/
theorem exists_externalGate (state constants : State) :
    ∃ row, (ExternalGate row ∧ OneRound row) ∧ wires row = state ∧
      roundConstants row = constants ∧ shiftedWires row = fullRound state constants := by
  let row := roundRow true state constants (fullRound state constants)
  have gate : ExternalGate row := externalGate_iff.mpr ⟨one_ne_zero, rfl⟩
  refine ⟨row, ⟨gate, .inr rfl, gate.holds, ?_⟩, rfl, rfl, rfl⟩
  rw [internalRelation_eq]
  exact differences_zero _ _

/-- There is a row for every internal round. -/
theorem exists_internalGate (state : State) (constant : Fr) :
    ∃ row, (InternalGate row ∧ OneRound row) ∧ wires row = state ∧
      row .ql = constant ∧ shiftedWires row = partialRound state constant := by
  let row := roundRow false state ⟨constant, 0, 0, 0⟩ (partialRound state constant)
  have gate : InternalGate row := internalGate_iff.mpr ⟨one_ne_zero, rfl⟩
  refine ⟨row, ⟨gate, .inl rfl, ?_, gate.holds⟩, rfl, rfl, rfl⟩
  rw [externalRelation_eq]
  exact differences_zero _ _

/-! ## The permutation -/

/-- Rows with the constants of the permutation: full rounds, partial ones, full ones. Each
row may be asked for something more. -/
structure PermutationGates (also : (Wire → Fr) → Prop) (input output : State)
    (first middle last : List (Wire → Fr)) : Prop where
  external : ∀ row ∈ first ++ last, ExternalGate row ∧ also row
  internal : ∀ row ∈ middle, InternalGate row ∧ also row
  constants_first : first.map roundConstants = rcFirst
  constants_middle : middle.map (fun row => row .ql) = rcPartial
  constants_last : last.map roundConstants = rcLast
  linked : Linked (matMulExternal input) (first ++ (middle ++ last)) output

/-- The gates can be satisfied between an input and an output exactly when the output is the
permutation of the input. -/
theorem exists_permutationGates_iff {also : (Wire → Fr) → Prop}
    (admits : ∀ row, OneRound row → also row) (input output : State) :
    (∃ first middle last, PermutationGates also input output first middle last) ↔
      output = permutation input := by
  constructor
  · rintro ⟨first, middle, last, gates⟩
    rcases linked_append_iff.mp gates.linked with ⟨state1, linked1, rest⟩
    rcases linked_append_iff.mp rest with ⟨state2, linked2, linked3⟩
    have external (row : Wire → Fr) (gate : ExternalGate row ∧ also row) :=
      (externalGate_iff.mp gate.1).2
    have internal (row : Wire → Fr) (gate : InternalGate row ∧ also row) :=
      (internalGate_iff.mp gate.1).2
    have all := List.forall_mem_append.mp gates.external
    rw [linked_rounds external all.2 linked3, linked_rounds internal gates.internal linked2,
      linked_rounds external all.1 linked1, gates.constants_first, gates.constants_middle,
      gates.constants_last, permutation]
  · rintro rfl
    have external (state constants : State) : ∃ row, (ExternalGate row ∧ also row) ∧
        wires row = state ∧ roundConstants row = constants ∧
          shiftedWires row = fullRound state constants := by
      rcases exists_externalGate state constants with ⟨row, ⟨gate, one⟩, rest⟩
      exact ⟨row, ⟨gate, admits row one⟩, rest⟩
    have internal (state : State) (constant : Fr) : ∃ row, (InternalGate row ∧ also row) ∧
        wires row = state ∧ row .ql = constant ∧
          shiftedWires row = partialRound state constant := by
      rcases exists_internalGate state constant with ⟨row, ⟨gate, one⟩, rest⟩
      exact ⟨row, ⟨gate, admits row one⟩, rest⟩
    rcases exists_linked_rounds external rcFirst (matMulExternal input) with
      ⟨first, gates1, constants1, linked1⟩
    rcases exists_linked_rounds internal rcPartial (rcFirst.foldl fullRound (matMulExternal input))
      with ⟨middle, gates2, constants2, linked2⟩
    rcases exists_linked_rounds external rcLast (rcPartial.foldl partialRound
      (rcFirst.foldl fullRound (matMulExternal input))) with ⟨last, gates3, constants3, linked3⟩
    exact ⟨first, middle, last, List.forall_mem_append.mpr ⟨gates1, gates3⟩, gates2, constants1,
      constants2, constants3, linked_append_iff.mpr ⟨_, linked1, linked_append_iff.mpr
        ⟨_, linked2, linked3⟩⟩⟩

/-- Two runs of gates with an addition between them, from four inputs to a hash. -/
def SpongeGates (also : (Wire → Fr) → Prop) (a b c d hash : Fr) : Prop :=
  ∃ absorbed output : State,
    (∃ first middle last, PermutationGates also ⟨a, b, c, ((4 * 2 ^ 64 : Nat) : Fr)⟩ absorbed
      first middle last) ∧
    (∃ first middle last, PermutationGates also { absorbed with s0 := absorbed.s0 + d } output
      first middle last) ∧
    output.s0 = hash

theorem spongeGates_iff {also : (Wire → Fr) → Prop} (admits : ∀ row, OneRound row → also row)
    (a b c d hash : Fr) : poseidon2Perm4 a b c d = hash ↔ SpongeGates also a b c d hash := by
  have iv : ((4 * 2 ^ 64 : Nat) : Fr) = 4 * 18446744073709551616 := by norm_num
  rw [SpongeGates, iv]
  simp only [exists_permutationGates_iff admits]
  constructor
  · intro hashed
    exact ⟨_, _, rfl, rfl, hashed⟩
  · rintro ⟨_, _, rfl, rfl, hashed⟩
    exact hashed

/-- The gates lead from four inputs to the hash that the prover's tree has for them and to
nothing else, and already with rows of one round on which all eight contributions vanish. -/
theorem poseidon2Perm4_iff_gates (a b c d hash : Fr) :
    (poseidon2Perm4 a b c d = hash ↔ SpongeGates (fun _ => True) a b c d hash) ∧
      (poseidon2Perm4 a b c d = hash ↔ SpongeGates OneRound a b c d hash) :=
  ⟨spongeGates_iff (fun _ _ => trivial) a b c d hash,
    spongeGates_iff (fun _ one => one) a b c d hash⟩

end Solva.Verifier
