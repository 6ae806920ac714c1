import Mathlib.Data.List.FinRange
import Mathlib.Algebra.BigOperators.Fin
import Solva.Field.Bn254

/-!
# The solvency circuit

The Noir program of `circuits/`: the range check and node combine of
`lib/src/lib.nr`, the root of `merkle/src/lib.nr` and `solvency/src/main.nr`.
`Field` is arithmetic modulo the scalar prime, `as u64` keeps the low 64 bits and
`u64` products are checked; a failed assertion is an `Except` error, so a
satisfying assignment is one on which `main` returns. Arrays are functions on
`Fin N`, loops are folds over their index range.
-/

namespace Solva.Circuit

open Bn254 SumTree

/-! ## Sequencing and loops -/

theorem bind_eq_ok_iff {α β : Type} {x : Except String α} {f : α → Except String β} {out : β} :
    (x >>= f) = .ok out ↔ ∃ value, x = .ok value ∧ f value = .ok out := by
  cases x with
  | error message => simp [bind, Except.bind]
  | ok value => simp [bind, Except.bind]

section Loops

variable {ι β σ : Type}

/-- A loop that checks something of every index and then updates its state. -/
theorem foldlM_check_eq_ok_iff {check : ι → Except String β} {step : σ → ι → σ}
    {indices : List ι} {start final : σ} :
    (indices.foldlM (fun state i => do
        let _ ← check i
        pure (step state i)) start : Except String σ) = .ok final ↔
      (∀ i ∈ indices, ∃ value, check i = .ok value) ∧ indices.foldl step start = final := by
  induction indices generalizing start with
  | nil => simp [pure, Except.pure]
  | cons i indices ih =>
      rw [List.foldlM_cons]
      cases checked : check i with
      | error message => simp [checked, bind, Except.bind]
      | ok value =>
          simp only [List.foldl_cons, List.mem_cons, forall_eq_or_imp, checked, Except.ok.injEq,
            exists_eq', true_and, ← ih]
          rfl

variable {N : Nat}

/-- A loop that overwrites the indices meeting a condition. -/
theorem foldl_update_finRange (condition : Fin N → Prop) [DecidablePred condition]
    (values array : Fin N → σ) :
    (List.finRange N).foldl
        (fun next j => if condition j then Function.update next j (values j) else next) array =
      fun j => if condition j then values j else array j := by
  suffices general : ∀ indices : List (Fin N), ∀ array : Fin N → σ,
      indices.foldl
          (fun next j => if condition j then Function.update next j (values j) else next) array =
        fun j => if j ∈ indices ∧ condition j then values j else array j by
    simpa using general (List.finRange N) array
  intro indices
  induction indices with
  | nil => simp
  | cons i indices ih =>
      intro array
      funext j
      rw [List.foldl_cons, ih]
      by_cases same : j = i
      · subst same
        by_cases holds : condition j <;> simp [holds]
      · by_cases holds : condition i <;> simp [holds, same, Function.update_of_ne]

theorem foldl_update_finRange_all (values array : Fin N → σ) :
    (List.finRange N).foldl (fun next j => Function.update next j (values j)) array = values := by
  simpa using foldl_update_finRange (fun _ => True) values array

theorem foldl_add_finRange {values : Fin N → Fr} :
    (List.finRange N).foldl (fun total i => total + values i) 0 = ∑ i, values i := by
  rw [← List.sum_ofFn, List.ofFn_eq_map, List.sum_eq_foldl, List.foldl_map]

end Loops

/-! ## `lib.nr` -/

/-- `val as u64`: the low 64 bits of a field element. -/
def asU64 (val : Fr) : U64 :=
  Fin.ofNat (2 ^ 64) val.val

/-- `val as Field`. -/
def asField (val : U64) : Fr :=
  (val.val : Fr)

/-- Range check a field element as a 64-bit integer. -/
def assertU64 (val : Fr) : Except String U64 :=
  let valU64 := asU64 val
  if val = asField valU64 then .ok valU64
  else .error "range check failed: value exceeds u64"

/-- `a * b` on `u64`: an overflow fails the circuit. -/
def checkedMul (a b : U64) : Except String U64 :=
  if fits : a.val * b.val < 2 ^ 64 then .ok ⟨a.val * b.val, fits⟩
  else .error "attempt to multiply with overflow"

/-- A node of the circuit's tree: both hash and sum are field elements. -/
abbrev MerkleSumNode : Type :=
  SumNode Fr Fr

/-- `MerkleSumNode::combine`. -/
def MerkleSumNode.combine (hash4 : Hash4) (left right : MerkleSumNode) : MerkleSumNode :=
  { hash := hash4 left.hash left.sum right.hash right.sum
    sum := left.sum + right.sum }

theorem asU64_val (val : Fr) : (asU64 val).val = val.val % 2 ^ 64 :=
  rfl

/-- The range check passes exactly below `2 ^ 64`, and then keeps the value. -/
theorem assertU64_eq_ok_iff {val : Fr} {out : U64} :
    assertU64 val = .ok out ↔ val.val < 2 ^ 64 ∧ out.val = val.val := by
  have low_lt : val.val % 2 ^ 64 < 2 ^ 64 := Nat.mod_lt _ (by decide)
  have low_lt_p : val.val % 2 ^ 64 < p := Nat.lt_trans low_lt (by decide)
  have fixed_iff : val = asField (asU64 val) ↔ val.val < 2 ^ 64 := by
    rw [asField, asU64_val]
    constructor
    · intro fixed
      rw [fixed, ZMod.val_natCast_of_lt low_lt_p]
      exact low_lt
    · intro bound
      rw [Nat.mod_eq_of_lt bound, ZMod.natCast_zmod_val]
  by_cases bound : val.val < 2 ^ 64
  · rw [assertU64, if_pos (fixed_iff.mpr bound), Except.ok.injEq, Fin.ext_iff, asU64_val,
      Nat.mod_eq_of_lt bound]
    exact ⟨fun eq => ⟨bound, eq.symm⟩, fun eq => eq.2.symm⟩
  · rw [assertU64, if_neg (mt fixed_iff.mp bound)]
    constructor
    · intro failed
      cases failed
    · rintro ⟨passed, _⟩
      exact absurd passed bound

theorem exists_assertU64_iff {val : Fr} :
    (∃ out, assertU64 val = .ok out) ↔ val.val < 2 ^ 64 := by
  simp only [assertU64_eq_ok_iff]
  exact ⟨fun ⟨_, bound, _⟩ => bound, fun bound => ⟨⟨val.val, bound⟩, bound, rfl⟩⟩

theorem checkedMul_eq_ok_iff {a b out : U64} :
    checkedMul a b = .ok out ↔ a.val * b.val < 2 ^ 64 ∧ out.val = a.val * b.val := by
  by_cases fits : a.val * b.val < 2 ^ 64
  · rw [checkedMul, dif_pos fits, Except.ok.injEq, Fin.ext_iff]
    exact ⟨fun eq => ⟨fits, eq.symm⟩, fun eq => eq.2.symm⟩
  · rw [checkedMul, dif_neg fits]
    constructor
    · intro failed
      cases failed
    · rintro ⟨passed, _⟩
      exact absurd passed fits

/-! ## `merkle.nr` -/

section ComputeRoot

variable (hash4 : Hash4) {N : Nat}

/-- The node of one customer. -/
def leafNode (idHash balance : Fr) : MerkleSumNode :=
  { hash := hash4 idHash balance 0 0
    sum := balance }

/-- The leaf layer, every balance range checked. -/
def leafLayer (idHashes balances : Fin N → Fr) : Except String (Fin N → MerkleSumNode) :=
  (List.finRange N).foldlM (fun layer i => do
    let _ ← assertU64 (balances i)
    pure (Function.update layer i (leafNode hash4 (idHashes i) (balances i))))
    fun _ => { hash := 0, sum := 0 }

/-- A read index clamped to the end of the array. -/
def clamp (j : Fin N) (i : Nat) : Fin N :=
  if inside : i < N then ⟨i, inside⟩ else ⟨N - 1, by have := j.isLt; omega⟩

/-- One round: the live front of `width` nodes is folded into its first half,
what lies behind stays. -/
def foldRound (state : (Fin N → MerkleSumNode) × Nat) : (Fin N → MerkleSumNode) × Nat :=
  let (layer, width) := state
  let half := width / 2
  let next := (List.finRange N).foldl (fun next j =>
    let li := clamp j (2 * j)
    let ri := clamp j (2 * j + 1)
    if j < half then
      Function.update next j (MerkleSumNode.combine hash4 (layer li) (layer ri))
    else next) layer
  (next, half)

/-- `compute_root::<N, DEPTH>`. -/
def computeRoot (DEPTH : Nat) [NeZero N] (idHashes balances : Fin N → Fr) :
    Except String MerkleSumNode := do
  let layer ← leafLayer hash4 idHashes balances
  let (layer, _) := (foldRound hash4)^[DEPTH] (layer, N)
  pure (layer 0)

variable {hash4}

theorem leafLayer_eq_ok_iff {idHashes balances : Fin N → Fr} {layer : Fin N → MerkleSumNode} :
    leafLayer hash4 idHashes balances = .ok layer ↔
      (∀ i, (balances i).val < 2 ^ 64) ∧
        layer = fun i => leafNode hash4 (idHashes i) (balances i) := by
  unfold leafLayer
  rw [foldlM_check_eq_ok_iff, foldl_update_finRange_all]
  simp only [exists_assertU64_iff, List.mem_finRange, forall_const]
  exact and_congr_right fun _ => eq_comm

/-- The nodes of the live front, in order. -/
def front (state : (Fin N → MerkleSumNode) × Nat) : List MerkleSumNode :=
  (List.ofFn state.1).take state.2

/-- One round folds the live front into its parents: below half the width no
read is clamped and no read is stale. -/
theorem front_foldRound (hash4 : Hash4) {state : (Fin N → MerkleSumNode) × Nat} {half : Nat}
    (even : state.2 = 2 * half) (width_le : state.2 ≤ N) :
    front (foldRound hash4 state) =
        parents (MerkleSumNode.combine hash4) (front state) ∧
      (foldRound hash4 state).2 = half := by
  obtain ⟨layer, width⟩ := state
  simp only at even width_le
  subst even
  have half_eq : 2 * half / 2 = half := by omega
  refine ⟨List.ext_getElem? fun index => ?_, half_eq⟩
  rw [getElem?_parents]
  simp only [foldRound, front, half_eq, foldl_update_finRange, List.getElem?_take,
    List.getElem?_ofFn]
  by_cases live : index < half
  · have first : 2 * index < N := by omega
    have second : 2 * index + 1 < N := by omega
    have inside : index < N := by omega
    simp [live, inside, first, second, clamp, show 2 * index < 2 * half by omega,
      show 2 * index + 1 < 2 * half by omega]
  · simp [live]

/-- After `rounds` rounds the front is the leaf layer folded `rounds` times. -/
theorem front_iterate_foldRound (hash4 : Hash4) {rounds depth : Nat} (rounds_le : rounds ≤ depth)
    (layer : Fin (2 ^ depth) → MerkleSumNode) :
    front ((foldRound hash4)^[rounds] (layer, 2 ^ depth)) =
        (parents (MerkleSumNode.combine hash4))^[rounds] (List.ofFn layer) ∧
      ((foldRound hash4)^[rounds] (layer, 2 ^ depth)).2 = 2 ^ (depth - rounds) := by
  induction rounds with
  | zero => simp [front]
  | succ rounds ih =>
      obtain ⟨front_eq, width_eq⟩ := ih (by omega)
      have double : 2 ^ (depth - rounds) = 2 * 2 ^ (depth - (rounds + 1)) := by
        rw [← Nat.pow_succ']
        congr 1
        omega
      have width_le : 2 ^ (depth - rounds) ≤ 2 ^ depth :=
        Nat.pow_le_pow_right (by decide) (by omega)
      rw [Function.iterate_succ_apply', Function.iterate_succ_apply']
      obtain ⟨front_next, width_next⟩ := front_foldRound hash4
        (width_eq.trans double) (width_eq ▸ width_le)
      exact ⟨front_next.trans (by rw [front_eq]), width_next⟩

/-- `compute_root` succeeds exactly when every balance is a `u64`, and returns
the fold of the leaf layer. -/
theorem computeRoot_eq_ok_iff {depth : Nat} {idHashes balances : Fin (2 ^ depth) → Fr}
    {root : MerkleSumNode} :
    computeRoot hash4 depth idHashes balances = .ok root ↔
      (∀ i, (balances i).val < 2 ^ 64) ∧
        (parents (MerkleSumNode.combine hash4))^[depth]
          (List.ofFn fun i => leafNode hash4 (idHashes i) (balances i)) = [root] := by
  have folded (layer : Fin (2 ^ depth) → MerkleSumNode) :
      [((foldRound hash4)^[depth] (layer, 2 ^ depth)).1 0] =
        (parents (MerkleSumNode.combine hash4))^[depth] (List.ofFn layer) := by
    obtain ⟨front_eq, width_eq⟩ := front_iterate_foldRound hash4 (le_refl depth) layer
    rw [← front_eq, front, width_eq, Nat.sub_self, Nat.pow_zero]
    apply List.ext_getElem?
    intro index
    cases index with
    | zero => simp
    | succ index => simp
  by_cases checked : ∀ i, (balances i).val < 2 ^ 64
  · have leaves : leafLayer hash4 idHashes balances = .ok _ :=
      leafLayer_eq_ok_iff.mpr ⟨checked, rfl⟩
    rw [computeRoot, leaves]
    simp only [bind, Except.bind, pure, Except.pure, Except.ok.injEq, ← folded,
      List.cons.injEq, and_true]
    exact (and_iff_right checked).symm
  · constructor
    · intro ok
      cases leaves : leafLayer hash4 idHashes balances with
      | error message => simp [computeRoot, leaves, bind, Except.bind] at ok
      | ok layer => exact absurd (leafLayer_eq_ok_iff.mp leaves).1 checked
    · rintro ⟨bound, _⟩
      exact absurd bound checked

end ComputeRoot

/-! ## `main.nr` -/

/-- The public inputs, in declaration order. -/
structure PublicInputs where
  R : Fr
  rootH : Fr
  L : Fr
  RPrev : Fr
  deriving DecidableEq

/-- The private inputs: eight customers, four reserve figures. -/
structure PrivateInputs where
  leafIds : Fin 8 → Fr
  leafBalances : Fin 8 → Fr
  merklePaths : Fin 8 → Fin 3 → Fr
  reserves : Fin 4 → Fr

/-- `assert(condition, message)`. -/
def assert (condition : Bool) (message : String) : Except String Unit :=
  if condition then .ok () else .error message

/-- The sum of range-checked figures. -/
def checkedTotal {N : Nat} (figures : Fin N → Fr) : Except String Fr :=
  (List.finRange N).foldlM (fun total i => do
    let _ ← assertU64 (figures i)
    pure (total + figures i)) 0

/-- The circuit's `main`. The declared `merkle_paths` are touched and otherwise
unused. -/
def main (hash4 : Hash4) (pub : PublicInputs) (priv : PrivateInputs) : Except String Unit := do
  let rU64 ← assertU64 pub.R
  let lU64 ← assertU64 pub.L
  let _ ← assertU64 pub.RPrev
  assert (lU64 ≤ rU64) "insolvent: reserves below liabilities"
  let root ← computeRoot (N := 2 ^ 3) hash4 3 priv.leafIds priv.leafBalances
  assert (root.hash = pub.rootH) "root hash mismatch"
  assert (root.sum = pub.L) "root sum does not equal L"
  let liabilitiesTotal ← checkedTotal priv.leafBalances
  assert (liabilitiesTotal = pub.L) "leaf balance sum does not equal L"
  let reservesTotal ← checkedTotal priv.reserves
  assert (reservesTotal = pub.R) "reserve sum does not equal R"
  let rPrevU64 := asU64 pub.RPrev
  let grown ← checkedMul 10 rU64
  let allowed ← checkedMul 11 rPrevU64
  assert (grown ≤ allowed) "fraud bound: reserves grew too fast"

theorem assert_eq_ok_iff {condition : Bool} {message : String} {out : Unit} :
    assert condition message = .ok out ↔ condition = true := by
  cases condition <;> simp [assert]

theorem checkedTotal_eq_ok_iff {N : Nat} {figures : Fin N → Fr} {total : Fr} :
    checkedTotal figures = .ok total ↔
      (∀ i, (figures i).val < 2 ^ 64) ∧ ∑ i, figures i = total := by
  unfold checkedTotal
  rw [foldlM_check_eq_ok_iff, foldl_add_finRange]
  simp only [exists_assertU64_iff, List.mem_finRange, forall_const]

/-- What `main` asserts, all at once, with the integers read off the range-checked
inputs. -/
theorem main_eq_ok_iff {hash4 : Hash4} {pub : PublicInputs} {priv : PrivateInputs} :
    main hash4 pub priv = .ok () ↔
      (pub.R.val < 2 ^ 64 ∧ pub.L.val < 2 ^ 64 ∧ pub.RPrev.val < 2 ^ 64) ∧
      pub.L.val ≤ pub.R.val ∧
      computeRoot (N := 2 ^ 3) hash4 3 priv.leafIds priv.leafBalances =
        .ok ⟨pub.rootH, pub.L⟩ ∧
      checkedTotal priv.leafBalances = .ok pub.L ∧
      checkedTotal priv.reserves = .ok pub.R ∧
      10 * pub.R.val < 2 ^ 64 ∧ 11 * pub.RPrev.val < 2 ^ 64 ∧
      10 * pub.R.val ≤ 11 * pub.RPrev.val := by
  unfold main
  simp only [bind_eq_ok_iff, assert_eq_ok_iff, assertU64_eq_ok_iff, checkedMul_eq_ok_iff,
    decide_eq_true_eq]
  have prev_low (prev_lt : pub.RPrev.val < 2 ^ 64) : (asU64 pub.RPrev).val = pub.RPrev.val :=
    Nat.mod_eq_of_lt prev_lt
  constructor
  · rintro ⟨r, ⟨r_lt, r_eq⟩, l, ⟨l_lt, l_eq⟩, _, ⟨prev_lt, _⟩, _, solvent, root, root_ok,
      _, hash_eq, _, sum_eq, _, liabilities_ok, _, rfl, _, reserves_ok, _, rfl,
      grown, ⟨grown_lt, grown_eq⟩, allowed, ⟨allowed_lt, allowed_eq⟩, bounded⟩
    rw [prev_low prev_lt] at allowed_lt allowed_eq
    rw [r_eq] at grown_lt grown_eq
    rw [Fin.le_def, l_eq, r_eq] at solvent
    rw [Fin.le_def, grown_eq, allowed_eq] at bounded
    have root_eq : root = ⟨pub.rootH, pub.L⟩ := SumNode.ext hash_eq sum_eq
    exact ⟨⟨r_lt, l_lt, prev_lt⟩, solvent, root_eq ▸ root_ok, liabilities_ok, reserves_ok,
      grown_lt, allowed_lt, bounded⟩
  · rintro ⟨⟨r_lt, l_lt, prev_lt⟩, solvent, root_ok, liabilities_ok, reserves_ok,
      grown_lt, allowed_lt, bounded⟩
    refine ⟨⟨pub.R.val, r_lt⟩, ⟨r_lt, rfl⟩, ⟨pub.L.val, l_lt⟩, ⟨l_lt, rfl⟩,
      ⟨pub.RPrev.val, prev_lt⟩, ⟨prev_lt, rfl⟩, (), solvent, _, root_ok, (), rfl, (), rfl,
      _, liabilities_ok, (), rfl, _, reserves_ok, (), rfl,
      ⟨10 * pub.R.val, grown_lt⟩, ⟨grown_lt, rfl⟩,
      ⟨11 * pub.RPrev.val, allowed_lt⟩, ⟨?_, ?_⟩, bounded⟩
    · rw [prev_low prev_lt]
      exact allowed_lt
    · rw [prev_low prev_lt]
      rfl

end Solva.Circuit
