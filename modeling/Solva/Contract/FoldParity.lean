import Solva.Circuit.Inclusion
import Solva.Contract.Inclusion

/-!
# The contract's inclusion fold and the circuit's

The contract adds sums in `u128` and saturates, the circuit adds them in the field.
Both totals are measured against the exact integer total of the path: below
`2 ^ 128` the two folds climb through the same nodes, and from there on the
contract stops at `u128::MAX` and the circuit has not wrapped, so neither can end
at a liability total below `2 ^ 64`.
-/

namespace Solva.Contract

open Bn254 SumTree Codec Prover Circuit

/-- A path step as the circuit receives it. -/
def PathNode.toCircuit (step : PathNode) : Circuit.PathNode :=
  ⟨fromBeBytesModOrder step.hash, frOfU128 step.sum, !step.siblingIsLeft⟩

/-- A node of the contract's climb as the circuit holds it. -/
def toCircuitNode (node : SumNode Fr U128) : MerkleSumNode :=
  ⟨node.hash, frOfU128 node.sum⟩

/-- The integer total declared along a path. -/
def pathTotal (path : List PathNode) : Nat :=
  (path.map fun step => step.sum.val).sum

section Folds

variable {hash4 : Hash4}

@[simp]
theorem pathTotal_nil : pathTotal [] = 0 :=
  rfl

@[simp]
theorem pathTotal_cons (step : PathNode) (path : List PathNode) :
    pathTotal (step :: path) = step.sum.val + pathTotal path :=
  rfl

theorem pathTotal_le (path : List PathNode) : pathTotal path ≤ path.length * 2 ^ 128 := by
  induction path with
  | nil => simp
  | cons step path ih =>
      have sum_lt := step.sum.isLt
      rw [pathTotal_cons, List.length_cons, Nat.succ_mul]
      omega

theorem apply_toField_sum (node : SumNode Fr U128) (step : PathNode) :
    (step.toField.apply (scheme hash4).combine node).sum = saturatingAdd node.sum step.sum := by
  cases side : step.siblingIsLeft with
  | true =>
      simp [SumTree.PathStep.apply, PathNode.toField, side, Scheme.combine, scheme,
        saturatingAdd_comm step.sum]
  | false => simp [SumTree.PathStep.apply, PathNode.toField, side, Scheme.combine, scheme]

/-- The contract's sum is the exact total, cut off at `u128::MAX`. -/
theorem climb_sum_val (node : SumNode Fr U128) (path : List PathNode) :
    (climb (scheme hash4).combine node (path.map PathNode.toField)).sum.val =
      min (node.sum.val + pathTotal path) (2 ^ 128 - 1) := by
  induction path generalizing node with
  | nil =>
      have sum_lt := node.sum.isLt
      simp only [List.map_nil, climb_nil, pathTotal_nil]
      omega
  | cons step path ih =>
      rw [List.map_cons, climb_cons, ih, apply_toField_sum, saturatingAdd_val, pathTotal_cons]
      omega

theorem climbStep_sum (node : MerkleSumNode) (step : PathNode) :
    (Circuit.climbStep hash4 node step.toCircuit).sum = node.sum + frOfU128 step.sum := by
  cases side : step.siblingIsLeft with
  | true =>
      simp [Circuit.climbStep, PathNode.toCircuit, side, MerkleSumNode.combine, add_comm]
  | false => simp [Circuit.climbStep, PathNode.toCircuit, side, MerkleSumNode.combine]

/-- The circuit's sum is the exact total, read in the field. -/
theorem foldl_climbStep_sum (node : MerkleSumNode) (path : List PathNode) :
    ((path.map PathNode.toCircuit).foldl (Circuit.climbStep hash4) node).sum =
      node.sum + (pathTotal path : Fr) := by
  induction path generalizing node with
  | nil => simp
  | cons step path ih =>
      rw [List.map_cons, List.foldl_cons, ih, climbStep_sum, pathTotal_cons, Nat.cast_add,
        add_assoc]
      rfl

/-- A step whose sums fit a `u128` is the same step on both sides. -/
theorem climbStep_toCircuitNode {node : SumNode Fr U128} {step : PathNode}
    (fits : node.sum.val + step.sum.val < 2 ^ 128) :
    Circuit.climbStep hash4 (toCircuitNode node) step.toCircuit =
      toCircuitNode (step.toField.apply (scheme hash4).combine node) := by
  apply SumNode.ext
  · cases side : step.siblingIsLeft with
    | true =>
        simp [Circuit.climbStep, PathNode.toCircuit, PathNode.toField, side,
          MerkleSumNode.combine, toCircuitNode, SumTree.PathStep.apply, Scheme.combine,
          Scheme.nodeQuery, scheme]
    | false =>
        simp [Circuit.climbStep, PathNode.toCircuit, PathNode.toField, side,
          MerkleSumNode.combine, toCircuitNode, SumTree.PathStep.apply, Scheme.combine,
          Scheme.nodeQuery, scheme]
  · rw [climbStep_sum, toCircuitNode, toCircuitNode, apply_toField_sum]
    simp only [frOfU128]
    rw [saturatingAdd_val_of_lt fits, Nat.cast_add]

/-- While the total fits a `u128`, both folds climb through the same nodes. -/
theorem foldl_climbStep_toCircuitNode {node : SumNode Fr U128} {path : List PathNode}
    (fits : node.sum.val + pathTotal path < 2 ^ 128) :
    (path.map PathNode.toCircuit).foldl (Circuit.climbStep hash4) (toCircuitNode node) =
      toCircuitNode (climb (scheme hash4).combine node (path.map PathNode.toField)) := by
  induction path generalizing node with
  | nil => rfl
  | cons step path ih =>
      rw [pathTotal_cons] at fits
      have step_fits : node.sum.val + step.sum.val < 2 ^ 128 := by omega
      have rest_fits : (step.toField.apply (scheme hash4).combine node).sum.val +
          pathTotal path < 2 ^ 128 := by
        rw [apply_toField_sum, saturatingAdd_val_of_lt step_fits]
        omega
      rw [List.map_cons, List.foldl_cons, climbStep_toCircuitNode step_fits, ih rest_fits,
        List.map_cons, climb_cons]

theorem leafNode_toEntry (idHash : Bytes32) (balance : U128) :
    leafNode hash4 (fromBeBytesModOrder idHash) (frOfU128 balance) =
      toCircuitNode ((scheme hash4).leaf (toEntry (idHash, balance))) := by
  simp [leafNode, toCircuitNode, Scheme.leaf, Scheme.leafQuery, toEntry, scheme]

/-- Below `2 ^ 128` the two climbs end at the same node, and the contract's sum is
the exact total. -/
theorem tops_of_fits (hash4 : Hash4) {idHash : Bytes32} {balance : U128}
    {path : List PathNode} (fits : balance.val + pathTotal path < 2 ^ 128) :
    ∃ top : SumNode Fr U128,
      climb (scheme hash4).combine ((scheme hash4).leaf (toEntry (idHash, balance)))
        (path.map PathNode.toField) = top ∧
      (path.map PathNode.toCircuit).foldl (Circuit.climbStep hash4)
        (leafNode hash4 (fromBeBytesModOrder idHash) (frOfU128 balance)) = toCircuitNode top ∧
      top.sum.val = balance.val + pathTotal path := by
  refine ⟨_, rfl, ?_, ?_⟩
  · rw [leafNode_toEntry]
    exact foldl_climbStep_toCircuitNode fits
  · rw [climb_sum_val]
    exact Nat.min_eq_left (Nat.le_sub_one_of_lt fits)

/-- From `2 ^ 128` on the contract's sum is `u128::MAX`, and the circuit's is the
exact total: a path shorter than `2 ^ 32` cannot wrap in the field. -/
theorem sums_of_overflow (hash4 : Hash4) (idHash : Bytes32) {balance : U128}
    {path : List PathNode} (overflows : 2 ^ 128 ≤ balance.val + pathTotal path)
    (depth_u32 : path.length < 2 ^ 32) :
    (climb (scheme hash4).combine ((scheme hash4).leaf (toEntry (idHash, balance)))
        (path.map PathNode.toField)).sum.val = 2 ^ 128 - 1 ∧
      ((path.map PathNode.toCircuit).foldl (Circuit.climbStep hash4)
        (leafNode hash4 (fromBeBytesModOrder idHash) (frOfU128 balance))).sum.val =
          balance.val + pathTotal path := by
  have below_p : balance.val + pathTotal path < p := by
    have balance_lt := balance.isLt
    have total_le := pathTotal_le path
    have product_le : path.length * 2 ^ 128 ≤ 2 ^ 32 * 2 ^ 128 :=
      Nat.mul_le_mul_right _ depth_u32.le
    have room : 2 ^ 32 * 2 ^ 128 + 2 ^ 128 < p := by decide
    omega
  constructor
  · rw [climb_sum_val]
    exact Nat.min_eq_right (Nat.le_trans (Nat.sub_le _ _) overflows)
  · rw [foldl_climbStep_sum, leafNode, frOfU128, ← Nat.cast_add, ZMod.val_natCast_of_lt below_p]

end Folds

/-- The contract's inclusion check accepts exactly what the circuit's does: the
saturating additions and the missing range check of the balance never change the
verdict. -/
theorem verifyInclusion_iff_circuit {Address : Type} {hash4 : Hash4} {s : Storage Address}
    {k : U64} {entry : ProofMeta} (stored : s.proofs k = some entry)
    (l_u64 : entry.l.val < 2 ^ 64) (root_canonical : Canonical entry.rootH)
    {idHash : Bytes32} (id_canonical : Canonical idHash) (balance : U128)
    {path : List PathNode} (depth_u32 : path.length < 2 ^ 32)
    (path_canonical : ∀ step ∈ path, Canonical step.hash) :
    verifyInclusion hash4 k idHash balance path s = .ok true ↔
      Circuit.verifyInclusion hash4 (fromBeBytesModOrder idHash) (frOfU128 balance)
        (fun i : Fin path.length => (path.get i).toCircuit)
        (fromBeBytesModOrder entry.rootH) (frOfU128 entry.l) = .ok () := by
  have array_eq : List.ofFn (fun i : Fin path.length => (path.get i).toCircuit) =
      path.map PathNode.toCircuit := by
    rw [← Function.comp_def, ← List.map_ofFn, List.ofFn_get]
  rw [verifyInclusion_eq_true_iff stored, Circuit.verifyInclusion_eq_ok_iff, array_eq,
    frOfU128_val]
  rcases Nat.lt_or_ge (balance.val + pathTotal path) (2 ^ 128) with fits | overflows
  · obtain ⟨top, climbed, folded, total_eq⟩ := tops_of_fits hash4 fits
    rw [climbed, folded]
    constructor
    · rintro ⟨_, _, reached⟩
      obtain ⟨hash_eq, sum_eq⟩ := Node.mk.inj reached
      refine ⟨?_, SumNode.ext ?_ ?_⟩
      · -- the balance is one summand of the total `l`
        rw [← sum_eq, total_eq] at l_u64
        omega
      · rw [← hash_eq, fromBeBytesModOrder_frToBytes]
        rfl
      · rw [← sum_eq]
        rfl
    · rintro ⟨_, reached⟩
      obtain ⟨hash_eq, sum_eq⟩ := SumNode.mk.inj reached
      refine ⟨id_canonical, path_canonical, ?_⟩
      rw [Node.ofField, hash_eq, frOfU128_injective sum_eq,
        frToBytes_fromBeBytesModOrder root_canonical]
  · obtain ⟨saturated, exact_eq⟩ := sums_of_overflow hash4 idHash overflows depth_u32
    constructor
    · rintro ⟨_, _, reached⟩
      have sum_eq : _ = entry.l := (Node.mk.inj reached).2
      rw [← sum_eq, saturated] at l_u64
      exact absurd l_u64 (by decide)
    · rintro ⟨_, reached⟩
      rw [reached, frOfU128_val] at exact_eq
      exact absurd (Nat.lt_trans l_u64 (by decide)) (Nat.not_lt.mpr (exact_eq ▸ overflows))

/-- Two leaves under one root. -/
def siblingPath : List PathNode :=
  [⟨BytesN.ofNat 32 3, 20, false⟩]

/-- The root of `siblingPath` over the customer `1` with balance `10`. -/
def siblingRoot : Node :=
  Node.ofField (climb (scheme Poseidon2.poseidon2Perm4).combine
    ((scheme Poseidon2.poseidon2Perm4).leaf (toEntry (BytesN.ofNat 32 1, 10)))
    (siblingPath.map PathNode.toField))

theorem verifyInclusion_iff_circuit_sample :
    Circuit.verifyInclusion Poseidon2.poseidon2Perm4 (fromBeBytesModOrder (BytesN.ofNat 32 1))
      (frOfU128 10) (fun i : Fin siblingPath.length => (siblingPath.get i).toCircuit)
      (fromBeBytesModOrder siblingRoot.hash) (frOfU128 siblingRoot.sum) = .ok () :=
  (verifyInclusion_iff_circuit (s := storageOf siblingRoot) (k := 1) rfl (by decide +kernel)
    (by decide +kernel) (by decide +kernel) 10 (by decide) (by decide +kernel)).mp
    (by decide +kernel)

end Solva.Contract
