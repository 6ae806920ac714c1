import Solva.Circuit.Core
import Solva.Prover.Poseidon2

/-!
# Soundness of the solvency circuit over the integers

Field sums of range-checked figures do not wrap: eight or four integers below
`2 ^ 64` total far less than the scalar prime. From a satisfying assignment this
module reads off integers, their exact totals and the tree the root commits to.
-/

namespace Solva.Circuit

open Bn254 SumTree

/-! ## Totals without wraparound -/

theorem sum_eq_natCast {N : Nat} (figures : Fin N → Fr) :
    ∑ i, figures i = ((∑ i, (figures i).val : Nat) : Fr) := by
  rw [Nat.cast_sum]
  exact Finset.sum_congr rfl fun i _ => (ZMod.natCast_zmod_val (figures i)).symm

theorem sum_val_lt {N : Nat} (figures : Fin N → Fr) (small : N ≤ 8)
    (bound : ∀ i, (figures i).val < 2 ^ 64) : ∑ i, (figures i).val < p := by
  have le : ∑ i, (figures i).val ≤ ∑ _ : Fin N, 2 ^ 64 :=
    Finset.sum_le_sum fun i _ => (bound i).le
  rw [Finset.sum_const, Finset.card_univ, Fintype.card_fin, smul_eq_mul] at le
  calc ∑ i, (figures i).val ≤ N * 2 ^ 64 := le
    _ ≤ 8 * 2 ^ 64 := Nat.mul_le_mul_right _ small
    _ < p := by decide

/-- The integer total of a few range-checked figures is the integer of their
field total. -/
theorem val_sum {N : Nat} (figures : Fin N → Fr) (small : N ≤ 8)
    (bound : ∀ i, (figures i).val < 2 ^ 64) :
    (∑ i, figures i).val = ∑ i, (figures i).val := by
  rw [sum_eq_natCast, ZMod.val_natCast_of_lt (sum_val_lt figures small bound)]

/-! ## The committed tree -/

/-- A customer leaf: identifier hash and balance. -/
abbrev Leaf : Type :=
  Fr × Fr

/-- The node a tree of customer leaves commits to. -/
def merkleRoot (hash4 : Hash4) (tree : SumTree.Tree Leaf) : MerkleSumNode :=
  tree.fold (fun leaf => leafNode hash4 leaf.1 leaf.2) (MerkleSumNode.combine hash4)

/-- The balances beneath a tree, as integers. -/
def integerTotal (tree : SumTree.Tree Leaf) : Nat :=
  (tree.leaves.map fun leaf => leaf.2.val).sum

variable {hash4 : Hash4}

theorem merkleRoot_sum (tree : SumTree.Tree Leaf) :
    (merkleRoot hash4 tree).sum = (integerTotal tree : Fr) := by
  induction tree with
  | leaf leaf => simp [merkleRoot, leafNode, integerTotal, SumTree.Tree.leaves]
  | node left right leftIh rightIh =>
      simp only [merkleRoot, integerTotal, SumTree.Tree.fold_node, MerkleSumNode.combine,
        SumTree.Tree.leaves,
        List.map_append, List.sum_append, Nat.cast_add] at leftIh rightIh ⊢
      rw [leftIh, rightIh]

/-- Every node of a tree whose total is below the modulus carries the exact
integer total of the leaves beneath it. -/
theorem merkleRoot_sum_val {tree sub : SumTree.Tree Leaf} (mem : sub ∈ tree.subtrees)
    (bound : integerTotal tree < p) :
    (merkleRoot hash4 sub).sum.val = integerTotal sub := by
  rw [merkleRoot_sum, ZMod.val_natCast_of_lt]
  exact Nat.lt_of_le_of_lt (SumTree.Tree.sum_map_leaves_le _ mem) bound

/-- `compute_root` returns the root of the perfect tree over the leaves in
order. -/
theorem exists_tree_of_computeRoot {depth : Nat} {ids balances : Fin (2 ^ depth) → Fr}
    {root : MerkleSumNode} (computed : computeRoot hash4 depth ids balances = .ok root) :
    ∃ tree : SumTree.Tree Leaf, tree.Perfect depth ∧
      tree.leaves = (List.ofFn fun i => (ids i, balances i)) ∧
      merkleRoot hash4 tree = root := by
  obtain ⟨_, folded⟩ := computeRoot_eq_ok_iff.mp computed
  have length_eq : (List.ofFn fun i => (ids i, balances i)).length = 2 ^ depth := by simp
  obtain ⟨tree, tree_folded, perfect, leaves_eq⟩ := exists_perfect_tree length_eq
  have evaluated := iterate_parents_fold tree_folded
    (fun leaf : Leaf => leafNode hash4 leaf.1 leaf.2) (MerkleSumNode.combine hash4)
  refine ⟨tree, perfect, leaves_eq, ?_⟩
  rw [List.map_ofFn] at evaluated
  simpa [merkleRoot, Function.comp_def, folded] using evaluated.symm

/-! ## The statement -/

/-- What a satisfied circuit says about integers. -/
structure Solvent (hash4 : Hash4) (pub : PublicInputs) (priv : PrivateInputs) : Prop where
  reserves_u64 : pub.R.val < 2 ^ 64
  liabilities_u64 : pub.L.val < 2 ^ 64
  prev_u64 : pub.RPrev.val < 2 ^ 64
  balance_u64 : ∀ i, (priv.leafBalances i).val < 2 ^ 64
  figure_u64 : ∀ i, (priv.reserves i).val < 2 ^ 64
  balances_total : ∑ i, (priv.leafBalances i).val = pub.L.val
  reserves_total : ∑ i, (priv.reserves i).val = pub.R.val
  solvent : pub.L.val ≤ pub.R.val
  bounded : 10 * pub.R.val ≤ 11 * pub.RPrev.val
  /-- The root commits to exactly the eight leaves in order, and every node of
  the tree carries the exact total beneath it. -/
  committed : ∃ tree : SumTree.Tree Leaf, tree.Perfect 3 ∧
    tree.leaves = (List.ofFn fun i => (priv.leafIds i, priv.leafBalances i)) ∧
    merkleRoot hash4 tree = ⟨pub.rootH, pub.L⟩ ∧
    ∀ sub ∈ tree.subtrees, (merkleRoot hash4 sub).sum.val = integerTotal sub

/-- A satisfied circuit is solvent over the integers. -/
theorem solvent_of_main {pub : PublicInputs} {priv : PrivateInputs}
    (satisfied : main hash4 pub priv = .ok ()) : Solvent hash4 pub priv := by
  obtain ⟨⟨r_lt, l_lt, prev_lt⟩, solvent, root_ok, liabilities_ok, reserves_ok, _, _, bounded⟩ :=
    main_eq_ok_iff.mp satisfied
  obtain ⟨balance_lt, balances_sum⟩ := checkedTotal_eq_ok_iff.mp liabilities_ok
  obtain ⟨figure_lt, reserves_sum⟩ := checkedTotal_eq_ok_iff.mp reserves_ok
  obtain ⟨tree, perfect, leaves_eq, root_eq⟩ := exists_tree_of_computeRoot root_ok
  have total_eq : integerTotal tree = ∑ i, (priv.leafBalances i).val := by
    rw [integerTotal, leaves_eq, List.map_ofFn, List.sum_ofFn]
    rfl
  have total_lt : integerTotal tree < p := by
    rw [total_eq]
    exact sum_val_lt _ (by decide) balance_lt
  exact {
    reserves_u64 := r_lt
    liabilities_u64 := l_lt
    prev_u64 := prev_lt
    balance_u64 := balance_lt
    figure_u64 := figure_lt
    balances_total := by rw [← val_sum _ (by decide) balance_lt, balances_sum]
    reserves_total := by rw [← val_sum _ (by decide) figure_lt, reserves_sum]
    solvent := solvent
    bounded := bounded
    committed := ⟨tree, perfect, leaves_eq, root_eq, fun _ mem => merkleRoot_sum_val mem total_lt⟩ }

/-- The demo inputs of the circuit's own tests. -/
def samplePublic : PublicInputs :=
  { R := 400
    rootH := 0x0e36888d7cade7e79309cd7e58109611104c225f2fcd5a158c662debb173572f
    L := 360
    RPrev := 400 }

def samplePrivate : PrivateInputs :=
  { leafIds := Nat.cast ∘ ![1, 2, 3, 4, 5, 6, 7, 8]
    leafBalances := Nat.cast ∘ ![10, 20, 30, 40, 50, 60, 70, 80]
    merklePaths := fun _ _ => 0
    reserves := Nat.cast ∘ ![200, 200, 0, 0] }

theorem main_sample :
    main Prover.Poseidon2.poseidon2Perm4 samplePublic samplePrivate = .ok () := by
  decide +kernel

theorem solvent_sample :
    main Prover.Poseidon2.poseidon2Perm4 samplePublic samplePrivate = .ok () ∧
      Solvent Prover.Poseidon2.poseidon2Perm4 samplePublic samplePrivate :=
  ⟨main_sample, solvent_of_main main_sample⟩

end Solva.Circuit
