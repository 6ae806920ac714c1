import Solva.Circuit.Soundness
import Solva.Prover.Tree

/-!
# The circuit's tree and the prover's tree

The circuit folds field nodes in one fixed-width array, the prover folds byte
nodes with saturating sums through shrinking layers. Both evaluate the same
perfect tree: while the total stays below `2 ^ 128` no prover sum saturates and no
field sum wraps, so the two roots carry the same hash and the same integer.
-/

namespace Solva.Circuit

open Bn254 SumTree Prover

/-- A customer as both tiers receive it: field identifier, `u64` balance. -/
abbrev Customer : Type :=
  Fr × U64

/-- The customer's balance in the prover. -/
def balanceU128 (balance : U64) : U128 :=
  ⟨balance.val, u64_lt_two_pow_128 balance⟩

@[simp]
theorem balanceU128_val (balance : U64) : (balanceU128 balance).val = balance.val :=
  rfl

/-- The circuit's leaf of a customer. -/
def circuitLeaf (hash4 : Hash4) (customer : Customer) : MerkleSumNode :=
  leafNode hash4 customer.1 (asField customer.2)

/-- The prover's leaf of a customer. -/
def proverLeaf (hash4 : Hash4) (customer : Customer) : Node :=
  Node.leaf hash4 (frToBytes customer.1) (balanceU128 customer.2)

/-- The balances beneath a tree of customers. -/
def customerTotal (tree : SumTree.Tree Customer) : Nat :=
  (tree.leaves.map fun customer => customer.2.val).sum

variable {hash4 : Hash4}

/-- The prover's evaluation of a tree against the circuit's. -/
structure SameNode (circuit : MerkleSumNode) (prover : Node) (total : Nat) : Prop where
  hash_eq : prover.hash = frToBytes circuit.hash
  prover_sum : prover.sum.val = total
  circuit_sum : circuit.sum = (total : Fr)

theorem sameNode_leaf (customer : Customer) :
    SameNode (circuitLeaf hash4 customer) (proverLeaf hash4 customer) customer.2.val where
  hash_eq := by
    simp [circuitLeaf, proverLeaf, leafNode, Node.leaf, poseidon2HashFour, u128ToField,
      frOfU128, balanceU128, asField]
  prover_sum := rfl
  circuit_sum := rfl

/-- Combining keeps the correspondence while the total fits a `u128`. -/
theorem SameNode.combine {left right : MerkleSumNode} {left' right' : Node}
    {leftTotal rightTotal : Nat} (leftSame : SameNode left left' leftTotal)
    (rightSame : SameNode right right' rightTotal) (fits : leftTotal + rightTotal < 2 ^ 128) :
    SameNode (MerkleSumNode.combine hash4 left right) (hashPair hash4 left' right')
      (leftTotal + rightTotal) where
  hash_eq := by
    simp [MerkleSumNode.combine, hashPair, poseidon2HashFour, u128ToField, frOfU128,
      leftSame.hash_eq, rightSame.hash_eq, leftSame.prover_sum, rightSame.prover_sum,
      leftSame.circuit_sum, rightSame.circuit_sum]
  prover_sum := by
    rw [hashPair, saturatingAdd_val_of_lt (by rwa [leftSame.prover_sum, rightSame.prover_sum]),
      leftSame.prover_sum, rightSame.prover_sum]
  circuit_sum := by
    rw [MerkleSumNode.combine, leftSame.circuit_sum, rightSame.circuit_sum, Nat.cast_add]

/-- Both tiers evaluate a tree to the same node. -/
theorem sameNode_fold (hash4 : Hash4) {tree : SumTree.Tree Customer}
    (fits : customerTotal tree < 2 ^ 128) :
    SameNode (tree.fold (circuitLeaf hash4) (MerkleSumNode.combine hash4))
      (tree.fold (proverLeaf hash4) (hashPair hash4)) (customerTotal tree) := by
  induction tree with
  | leaf customer => simpa [customerTotal, SumTree.Tree.leaves] using sameNode_leaf customer
  | node left right leftIh rightIh =>
      have split : customerTotal (.node left right) =
          customerTotal left + customerTotal right := by
        simp [customerTotal, SumTree.Tree.leaves]
      rw [split] at fits ⊢
      exact (leftIh (by omega)).combine (rightIh (by omega)) fits

/-- A leaf layer of `2 ^ depth` customers: the tree both tiers evaluate. -/
theorem exists_common_tree (hash4 : Hash4) {depth : Nat} (customers : Fin (2 ^ depth) → Customer) :
    ∃ tree : SumTree.Tree Customer, customerTotal tree = ∑ i, (customers i).2.val ∧
      (parents (MerkleSumNode.combine hash4))^[depth]
          (List.ofFn fun i => circuitLeaf hash4 (customers i)) =
        [tree.fold (circuitLeaf hash4) (MerkleSumNode.combine hash4)] ∧
      Climbs (hashPair hash4) (List.ofFn fun i => proverLeaf hash4 (customers i))
        (tree.fold (proverLeaf hash4) (hashPair hash4)) := by
  have length_eq : (List.ofFn customers).length = 2 ^ depth := by simp
  obtain ⟨tree, folded, _, leaves_eq⟩ := exists_perfect_tree length_eq
  refine ⟨tree, ?_, ?_, Climbs.of_iterate (List.length_ofFn) ?_⟩
  · rw [customerTotal, leaves_eq, List.map_ofFn, List.sum_ofFn]
    rfl
  · simpa [List.map_ofFn, Function.comp_def] using
      iterate_parents_fold folded (circuitLeaf hash4) (MerkleSumNode.combine hash4)
  · simpa [List.map_ofFn, Function.comp_def] using
      iterate_parents_fold folded (proverLeaf hash4) (hashPair hash4)

theorem asField_val (balance : U64) : (asField balance).val = balance.val :=
  ZMod.val_natCast_of_lt (Nat.lt_trans balance.isLt (by decide))

/-- The built root and the computed root of the same customers. -/
theorem exists_sameNode_root (hash4 : Hash4) {depth : Nat}
    (customers : Fin (2 ^ depth) → Customer) (fits : ∑ i, (customers i).2.val < 2 ^ 128) :
    ∃ (tree : MerkleSumTree hash4) (root : MerkleSumNode),
      MerkleSumTree.build hash4 (List.ofFn fun i => proverLeaf hash4 (customers i)) =
        some tree ∧
      computeRoot hash4 depth (fun i => (customers i).1)
        (fun i => asField (customers i).2) = .ok root ∧
      SameNode root tree.root (∑ i, (customers i).2.val) := by
  obtain ⟨common, total_eq, circuit_folded, prover_climbs⟩ := exists_common_tree hash4 customers
  obtain ⟨tree, built, climbs, _⟩ := exists_build hash4 prover_climbs.ne_nil
  have same := sameNode_fold hash4 (total_eq ▸ fits)
  rw [← climbs.unique prover_climbs, total_eq] at same
  have balances_u64 (i : Fin (2 ^ depth)) : (asField (customers i).2).val < 2 ^ 64 := by
    rw [asField_val]
    exact (customers i).2.isLt
  exact ⟨tree, _, built, computeRoot_eq_ok_iff.mpr ⟨balances_u64, circuit_folded⟩, same⟩

/-- The circuit computes the root the prover builds. -/
theorem computeRoot_eq_build {depth : Nat} (customers : Fin (2 ^ depth) → Customer)
    (fits : ∑ i, (customers i).2.val < 2 ^ 128) :
    ∃ (tree : MerkleSumTree hash4) (root : MerkleSumNode),
      MerkleSumTree.build hash4 (List.ofFn fun i => proverLeaf hash4 (customers i)) =
        some tree ∧
      computeRoot hash4 depth (fun i => (customers i).1)
        (fun i => asField (customers i).2) = .ok root ∧
      tree.root.hash = frToBytes root.hash ∧ tree.root.sum.val = root.sum.val := by
  obtain ⟨tree, root, built, computed, same⟩ := exists_sameNode_root hash4 customers fits
  refine ⟨tree, root, built, computed, same.hash_eq, ?_⟩
  rw [same.prover_sum, same.circuit_sum, ZMod.val_natCast_of_lt]
  exact Nat.lt_trans fits two_pow_128_lt_p

/-- The demo leaves, whose root is pinned by the tests of both tiers. -/
def sampleCustomers (i : Fin (2 ^ 3)) : Customer :=
  (Fin.ofNat p (i.val + 1), Fin.ofNat (2 ^ 64) (10 * i.val + 10))

theorem computeRoot_eq_build_sample :
    ∃ (tree : MerkleSumTree Poseidon2.poseidon2Perm4) (root : MerkleSumNode),
      MerkleSumTree.build Poseidon2.poseidon2Perm4
        (List.ofFn fun i => proverLeaf Poseidon2.poseidon2Perm4 (sampleCustomers i)) =
        some tree ∧
      computeRoot Poseidon2.poseidon2Perm4 3 (fun i => (sampleCustomers i).1)
        (fun i => asField (sampleCustomers i).2) = .ok root ∧
      tree.root.hash = frToBytes root.hash ∧ tree.root.sum.val = root.sum.val :=
  computeRoot_eq_build sampleCustomers (by decide +kernel)

end Solva.Circuit
