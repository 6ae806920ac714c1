import Solva.Field.Bn254

/-!
# The prover's Merkle sum tree

The tree of `tree.rs`: nodes carry 32-byte hashes and `u128` sums that saturate.
A `MerkleSumTree` carries the proof that its levels are the fold of a nonempty
leaf layer, so its root and its paths need no error case of their own.
-/

namespace Solva.Prover

open Bn254 SumTree

/-- A node of the tree: `FieldElem` hash and `u128` sum. -/
structure Node where
  hash : Bytes32
  sum : U128
  deriving DecidableEq

/-- A balance or sum as a field element. -/
def u128ToField (v : U128) : Bytes32 :=
  frToBytes (frOfU128 v)

/-- `poseidon2_hash_four` over words, reading each modulo the field. -/
def poseidon2HashFour (hash4 : Hash4) (a b c d : Bytes32) : Bytes32 :=
  frToBytes (hash4 (fromBeBytesModOrder a) (fromBeBytesModOrder b)
    (fromBeBytesModOrder c) (fromBeBytesModOrder d))

/-- `Node::leaf`. -/
def Node.leaf (hash4 : Hash4) (idHash : Bytes32) (balance : U128) : Node :=
  let zero := u128ToField 0
  { hash := poseidon2HashFour hash4 idHash (u128ToField balance) zero zero
    sum := balance }

/-- `hash_pair`. -/
def hashPair (hash4 : Hash4) (left right : Node) : Node :=
  { hash := poseidon2HashFour hash4 left.hash (u128ToField left.sum) right.hash
      (u128ToField right.sum)
    sum := saturatingAdd left.sum right.sum }

/-- One step of an inclusion path. -/
abbrev PathStep : Type :=
  SumTree.PathStep Node

/-- The levels of a built tree, leaves first. -/
structure MerkleSumTree (hash4 : Hash4) where
  levels : List (List Node)
  /-- The levels are those folded from some nonempty leaf layer. -/
  folded : ∃ leaves, leaves ≠ [] ∧ levels = SumTree.levels (hashPair hash4) leaves.length leaves

namespace MerkleSumTree

variable {hash4 : Hash4}

/-- `MerkleSumTree::build`. An empty leaf vector fails the assertion. -/
def build (hash4 : Hash4) (leaves : List Node) : Option (MerkleSumTree hash4) :=
  if nonempty : leaves ≠ [] then
    some ⟨SumTree.levels (hashPair hash4) leaves.length leaves, leaves, nonempty, rfl⟩
  else none

theorem build_eq_some {leaves : List Node} (nonempty : leaves ≠ []) :
    build hash4 leaves =
      some ⟨SumTree.levels (hashPair hash4) leaves.length leaves, leaves, nonempty, rfl⟩ :=
  dif_pos nonempty

/-- The last level of a built tree is its top node. -/
theorem exists_top (tree : MerkleSumTree hash4) :
    ∃ node, tree.levels.getLast? = some [node] := by
  obtain ⟨levels, leaves, nonempty, rfl⟩ := tree
  obtain ⟨node, _, last⟩ := exists_climbs_of_levels (hashPair hash4) nonempty
    (Nat.le_succ leaves.length)
  exact ⟨node, last⟩

theorem top_isSome (tree : MerkleSumTree hash4) :
    (tree.levels.getLast?.bind List.head?).isSome := by
  obtain ⟨node, last⟩ := tree.exists_top
  simp [last]

/-- `self.levels.last().unwrap()[0]`. -/
def root (tree : MerkleSumTree hash4) : Node :=
  (tree.levels.getLast?.bind List.head?).get tree.top_isSome

/-- `inclusion_path`: an index out of range fails the assertion. -/
def inclusionPath (tree : MerkleSumTree hash4) (index : Nat) : Option (List PathStep) :=
  match tree.levels.head? with
  | some leaves =>
      if index < leaves.length then siblings tree.levels.dropLast index else none
  | none => none

end MerkleSumTree

/-! ## What building computes -/

section Build

variable {hash4 : Hash4}

/-- A nonempty leaf layer builds, and folds to the root. -/
theorem exists_build (hash4 : Hash4) {leaves : List Node} (nonempty : leaves ≠ []) :
    ∃ tree : MerkleSumTree hash4, MerkleSumTree.build hash4 leaves = some tree ∧
      Climbs (hashPair hash4) leaves tree.root ∧ tree.levels.head? = some leaves := by
  refine ⟨_, MerkleSumTree.build_eq_some nonempty, ?_, head?_levels _ _⟩
  obtain ⟨node, climbs, last⟩ := exists_climbs_of_levels (hashPair hash4) nonempty
    (Nat.le_succ leaves.length)
  simpa [MerkleSumTree.root, last] using climbs

/-- What a successful build folds. -/
theorem climbs_root_of_build {leaves : List Node} {tree : MerkleSumTree hash4}
    (built : MerkleSumTree.build hash4 leaves = some tree) :
    Climbs (hashPair hash4) leaves tree.root := by
  by_cases nonempty : leaves ≠ []
  · obtain ⟨other, other_built, climbs, _⟩ := exists_build hash4 nonempty
    rw [built, Option.some_inj] at other_built
    rwa [other_built]
  · rw [MerkleSumTree.build, dif_neg nonempty] at built
    cases built

theorem levels_of_build {leaves : List Node} {tree : MerkleSumTree hash4}
    (built : MerkleSumTree.build hash4 leaves = some tree) :
    tree.levels = SumTree.levels (hashPair hash4) leaves.length leaves := by
  rw [MerkleSumTree.build_eq_some (climbs_root_of_build built).ne_nil, Option.some_inj] at built
  rw [← built]

/-- Every leaf has an inclusion path, and climbing it from the leaf reaches the
root. -/
theorem exists_inclusionPath {leaves : List Node} {tree : MerkleSumTree hash4}
    (built : MerkleSumTree.build hash4 leaves = some tree) {index : Nat} {leaf : Node}
    (found : leaves[index]? = some leaf) :
    ∃ path, tree.inclusionPath index = some path ∧
      climb (hashPair hash4) leaf path = tree.root := by
  have climbs := climbs_root_of_build built
  have bound : index < leaves.length := (List.getElem?_eq_some_iff.mp found).1
  obtain ⟨path, path_eq, climbed⟩ := exists_siblings (Nat.le_succ leaves.length) found climbs
  refine ⟨path, ?_, climbed⟩
  simp [MerkleSumTree.inclusionPath, levels_of_build built, bound, path_eq]

/-- A fold over a total that fits a `u128` saturates nowhere. -/
theorem sum_fold {tree : SumTree.Tree Node}
    (fits : (tree.leaves.map fun leaf => leaf.sum.val).sum < 2 ^ 128) :
    (tree.fold id (hashPair hash4)).sum.val = (tree.leaves.map fun leaf => leaf.sum.val).sum := by
  induction tree with
  | leaf value => simp [SumTree.Tree.leaves]
  | node left right leftIh rightIh =>
      simp only [SumTree.Tree.leaves, List.map_append, List.sum_append] at fits ⊢
      have left_sum := leftIh (by omega)
      have right_sum := rightIh (by omega)
      rw [SumTree.Tree.fold_node, hashPair, saturatingAdd_val_of_lt (by omega), left_sum, right_sum]

/-- The root of a full layer carries the exact total of the leaves. -/
theorem root_sum_of_build {leaves : List Node} {tree : MerkleSumTree hash4} {depth : Nat}
    (built : MerkleSumTree.build hash4 leaves = some tree) (full : leaves.length = 2 ^ depth)
    (fits : (leaves.map fun leaf => leaf.sum.val).sum < 2 ^ 128) :
    tree.root.sum.val = (leaves.map fun leaf => leaf.sum.val).sum := by
  obtain ⟨shape, folded, _, leaves_eq⟩ := exists_perfect_tree full
  have climbs : Climbs (hashPair hash4) leaves (shape.fold id (hashPair hash4)) :=
    Climbs.of_iterate full (by simpa using iterate_parents_fold folded id (hashPair hash4))
  rw [(climbs_root_of_build built).unique climbs, sum_fold (by rwa [leaves_eq]), leaves_eq]

/-- A path is made of the siblings met on the way up. -/
theorem siblings_of_inclusionPath {tree : MerkleSumTree hash4} {index : Nat}
    {path : List PathStep} (path_eq : tree.inclusionPath index = some path) :
    siblings tree.levels.dropLast index = some path := by
  unfold MerkleSumTree.inclusionPath at path_eq
  split at path_eq
  · split at path_eq
    · exact path_eq
    · cases path_eq
  · cases path_eq

/-- The siblings of an inclusion path have every property that the leaves and
the combined nodes have. -/
theorem forall_mem_inclusionPath {leaves : List Node} {tree : MerkleSumTree hash4} {index : Nat}
    {path : List PathStep} {property : Node → Prop}
    (built : MerkleSumTree.build hash4 leaves = some tree)
    (path_eq : tree.inclusionPath index = some path)
    (combined : ∀ left right, property (hashPair hash4 left right))
    (nodes : ∀ leaf ∈ leaves, property leaf) : ∀ step ∈ path, property step.sibling := by
  intro step mem
  obtain ⟨level, level_mem, sibling_mem⟩ :=
    exists_level_of_mem_siblings (siblings_of_inclusionPath path_eq) step mem
  rw [levels_of_build built] at level_mem
  exact forall_mem_levels combined _ nodes level (List.mem_of_mem_dropLast level_mem) _ sibling_mem

end Build

/-! ## Nodes over the field -/

/-- The node with its hash read as a field element. -/
def Node.toField (node : Node) : SumNode Fr U128 :=
  ⟨fromBeBytesModOrder node.hash, node.sum⟩

/-- The 32-byte form of a field node. -/
def Node.ofField (node : SumNode Fr U128) : Node :=
  ⟨frToBytes node.hash, node.sum⟩

section OverField

variable (hash4 : Hash4)

@[simp]
theorem Node.toField_leaf (idHash : Bytes32) (balance : U128) :
    (Node.leaf hash4 idHash balance).toField =
      (scheme hash4).leaf (fromBeBytesModOrder idHash, balance) := by
  simp [Node.toField, Node.leaf, poseidon2HashFour, u128ToField, Scheme.leaf,
    Scheme.leafQuery, scheme]

@[simp]
theorem toField_hashPair (left right : Node) :
    (hashPair hash4 left right).toField =
      (scheme hash4).combine left.toField right.toField := by
  simp [Node.toField, hashPair, poseidon2HashFour, u128ToField, Scheme.combine,
    Scheme.nodeQuery, scheme]

@[simp]
theorem Node.toField_ofField (node : SumNode Fr U128) : (Node.ofField node).toField = node := by
  simp [Node.toField, Node.ofField]

theorem Node.ofField_toField {node : Node} (canonical : Canonical node.hash) :
    Node.ofField node.toField = node := by
  simp [Node.toField, Node.ofField, frToBytes_fromBeBytesModOrder canonical]

theorem canonical_leaf (idHash : Bytes32) (balance : U128) :
    Canonical (Node.leaf hash4 idHash balance).hash :=
  canonical_frToBytes _

theorem canonical_hashPair (left right : Node) :
    Canonical (hashPair hash4 left right).hash :=
  canonical_frToBytes _

variable {hash4}

/-- Folding field nodes and folding their byte forms end at the same node. -/
theorem climbs_toField {leaves : List Node} {top : Node}
    (climbs : Climbs (hashPair hash4) leaves top) :
    Climbs (scheme hash4).combine (leaves.map Node.toField) top.toField :=
  climbs.map (toField_hashPair hash4)

/-- Nodes above canonical leaves are canonical. -/
theorem canonical_root {leaves : List Node} {tree : MerkleSumTree hash4}
    (built : MerkleSumTree.build hash4 leaves = some tree)
    (canonical : ∀ leaf ∈ leaves, Canonical leaf.hash) : Canonical tree.root.hash :=
  (climbs_root_of_build built).property_top (canonical_hashPair hash4) canonical

end OverField

end Solva.Prover
