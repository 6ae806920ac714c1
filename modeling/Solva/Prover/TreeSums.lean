import Solva.Prover.Poseidon2
import Solva.Prover.Tree
import Solva.SumTree.Spans

/-!
# Paths and sums of a tree of any length

A leaf layer of any length folds, its last odd nodes paired with themselves. Every
leaf then has a path of logarithmic length that folds to the root. The sums are those
of the leaves only where no pairing with itself counts a balance twice.
-/

namespace Solva.Prover

open Bn254 SumTree

variable {hash4 : Hash4}

/-- The steps of a path are the levels below the root. -/
theorem length_inclusionPath {leaves : List Node} {tree : MerkleSumTree hash4} {index : Nat}
    {path : List PathStep} (built : MerkleSumTree.build hash4 leaves = some tree)
    (path_eq : tree.inclusionPath index = some path) : path.length = Nat.clog 2 leaves.length := by
  have nonempty := (climbs_root_of_build built).ne_nil
  rw [length_siblings (siblings_of_inclusionPath path_eq), levels_of_build built,
    List.length_dropLast, length_levels nonempty (Nat.le_succ _), Nat.add_sub_cancel]

/-- A nonempty leaf layer builds, and each of its leaves has a path of
`⌈log₂ length⌉` steps that folds from the leaf to the root. -/
theorem inclusionPath_verifies (hash4 : Hash4) {leaves : List Node} (nonempty : leaves ≠ []) :
    ∃ tree, MerkleSumTree.build hash4 leaves = some tree ∧
      ∀ index leaf, leaves[index]? = some leaf →
        ∃ path, tree.inclusionPath index = some path ∧
          climb (hashPair hash4) leaf path = tree.root ∧
          path.length = Nat.clog 2 leaves.length := by
  rcases exists_build hash4 nonempty with ⟨tree, built, _, _⟩
  refine ⟨tree, built, fun index leaf found => ?_⟩
  rcases exists_inclusionPath built found with ⟨path, path_eq, climbed⟩
  exact ⟨path, path_eq, climbed, length_inclusionPath built path_eq⟩

/-- Leaves with the given balances and ids counted from one. -/
def numberedLeaves (hash4 : Hash4) (balances : List U128) : List Node :=
  balances.zipIdx.map fun (balance, index) =>
    Node.leaf hash4 (frToBytes ((index + 1 : Nat) : Fr)) balance

theorem inclusionPath_verifies_three :
    numberedLeaves Poseidon2.poseidon2Perm4 [100, 200, 300] ≠ [] ∧
      ∃ tree, MerkleSumTree.build Poseidon2.poseidon2Perm4
          (numberedLeaves Poseidon2.poseidon2Perm4 [100, 200, 300]) = some tree ∧
        ∀ index leaf,
          (numberedLeaves Poseidon2.poseidon2Perm4 [100, 200, 300])[index]? = some leaf →
            ∃ path, tree.inclusionPath index = some path ∧
              climb (hashPair Poseidon2.poseidon2Perm4) leaf path = tree.root ∧
              path.length = Nat.clog 2 3 :=
  ⟨List.cons_ne_nil _ _, inclusionPath_verifies Poseidon2.poseidon2Perm4 (List.cons_ne_nil _ _)⟩

/-! ## Sums -/

/-- The root carries the total of the leaves, and every node the total of the leaves
beneath it. -/
def SumsExact (tree : MerkleSumTree hash4) (leaves : List Node) : Prop :=
  tree.root.sum.val = (leaves.map fun leaf => leaf.sum.val).sum ∧
    ∀ height level, tree.levels[height]? = some level →
      ∀ index node, level[index]? = some node →
        node.sum.val = ((span leaves height index).map fun leaf => leaf.sum.val).sum

/-- A saturating sum keeps an amount added to itself only at both ends of its range. -/
theorem saturating_double (amount : Nat) :
    min (amount + amount) (2 ^ 128 - 1) = amount ↔ amount = 0 ∨ amount = 2 ^ 128 - 1 := by
  omega

/-- The sums of a tree whose total fits are exact if and only if in every odd layer
below the root the leaves under the last node total nothing, or all that a sum holds. -/
theorem sumsExact_iff {leaves : List Node} {tree : MerkleSumTree hash4}
    (built : MerkleSumTree.build hash4 leaves = some tree)
    (fits : (leaves.map fun leaf => leaf.sum.val).sum < 2 ^ 128) :
    SumsExact tree leaves ↔
      ∀ height, width leaves height % 2 = 1 → 2 ≤ width leaves height →
        ending (fun leaf => leaf.sum.val) leaves height = 0 ∨
          ending (fun leaf => leaf.sum.val) leaves height = 2 ^ 128 - 1 := by
  have nonempty := (climbs_root_of_build built).ne_nil
  have levels_eq := levels_of_build built
  have nodes_iff : Exact (hashPair hash4) (fun node => node.sum.val) leaves ↔ _ :=
    exact_iff (fun a b => min (a + b) (2 ^ 128 - 1))
      (fun left right => saturatingAdd_val left.sum right.sum) (fun a b le => by omega)
  simp only [saturating_double] at nodes_iff
  rw [← nodes_iff, SumsExact, levels_eq]
  constructor
  · exact fun exact => exact.2
  · intro exact
    rcases tree.exists_top with ⟨node, last⟩
    have root_eq : tree.root = node := by
      simp [MerkleSumTree.root, last]
    rw [levels_eq] at last
    rw [root_eq]
    exact ⟨exact.top nonempty last, exact⟩

/-- A third leaf of no balance is counted twice without harm. -/
theorem sumsExact_zero :
    ∃ tree, MerkleSumTree.build Poseidon2.poseidon2Perm4
        (numberedLeaves Poseidon2.poseidon2Perm4 [100, 200, 0]) = some tree ∧
      SumsExact tree (numberedLeaves Poseidon2.poseidon2Perm4 [100, 200, 0]) := by
  have nonempty : numberedLeaves Poseidon2.poseidon2Perm4 [100, 200, 0] ≠ [] :=
    List.cons_ne_nil _ _
  rcases exists_build Poseidon2.poseidon2Perm4 nonempty with ⟨tree, built, _, _⟩
  refine ⟨tree, built, (sumsExact_iff built (by decide)).mpr fun height odd wide => ?_⟩
  match height with
  | 0 => exact Or.inl rfl
  | 1 => exact absurd odd (by decide)
  | height + 2 => exact absurd (two_le_width wide (Nat.le_add_left 2 height)) (by decide)

/-- Balances of 100, 200 and 300 fold to a root over 900. -/
theorem sumsExact_doubled :
    ∃ tree, MerkleSumTree.build Poseidon2.poseidon2Perm4
        (numberedLeaves Poseidon2.poseidon2Perm4 [100, 200, 300]) = some tree ∧
      ((numberedLeaves Poseidon2.poseidon2Perm4 [100, 200, 300]).map
        fun leaf => leaf.sum.val).sum = 600 ∧
      tree.root.sum = 900 ∧
      ¬ SumsExact tree (numberedLeaves Poseidon2.poseidon2Perm4 [100, 200, 300]) := by
  have nonempty : numberedLeaves Poseidon2.poseidon2Perm4 [100, 200, 300] ≠ [] :=
    List.cons_ne_nil _ _
  refine ⟨_, MerkleSumTree.build_eq_some nonempty, rfl, rfl, fun exact => ?_⟩
  have root_eq : (900 : Nat) = 600 := exact.1
  cases root_eq

end Solva.Prover
