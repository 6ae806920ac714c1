import Mathlib.Algebra.Order.BigOperators.Group.List
import Mathlib.Algebra.Order.Ring.Nat
import Mathlib.Data.Nat.Log
import Mathlib.Data.List.Induction
import Mathlib.Logic.Function.Iterate

/-!
# Pairing trees over an arbitrary combine

A layer of nodes is folded into its parents by combining neighbours, a last odd
node being combined with itself, until one node is left. The construction is
generic in the node type and in the combine. The facts here are about shape
only: layers commute with node maps, a layer of `2 ^ d` nodes folds to the
perfect tree over it in `d` rounds, and the sibling path of every leaf climbs
back to the top.
-/

namespace Solva.SumTree

universe u v

/-! ## Layers -/

/-- The parents of a layer: neighbours are combined, a last odd node with
itself. -/
def parents {α : Type u} (combine : α → α → α) : List α → List α
  | [] => []
  | [last] => [combine last last]
  | left :: right :: rest => combine left right :: parents combine rest

/-- The pairs a layer is combined in. -/
def pairs {α : Type u} : List α → List (α × α)
  | [] => []
  | [last] => [(last, last)]
  | left :: right :: rest => (left, right) :: pairs rest

/-- The layers above and including a layer, until at most one node is left.
The fuel bounds the number of rounds. -/
def levels {α : Type u} (combine : α → α → α) : Nat → List α → List (List α)
  | 0, layer => [layer]
  | fuel + 1, layer =>
      if layer.length ≤ 1 then [layer]
      else layer :: levels combine fuel (parents combine layer)

/-- `Climbs combine layer top` says that folding `layer` ends at `top`. -/
inductive Climbs {α : Type u} (combine : α → α → α) : List α → α → Prop
  | top (node : α) : Climbs combine [node] node
  | up {layer : List α} {node : α} : 2 ≤ layer.length →
      Climbs combine (parents combine layer) node → Climbs combine layer node

section Layers

variable {α : Type u} {β : Type v} {combine : α → α → α}

@[simp]
theorem length_parents (combine : α → α → α) (layer : List α) :
    (parents combine layer).length = (layer.length + 1) / 2 := by
  induction layer using parents.induct with
  | case1 => simp [parents]
  | case2 => simp [parents]
  | case3 left right rest ih =>
      simp only [parents, List.length_cons, ih]
      omega

theorem parents_eq_map_pairs (combine : α → α → α) (layer : List α) :
    parents combine layer = (pairs layer).map fun pair => combine pair.1 pair.2 := by
  induction layer using parents.induct with
  | case1 => rfl
  | case2 last => rfl
  | case3 left right rest ih => rw [parents, pairs, ih, List.map_cons]

/-- Exactly the nodes of a layer occur in its pairs. -/
theorem exists_mem_pairs_iff {node : α} {layer : List α} :
    (∃ pair ∈ pairs layer, node = pair.1 ∨ node = pair.2) ↔ node ∈ layer := by
  induction layer using parents.induct with
  | case1 => simp [pairs]
  | case2 last => simp [pairs]
  | case3 left right rest ih => simp [pairs, ← ih, or_assoc]

theorem pairs_map (f : α → β) (layer : List α) :
    pairs (layer.map f) = (pairs layer).map fun pair => (f pair.1, f pair.2) := by
  induction layer using parents.induct with
  | case1 => rfl
  | case2 last => rfl
  | case3 left right rest ih => simp [pairs, ih]

/-- A map that respects the combines respects the layers. -/
theorem parents_map {combine : α → α → α} {other : β → β → β} {f : α → β}
    (respects : ∀ left right, f (combine left right) = other (f left) (f right))
    (layer : List α) :
    parents other (layer.map f) = (parents combine layer).map f := by
  induction layer using parents.induct with
  | case1 => rfl
  | case2 last => simp [parents, respects]
  | case3 left right rest ih => simp [parents, respects, ih]

theorem parents_iterate_map {other : β → β → β} {f : α → β}
    (respects : ∀ left right, f (combine left right) = other (f left) (f right))
    (rounds : Nat) (layer : List α) :
    (parents other)^[rounds] (layer.map f) = ((parents combine)^[rounds] layer).map f := by
  induction rounds generalizing layer with
  | zero => rfl
  | succ rounds ih =>
      rw [Function.iterate_succ_apply, Function.iterate_succ_apply,
        parents_map respects, ih]

/-- The parent at an index combines the two children, the right one clamped to
the end of the layer. -/
theorem getElem?_parents (layer : List α) (index : Nat) :
    (parents combine layer)[index]? =
      layer[2 * index]?.map fun left =>
        combine left ((layer[2 * index + 1]?).getD left) := by
  induction layer using parents.induct generalizing index with
  | case1 => simp [parents]
  | case2 last =>
      cases index with
      | zero => simp [parents]
      | succ index => simp [parents, Nat.mul_add]
  | case3 left right rest ih =>
      cases index with
      | zero => simp [parents]
      | succ index =>
          rw [parents, List.getElem?_cons_succ, ih, Nat.mul_add, Nat.mul_one]
          rfl

theorem levels_map {combine : α → α → α} {other : β → β → β} {f : α → β}
    (respects : ∀ left right, f (combine left right) = other (f left) (f right))
    (fuel : Nat) (layer : List α) :
    levels other fuel (layer.map f) = (levels combine fuel layer).map (List.map f) := by
  induction fuel generalizing layer with
  | zero => rfl
  | succ fuel ih =>
      rw [levels, levels, List.length_map]
      split
      · rfl
      · rw [parents_map respects, ih, List.map_cons]

theorem levels_ne_nil (fuel : Nat) (layer : List α) : levels combine fuel layer ≠ [] := by
  cases fuel with
  | zero => simp [levels]
  | succ fuel => unfold levels; split <;> simp

@[simp]
theorem head?_levels (fuel : Nat) (layer : List α) :
    (levels combine fuel layer).head? = some layer := by
  cases fuel with
  | zero => rfl
  | succ fuel => unfold levels; split <;> rfl

theorem Climbs.ne_nil {layer : List α} {node : α} (climbs : Climbs combine layer node) :
    layer ≠ [] := by
  cases climbs with
  | top => simp
  | up two_le _ => intro empty; simp [empty] at two_le

/-- Parents have every property that combined nodes have. -/
theorem forall_mem_parents {property : α → Prop}
    (combined : ∀ left right, property (combine left right)) (layer : List α) :
    ∀ node ∈ parents combine layer, property node := by
  induction layer using parents.induct with
  | case1 => simp [parents]
  | case2 last => simpa [parents] using combined last last
  | case3 left right rest ih =>
      intro node mem
      rcases List.mem_cons.mp mem with rfl | mem
      · exact combined left right
      · exact ih node mem

/-- So does the top of a layer whose nodes have it too. -/
theorem Climbs.property_top {property : α → Prop}
    (combined : ∀ left right, property (combine left right)) {layer : List α} {top : α}
    (climbs : Climbs combine layer top) (nodes : ∀ node ∈ layer, property node) :
    property top := by
  induction climbs with
  | top node => exact nodes node (List.mem_singleton_self node)
  | up _ _ ih => exact ih (forall_mem_parents combined _)

/-- And so does every level above it. -/
theorem forall_mem_levels {property : α → Prop}
    (combined : ∀ left right, property (combine left right)) (fuel : Nat) {layer : List α}
    (nodes : ∀ node ∈ layer, property node) :
    ∀ level ∈ levels combine fuel layer, ∀ node ∈ level, property node := by
  induction fuel generalizing layer with
  | zero => simpa [levels] using nodes
  | succ fuel ih =>
      rw [levels]
      split
      · simpa using nodes
      · intro level mem
        rcases List.mem_cons.mp mem with rfl | above
        · exact nodes
        · exact ih (forall_mem_parents combined _) level above

/-- A map that respects the combines respects the top of a layer. -/
theorem Climbs.map {other : β → β → β} {f : α → β}
    (respects : ∀ left right, f (combine left right) = other (f left) (f right))
    {layer : List α} {top : α} (climbs : Climbs combine layer top) :
    Climbs other (layer.map f) (f top) := by
  induction climbs with
  | top node => exact Climbs.top (f node)
  | up two_le _ ih =>
      refine Climbs.up (by simpa using two_le) ?_
      rwa [parents_map respects]

/-- The top of a layer is unique. -/
theorem Climbs.unique {layer : List α} {first second : α}
    (left : Climbs combine layer first) (right : Climbs combine layer second) :
    first = second := by
  induction left with
  | top node =>
      cases right with
      | top => rfl
      | up two_le _ => simp at two_le
  | up two_le _ ih =>
      cases right with
      | top => simp at two_le
      | up _ above => exact ih above

/-- The pairs combined while folding a layer to its top. -/
def foldPairs {α : Type u} (combine : α → α → α) (fuel : Nat) (layer : List α) :
    List (α × α) :=
  (levels combine fuel layer).dropLast.flatMap pairs

theorem foldPairs_single {layer : List α} (fuel : Nat) (single : layer.length ≤ 1) :
    foldPairs combine fuel layer = [] := by
  cases fuel with
  | zero => rfl
  | succ fuel =>
      rw [foldPairs, levels, if_pos single]
      rfl

theorem foldPairs_succ {layer : List α} (fuel : Nat) (two_le : 2 ≤ layer.length) :
    foldPairs combine (fuel + 1) layer =
      pairs layer ++ foldPairs combine fuel (parents combine layer) := by
  rw [foldPairs, levels, if_neg (by omega),
    List.dropLast_cons_of_ne_nil (levels_ne_nil _ _), List.flatMap_cons, foldPairs]

/-- Enough fuel folds every nonempty layer to a single top node. -/
theorem exists_climbs_of_levels (combine : α → α → α) {fuel : Nat} {layer : List α}
    (nonempty : layer ≠ []) (enough : layer.length ≤ fuel + 1) :
    ∃ node, Climbs combine layer node ∧
      (levels combine fuel layer).getLast? = some [node] := by
  have positive : 0 < layer.length := List.length_pos_iff.mpr nonempty
  induction fuel generalizing layer with
  | zero =>
      obtain ⟨node, rfl⟩ := List.length_eq_one_iff.mp (show layer.length = 1 by omega)
      exact ⟨node, Climbs.top node, rfl⟩
  | succ fuel ih =>
      by_cases single : layer.length ≤ 1
      · obtain ⟨node, rfl⟩ := List.length_eq_one_iff.mp (show layer.length = 1 by omega)
        exact ⟨node, Climbs.top node, rfl⟩
      · have length_above := length_parents combine layer
        have positive_above : 0 < (parents combine layer).length := by omega
        obtain ⟨node, climbs, last⟩ := ih (List.length_pos_iff.mp positive_above)
          (by omega) positive_above
        refine ⟨node, Climbs.up (by omega) climbs, ?_⟩
        rw [levels, if_neg single, List.getLast?_cons, last]
        rfl

/-- Folding a layer for as many rounds as it takes to reach one node. -/
theorem Climbs.of_iterate {rounds : Nat} {layer : List α} {node : α}
    (length_eq : layer.length = 2 ^ rounds)
    (folded : (parents combine)^[rounds] layer = [node]) : Climbs combine layer node := by
  induction rounds generalizing layer with
  | zero =>
      rw [Function.iterate_zero_apply] at folded
      rw [folded]
      exact Climbs.top node
  | succ rounds ih =>
      have double : 2 ^ (rounds + 1) = 2 * 2 ^ rounds := Nat.pow_succ'
      have positive : 0 < 2 ^ rounds := Nat.two_pow_pos rounds
      refine Climbs.up (by omega) (ih ?_ folded)
      rw [length_parents]
      omega

end Layers

/-! ## Trees -/

/-- A binary tree with values at the leaves. -/
inductive Tree (α : Type u)
  | leaf (value : α)
  | node (left right : Tree α)
  deriving DecidableEq

namespace Tree

variable {α : Type u} {β : Type v}

/-- Evaluate a tree bottom-up. -/
def fold (onLeaf : α → β) (combine : β → β → β) : Tree α → β
  | leaf value => onLeaf value
  | node left right => combine (left.fold onLeaf combine) (right.fold onLeaf combine)

/-- The values at the leaves, left to right. -/
def leaves : Tree α → List α
  | leaf value => [value]
  | node left right => left.leaves ++ right.leaves

/-- The subtrees of a tree, itself included. -/
def subtrees : Tree α → List (Tree α)
  | leaf value => [leaf value]
  | node left right => node left right :: (left.subtrees ++ right.subtrees)

/-- All leaves sit at the given depth. -/
inductive Perfect : Nat → Tree α → Prop
  | leaf (value : α) : Perfect 0 (leaf value)
  | node {depth : Nat} {left right : Tree α} :
      Perfect depth left → Perfect depth right → Perfect (depth + 1) (node left right)

@[simp]
theorem fold_leaf (onLeaf : α → β) (combine : β → β → β) (value : α) :
    (leaf value).fold onLeaf combine = onLeaf value :=
  rfl

@[simp]
theorem fold_node (onLeaf : α → β) (combine : β → β → β) (left right : Tree α) :
    (node left right).fold onLeaf combine =
      combine (left.fold onLeaf combine) (right.fold onLeaf combine) :=
  rfl

/-- A sum over the leaves below a subtree is at most the sum over all leaves. -/
theorem sum_map_leaves_le {tree sub : Tree α} (weight : α → Nat)
    (mem : sub ∈ tree.subtrees) :
    (sub.leaves.map weight).sum ≤ (tree.leaves.map weight).sum := by
  induction tree with
  | leaf value =>
      rw [subtrees, List.mem_singleton] at mem
      rw [mem]
  | node left right leftIh rightIh =>
      simp only [subtrees, List.mem_cons, List.mem_append] at mem
      rcases mem with rfl | mem | mem
      · exact Nat.le_refl _
      · have le := leftIh mem
        simp only [leaves, List.map_append, List.sum_append]
        omega
      · have le := rightIh mem
        simp only [leaves, List.map_append, List.sum_append]
        omega

end Tree

section Forests

variable {α : Type u} {β : Type v}

/-- Pairing perfect trees of one depth an even number at a time. -/
theorem parents_perfect {depth : Nat} {forest : List (Tree α)}
    (even : forest.length % 2 = 0) (perfect : ∀ tree ∈ forest, Tree.Perfect depth tree) :
    (∀ tree ∈ parents Tree.node forest, Tree.Perfect (depth + 1) tree) ∧
      (parents Tree.node forest).flatMap Tree.leaves = forest.flatMap Tree.leaves := by
  induction forest using parents.induct with
  | case1 => simp [parents]
  | case2 last => simp at even
  | case3 left right rest ih =>
      have rest_even : rest.length % 2 = 0 := by
        simp only [List.length_cons] at even
        omega
      have rest_perfect : ∀ tree ∈ rest, Tree.Perfect depth tree := fun tree mem =>
        perfect tree (List.mem_cons_of_mem _ (List.mem_cons_of_mem _ mem))
      obtain ⟨perfect_above, leaves_above⟩ := ih rest_even rest_perfect
      constructor
      · intro tree mem
        rcases List.mem_cons.mp mem with rfl | mem
        · exact Tree.Perfect.node (perfect left (by simp)) (perfect right (by simp))
        · exact perfect_above tree mem
      · simp [parents, Tree.leaves, leaves_above]

/-- A layer of `2 ^ rounds` values folds in `rounds` rounds to the perfect tree
over it, leaves in order. -/
theorem exists_perfect_tree {rounds : Nat} {values : List α}
    (length_eq : values.length = 2 ^ rounds) :
    ∃ tree, (parents Tree.node)^[rounds] (values.map Tree.leaf) = [tree] ∧
      Tree.Perfect rounds tree ∧ tree.leaves = values := by
  suffices general : ∀ (rounds depth : Nat) (forest : List (Tree α)),
      forest.length = 2 ^ rounds → (∀ tree ∈ forest, Tree.Perfect depth tree) →
        ∃ tree, (parents Tree.node)^[rounds] forest = [tree] ∧
          Tree.Perfect (depth + rounds) tree ∧
          tree.leaves = forest.flatMap Tree.leaves by
    obtain ⟨tree, folded, perfect, leaves_eq⟩ := general rounds 0 (values.map Tree.leaf)
      (by simpa using length_eq) (by
        intro tree mem
        obtain ⟨value, _, rfl⟩ := List.mem_map.mp mem
        exact Tree.Perfect.leaf value)
    refine ⟨tree, folded, by simpa using perfect, ?_⟩
    simpa [List.flatMap_map, Tree.leaves] using leaves_eq
  intro rounds
  induction rounds with
  | zero =>
      intro depth forest length_eq perfect
      obtain ⟨tree, rfl⟩ := List.length_eq_one_iff.mp (by simpa using length_eq)
      exact ⟨tree, rfl, perfect tree (by simp), by simp⟩
  | succ rounds ih =>
      intro depth forest length_eq perfect
      have double : 2 ^ (rounds + 1) = 2 * 2 ^ rounds := Nat.pow_succ'
      obtain ⟨perfect_above, leaves_above⟩ := parents_perfect (by omega) perfect
      obtain ⟨tree, folded, tree_perfect, leaves_eq⟩ := ih (depth + 1)
        (parents Tree.node forest) (by rw [length_parents]; omega) perfect_above
      refine ⟨tree, folded, ?_, leaves_eq.trans leaves_above⟩
      rwa [Nat.add_assoc, Nat.add_comm 1] at tree_perfect

/-- Folding values round by round evaluates the tree folded over them. -/
theorem iterate_parents_fold {rounds : Nat} {values : List α} {tree : Tree α}
    (folded : (parents Tree.node)^[rounds] (values.map Tree.leaf) = [tree])
    (onLeaf : α → β) (combine : β → β → β) :
    (parents combine)^[rounds] (values.map onLeaf) = [tree.fold onLeaf combine] := by
  have commute : (parents combine)^[rounds]
      ((values.map Tree.leaf).map (Tree.fold onLeaf combine)) =
        ((parents Tree.node)^[rounds] (values.map Tree.leaf)).map (Tree.fold onLeaf combine) :=
    parents_iterate_map (fun _ _ => rfl) rounds (values.map Tree.leaf)
  rw [folded] at commute
  simpa [List.map_map, Function.comp_def] using commute

end Forests

/-! ## Sibling paths -/

/-- One step of a sibling path. -/
structure PathStep (α : Type u) where
  /-- The node combined with. -/
  sibling : α
  /-- Whether the sibling is the left operand. -/
  siblingIsLeft : Bool
  deriving DecidableEq

/-- Combine a node with its sibling in the order the step says. -/
def PathStep.apply {α : Type u} (combine : α → α → α) (node : α) (step : PathStep α) : α :=
  if step.siblingIsLeft then combine step.sibling node else combine node step.sibling

/-- Climb from a node along a path. -/
def climb {α : Type u} (combine : α → α → α) (node : α) (path : List (PathStep α)) : α :=
  path.foldl (PathStep.apply combine) node

/-- The step that climbs from an index: the neighbour the node is combined
with, the node itself when it is the odd one out. -/
def stepAt {α : Type u} (level : List α) (index : Nat) (node : α) : PathStep α :=
  if index % 2 = 1 then ⟨(level[index - 1]?).getD node, true⟩
  else ⟨(level[index + 1]?).getD node, false⟩

/-- The steps met on the way up from an index, one for each given level. -/
def siblings {α : Type u} : List (List α) → Nat → Option (List (PathStep α))
  | [], _ => some []
  | level :: above, index =>
      level[index]?.bind fun node =>
        (siblings above (index / 2)).map (stepAt level index node :: ·)

section Paths

variable {α : Type u} {β : Type v} {combine : α → α → α}

@[simp]
theorem climb_nil (node : α) : climb combine node [] = node :=
  rfl

@[simp]
theorem climb_cons (node : α) (step : PathStep α) (path : List (PathStep α)) :
    climb combine node (step :: path) = climb combine (step.apply combine node) path :=
  rfl

theorem climb_append (node : α) (first second : List (PathStep α)) :
    climb combine node (first ++ second) =
      climb combine (climb combine node first) second :=
  List.foldl_append

/-- Climbing one step from an index gives the parent above it. -/
theorem apply_stepAt (combine : α → α → α) {layer : List α} {index : Nat} {node : α}
    (found : layer[index]? = some node) :
    (parents combine layer)[index / 2]? =
      some ((stepAt layer index node).apply combine node) := by
  rw [getElem?_parents]
  by_cases odd : index % 2 = 1
  · have double : 2 * (index / 2) = index - 1 := by omega
    have bound : index < layer.length := (List.getElem?_eq_some_iff.mp found).1
    obtain ⟨left, left_eq⟩ : ∃ left, layer[index - 1]? = some left :=
      ⟨_, List.getElem?_eq_getElem (by omega)⟩
    have next : index - 1 + 1 = index := by omega
    simp [double, next, left_eq, found, stepAt, odd, PathStep.apply]
  · have double : 2 * (index / 2) = index := by omega
    simp [double, found, stepAt, odd, PathStep.apply]

/-- The siblings met on the way up are nodes of the levels. -/
theorem exists_level_of_mem_siblings {above : List (List α)} {index : Nat}
    {path : List (PathStep α)} (path_eq : siblings above index = some path) :
    ∀ step ∈ path, ∃ level ∈ above, step.sibling ∈ level := by
  induction above generalizing index path with
  | nil =>
      cases path_eq
      simp
  | cons level above ih =>
      simp only [siblings, Option.bind_eq_some_iff, Option.map_eq_some_iff] at path_eq
      obtain ⟨node, found, rest, rest_eq, rfl⟩ := path_eq
      intro step mem
      rcases List.mem_cons.mp mem with rfl | mem
      · have node_mem : node ∈ level := List.mem_of_getElem? found
        have neighbour (position : Nat) : (level[position]?).getD node ∈ level := by
          cases at_position : level[position]? with
          | none => exact node_mem
          | some other => exact List.mem_of_getElem? at_position
        refine ⟨level, List.mem_cons_self, ?_⟩
        unfold stepAt
        split
        · exact neighbour _
        · exact neighbour _
      · obtain ⟨found_level, level_mem, sibling_mem⟩ := ih rest_eq step mem
        exact ⟨found_level, List.mem_cons_of_mem _ level_mem, sibling_mem⟩

private theorem eq_top_of_short {layer : List α} {index : Nat} {node top : α}
    (climbs : Climbs combine layer top) (found : layer[index]? = some node)
    (short : layer.length ≤ 1) : node = top := by
  cases climbs with
  | top => exact List.mem_singleton.mp (List.mem_of_getElem? found)
  | up two_le _ => omega

/-- Every index of a layer has a sibling path, and climbing it from the node
there ends at the top of the layer. -/
theorem exists_siblings {fuel : Nat} {layer : List α} {index : Nat} {node top : α}
    (enough : layer.length ≤ fuel + 1) (found : layer[index]? = some node)
    (climbs : Climbs combine layer top) :
    ∃ path, siblings (levels combine fuel layer).dropLast index = some path ∧
      climb combine node path = top := by
  induction fuel generalizing layer index node with
  | zero => exact ⟨[], rfl, eq_top_of_short climbs found enough⟩
  | succ fuel ih =>
      by_cases short : layer.length ≤ 1
      · refine ⟨[], ?_, eq_top_of_short climbs found short⟩
        rw [levels, if_pos short]
        rfl
      · cases climbs with
        | top => simp at short
        | up two_le above =>
            have length_above := length_parents combine layer
            have parent := apply_stepAt combine found
            obtain ⟨path, path_eq, climb_eq⟩ := ih (by omega) parent above
            refine ⟨stepAt layer index node :: path, ?_, climb_eq⟩
            rw [levels, if_neg short, List.dropLast_cons_of_ne_nil (levels_ne_nil _ _),
              siblings, found, Option.bind_some, path_eq]
            rfl

/-- A map that respects the combines respects climbing. -/
theorem climb_map {other : β → β → β} {f : α → β}
    (respects : ∀ left right, f (combine left right) = other (f left) (f right))
    (node : α) (path : List (PathStep α)) :
    climb other (f node) (path.map fun step => ⟨f step.sibling, step.siblingIsLeft⟩) =
      f (climb combine node path) := by
  induction path generalizing node with
  | nil => rfl
  | cons step path ih =>
      rw [List.map_cons, climb_cons, climb_cons, ← ih]
      congr 1
      unfold PathStep.apply
      split <;> simp [respects]

end Paths

end Solva.SumTree
