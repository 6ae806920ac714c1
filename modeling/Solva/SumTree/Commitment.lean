import Mathlib.Data.Set.Function
import Solva.SumTree.Core

/-!
# Openings of hash-bound sum trees

A sum tree binds a hash and a running sum in every node with one four-input
hash, used alike at leaves and at inner nodes. Nothing separates the two uses,
so a root opens to more than the leaves it was built from. This module
characterises the openings of a root exactly, relative to a table of hashed
tuples on which the hash has no collision.
-/

namespace Solva.SumTree

universe u v

/-- A hash together with the sum of the weights beneath it. -/
@[ext]
structure SumNode (δ : Type u) (σ : Type v) where
  /-- The digest of the node. -/
  hash : δ
  /-- The sum carried by the node. -/
  sum : σ
  deriving DecidableEq

/-- The input tuple of the four-input hash. -/
abbrev Query (δ : Type u) : Type u :=
  δ × δ × δ × δ

/-- How leaves and inner nodes are hashed: digests double as hash inputs, sums
enter through an injective embedding, and adding nothing changes no sum. -/
structure Scheme (δ : Type u) (σ : Type v) [Zero δ] [Zero σ] where
  /-- The four-input hash. -/
  hash4 : Query δ → δ
  /-- A sum as a hash input. -/
  embed : σ → δ
  /-- The sum of two subtrees. -/
  add : σ → σ → σ
  embed_injective : Function.Injective embed
  embed_zero : embed 0 = 0
  add_zero : ∀ sum, add sum 0 = sum
  zero_add : ∀ sum, add 0 sum = sum

namespace Scheme

variable {δ : Type u} {σ : Type v} [Zero δ] [Zero σ] (scheme : Scheme δ σ)

/-- What a leaf hashes: its identifier and balance, padded with two zeros. -/
def leafQuery (entry : δ × σ) : Query δ :=
  (entry.1, scheme.embed entry.2, 0, 0)

/-- What an inner node hashes: both hashes and both sums. -/
def nodeQuery (left right : SumNode δ σ) : Query δ :=
  (left.hash, scheme.embed left.sum, right.hash, scheme.embed right.sum)

/-- The node of a leaf. -/
def leaf (entry : δ × σ) : SumNode δ σ :=
  ⟨scheme.hash4 (scheme.leafQuery entry), entry.2⟩

/-- The parent of two nodes. -/
def combine (left right : SumNode δ σ) : SumNode δ σ :=
  ⟨scheme.hash4 (scheme.nodeQuery left right), scheme.add left.sum right.sum⟩

/-- The tuple hashed by one step of a path. -/
def stepQuery (node : SumNode δ σ) (step : PathStep (SumNode δ σ)) : Query δ :=
  if step.siblingIsLeft then scheme.nodeQuery step.sibling node
  else scheme.nodeQuery node step.sibling

/-- The tuples hashed while climbing a path. -/
def pathQueries (node : SumNode δ σ) : List (PathStep (SumNode δ σ)) → List (Query δ)
  | [] => []
  | step :: path =>
      scheme.stepQuery node step :: pathQueries (step.apply scheme.combine node) path

/-! ## Openings -/

/-- A node commits to an entry if hashing tuples of the table alone leads from
the entry's leaf up to the node. -/
inductive Commits (table : Set (Query δ)) : SumNode δ σ → δ × σ → Prop
  | leaf {entry : δ × σ} : scheme.leafQuery entry ∈ table →
      Commits table (scheme.leaf entry) entry
  | left {left right : SumNode δ σ} {entry : δ × σ} :
      scheme.nodeQuery left right ∈ table → Commits table left entry →
      Commits table (scheme.combine left right) entry
  | right {left right : SumNode δ σ} {entry : δ × σ} :
      scheme.nodeQuery left right ∈ table → Commits table right entry →
      Commits table (scheme.combine left right) entry

variable {scheme} {table : Set (Query δ)}

private theorem commits_climb {node : SumNode δ σ} {entry : δ × σ}
    (commits : scheme.Commits table node entry) (path : List (PathStep (SumNode δ σ)))
    (queried : ∀ query ∈ scheme.pathQueries node path, query ∈ table) :
    scheme.Commits table (climb scheme.combine node path) entry := by
  induction path generalizing node with
  | nil => exact commits
  | cons step path ih =>
      simp only [pathQueries, List.mem_cons, forall_eq_or_imp] at queried
      obtain ⟨step_mem, path_mem⟩ := queried
      rw [climb_cons]
      refine ih ?_ path_mem
      cases side : step.siblingIsLeft with
      | true =>
          simp only [stepQuery, PathStep.apply, side, if_true] at step_mem ⊢
          exact Commits.right step_mem commits
      | false =>
          simp only [stepQuery, PathStep.apply, side, Bool.false_eq_true, if_false]
            at step_mem ⊢
          exact Commits.left step_mem commits

theorem pathQueries_append (node : SumNode δ σ) (low high : List (PathStep (SumNode δ σ))) :
    scheme.pathQueries node (low ++ high) =
      scheme.pathQueries node low ++
        scheme.pathQueries (climb scheme.combine node low) high := by
  induction low generalizing node with
  | nil => rfl
  | cons first low ih => simp [pathQueries, ih]

private theorem pathQueries_append_singleton (node : SumNode δ σ)
    (path : List (PathStep (SumNode δ σ))) (step : PathStep (SumNode δ σ)) :
    scheme.pathQueries node (path ++ [step]) =
      scheme.pathQueries node path ++
        [scheme.stepQuery (climb scheme.combine node path) step] :=
  pathQueries_append node path [step]

/-- A node commits to exactly the entries for which some path climbs from the
entry's leaf to the node. -/
theorem commits_iff_exists_path {node : SumNode δ σ} {entry : δ × σ} :
    scheme.Commits table node entry ↔
      scheme.leafQuery entry ∈ table ∧ ∃ path,
        (∀ query ∈ scheme.pathQueries (scheme.leaf entry) path, query ∈ table) ∧
        climb scheme.combine (scheme.leaf entry) path = node := by
  constructor
  · intro commits
    induction commits with
    | leaf mem => exact ⟨mem, [], by simp [pathQueries], rfl⟩
    | @left left right entry mem _ ih =>
        obtain ⟨leaf_mem, path, path_mem, climbed⟩ := ih
        refine ⟨leaf_mem, path ++ [⟨right, false⟩], ?_, ?_⟩
        · rw [pathQueries_append_singleton, climbed]
          exact List.forall_mem_append.mpr ⟨path_mem, List.forall_mem_singleton.mpr mem⟩
        · rw [climb_append, climbed]
          rfl
    | @right left right entry mem _ ih =>
        obtain ⟨leaf_mem, path, path_mem, climbed⟩ := ih
        refine ⟨leaf_mem, path ++ [⟨left, true⟩], ?_, ?_⟩
        · rw [pathQueries_append_singleton, climbed]
          exact List.forall_mem_append.mpr ⟨path_mem, List.forall_mem_singleton.mpr mem⟩
        · rw [climb_append, climbed]
          rfl
  · rintro ⟨leaf_mem, path, path_mem, rfl⟩
    exact commits_climb (Commits.leaf leaf_mem) path path_mem

/-! ## Paths that meet -/

theorem nodeQuery_injective {left right left' right' : SumNode δ σ}
    (eq : scheme.nodeQuery left right = scheme.nodeQuery left' right') :
    left = left' ∧ right = right' := by
  simp only [nodeQuery, Prod.mk.injEq] at eq
  obtain ⟨left_hash, left_sum, right_hash, right_sum⟩ := eq
  exact ⟨SumNode.ext left_hash (scheme.embed_injective left_sum),
    SumNode.ext right_hash (scheme.embed_injective right_sum)⟩

theorem hash_apply (node : SumNode δ σ) (step : PathStep (SumNode δ σ)) :
    (step.apply scheme.combine node).hash = scheme.hash4 (scheme.stepQuery node step) := by
  unfold PathStep.apply stepQuery
  split <;> rfl

/-- Steps on the same side hash the same tuple only from the same node with the
same sibling. -/
theorem stepQuery_injective {node node' : SumNode δ σ} {step step' : PathStep (SumNode δ σ)}
    (side : step.siblingIsLeft = step'.siblingIsLeft)
    (eq : scheme.stepQuery node step = scheme.stepQuery node' step') :
    node = node' ∧ step = step' := by
  obtain ⟨sibling, left⟩ := step
  obtain ⟨sibling', left'⟩ := step'
  obtain rfl : left = left' := side
  cases left with
  | true =>
      obtain ⟨rfl, rfl⟩ := nodeQuery_injective eq
      exact ⟨rfl, rfl⟩
  | false =>
      obtain ⟨rfl, rfl⟩ := nodeQuery_injective eq
      exact ⟨rfl, rfl⟩

/-- Steps on different sides hash the same tuple only when each node is the
other's sibling. -/
theorem stepQuery_crossed {node node' : SumNode δ σ} {step step' : PathStep (SumNode δ σ)}
    (side : step.siblingIsLeft ≠ step'.siblingIsLeft)
    (eq : scheme.stepQuery node step = scheme.stepQuery node' step') :
    node = step'.sibling ∧ node' = step.sibling := by
  obtain ⟨sibling, left⟩ := step
  obtain ⟨sibling', left'⟩ := step'
  cases left with
  | true =>
      obtain rfl : left' = false := by simpa using side.symm
      obtain ⟨rfl, rfl⟩ := nodeQuery_injective eq
      exact ⟨rfl, rfl⟩
  | false =>
      obtain rfl : left' = true := by simpa using side.symm
      obtain ⟨rfl, rfl⟩ := nodeQuery_injective eq
      exact ⟨rfl, rfl⟩

/-- Where the hash has no collision, two climbs with the same sides that reach the
same node started at the same node and passed the same siblings. -/
theorem climb_injective (injective : Set.InjOn scheme.hash4 table)
    {path path' : List (PathStep (SumNode δ σ))} {node node' : SumNode δ σ}
    (queried : ∀ query ∈ scheme.pathQueries node path, query ∈ table)
    (queried' : ∀ query ∈ scheme.pathQueries node' path', query ∈ table)
    (sides : path.map PathStep.siblingIsLeft = path'.map PathStep.siblingIsLeft)
    (met : climb scheme.combine node path = climb scheme.combine node' path') :
    node = node' ∧ path = path' := by
  induction path generalizing node node' path' with
  | nil =>
      obtain rfl : path' = [] := by simpa using sides.symm
      exact ⟨met, rfl⟩
  | cons step path ih =>
      cases path' with
      | nil => simp at sides
      | cons step' path' =>
          simp only [List.map_cons, List.cons.injEq] at sides
          simp only [pathQueries, List.mem_cons, forall_eq_or_imp] at queried queried'
          obtain ⟨nodes_eq, rfl⟩ := ih queried.2 queried'.2 sides.2 met
          have query_eq := injective queried.1 queried'.1
            (by rw [← hash_apply, ← hash_apply, nodes_eq])
          obtain ⟨rfl, rfl⟩ := stepQuery_injective sides.1 query_eq
          exact ⟨rfl, rfl⟩

/-- Two climbs that reach the same node and, read from the top, first differ in a
side: there each carries the node the other declares as its sibling. -/
theorem climb_crossed (injective : Set.InjOn scheme.hash4 table)
    {low low' high high' : List (PathStep (SumNode δ σ))} {step step' : PathStep (SumNode δ σ)}
    {node node' : SumNode δ σ}
    (queried : ∀ query ∈ scheme.pathQueries node (low ++ step :: high), query ∈ table)
    (queried' : ∀ query ∈ scheme.pathQueries node' (low' ++ step' :: high'), query ∈ table)
    (agree : high.map PathStep.siblingIsLeft = high'.map PathStep.siblingIsLeft)
    (differ : step.siblingIsLeft ≠ step'.siblingIsLeft)
    (met : climb scheme.combine node (low ++ step :: high) =
      climb scheme.combine node' (low' ++ step' :: high')) :
    climb scheme.combine node low = step'.sibling ∧
      climb scheme.combine node' low' = step.sibling := by
  simp only [pathQueries_append, pathQueries, List.mem_append, List.mem_cons] at queried queried'
  simp only [climb_append, climb_cons] at met
  obtain ⟨nodes_eq, _⟩ := climb_injective injective
    (fun query mem => queried query (Or.inr (Or.inr mem)))
    (fun query mem => queried' query (Or.inr (Or.inr mem))) agree met
  have query_eq := injective (queried _ (Or.inr (Or.inl rfl)))
    (queried' _ (Or.inr (Or.inl rfl))) (by rw [← hash_apply, ← hash_apply, nodes_eq])
  exact stepQuery_crossed differ query_eq

/-! ## Openings of a built root -/

/-- A leaf tuple is also the tuple of an inner node: its left child carries the
entry as hash and sum, its right child is the zero node. -/
theorem leafQuery_eq_nodeQuery (entry : δ × σ) :
    scheme.leafQuery entry = scheme.nodeQuery ⟨entry.1, entry.2⟩ ⟨0, 0⟩ := by
  simp [leafQuery, nodeQuery, scheme.embed_zero]

theorem leaf_eq_combine (entry : δ × σ) :
    scheme.leaf entry = scheme.combine ⟨entry.1, entry.2⟩ ⟨0, 0⟩ := by
  simp [leaf, combine, leafQuery_eq_nodeQuery, scheme.add_zero]

/-- Where the hash has no collision, a node whose tuple is known opens through
that tuple only: as a leaf, or through one of its two children. -/
theorem commits_combine_iff (injective : Set.InjOn scheme.hash4 table)
    {left right : SumNode δ σ} (mem : scheme.nodeQuery left right ∈ table)
    {entry : δ × σ} :
    scheme.Commits table (scheme.combine left right) entry ↔
      (right = ⟨0, 0⟩ ∧ entry = (left.hash, left.sum)) ∨
        scheme.Commits table left entry ∨ scheme.Commits table right entry := by
  constructor
  · generalize target_eq : scheme.combine left right = target
    intro commits
    cases commits with
    | leaf leaf_mem =>
        have query_eq := injective mem leaf_mem (congrArg SumNode.hash target_eq)
        rw [leafQuery_eq_nodeQuery] at query_eq
        obtain ⟨rfl, rfl⟩ := nodeQuery_injective query_eq
        exact Or.inl ⟨rfl, rfl⟩
    | left node_mem below =>
        have query_eq := injective mem node_mem (congrArg SumNode.hash target_eq)
        obtain ⟨rfl, rfl⟩ := nodeQuery_injective query_eq
        exact Or.inr (Or.inl below)
    | right node_mem below =>
        have query_eq := injective mem node_mem (congrArg SumNode.hash target_eq)
        obtain ⟨rfl, rfl⟩ := nodeQuery_injective query_eq
        exact Or.inr (Or.inr below)
  · rintro (⟨rfl, rfl⟩ | below | below)
    · rw [← leaf_eq_combine (left.hash, left.sum)]
      exact Commits.leaf (by rwa [leafQuery_eq_nodeQuery])
    · exact Commits.left mem below
    · exact Commits.right mem below

/-- A leaf opens to itself, and beyond that only if its own entry or the zero
node is the hash and sum of a node. -/
theorem commits_leaf_iff (injective : Set.InjOn scheme.hash4 table)
    {listed entry : δ × σ} (mem : scheme.leafQuery listed ∈ table) :
    scheme.Commits table (scheme.leaf listed) entry ↔
      entry = listed ∨ scheme.Commits table ⟨listed.1, listed.2⟩ entry ∨
        scheme.Commits table ⟨0, 0⟩ entry := by
  rw [leaf_eq_combine, commits_combine_iff injective (by rwa [← leafQuery_eq_nodeQuery])]
  simp

private theorem commits_parents_iff (injective : Set.InjOn scheme.hash4 table)
    {layer : List (SumNode δ σ)} {entry : δ × σ}
    (hashed : ∀ pair ∈ pairs layer, scheme.nodeQuery pair.1 pair.2 ∈ table) :
    (∃ node ∈ parents scheme.combine layer, scheme.Commits table node entry) ↔
      (∃ node ∈ layer, scheme.Commits table node entry) ∨
      ∃ pair ∈ pairs layer, pair.2 = ⟨0, 0⟩ ∧ entry = (pair.1.hash, pair.1.sum) := by
  have below : (∃ node ∈ layer, scheme.Commits table node entry) ↔
      ∃ pair ∈ pairs layer,
        scheme.Commits table pair.1 entry ∨ scheme.Commits table pair.2 entry := by
    constructor
    · rintro ⟨node, mem, opens⟩
      obtain ⟨pair, pair_mem, rfl | rfl⟩ := exists_mem_pairs_iff.mpr mem
      · exact ⟨pair, pair_mem, Or.inl opens⟩
      · exact ⟨pair, pair_mem, Or.inr opens⟩
    · rintro ⟨pair, pair_mem, opens | opens⟩
      · exact ⟨pair.1, exists_mem_pairs_iff.mp ⟨pair, pair_mem, Or.inl rfl⟩, opens⟩
      · exact ⟨pair.2, exists_mem_pairs_iff.mp ⟨pair, pair_mem, Or.inr rfl⟩, opens⟩
  rw [parents_eq_map_pairs, below]
  constructor
  · rintro ⟨_, mem, opens⟩
    obtain ⟨pair, pair_mem, rfl⟩ := List.mem_map.mp mem
    rcases (commits_combine_iff injective (hashed pair pair_mem)).mp opens with zero | opens
    · exact Or.inr ⟨pair, pair_mem, zero⟩
    · exact Or.inl ⟨pair, pair_mem, opens⟩
  · rintro (⟨pair, pair_mem, opens⟩ | ⟨pair, pair_mem, zero⟩)
    · exact ⟨_, List.mem_map_of_mem pair_mem,
        (commits_combine_iff injective (hashed pair pair_mem)).mpr (Or.inr opens)⟩
    · exact ⟨_, List.mem_map_of_mem pair_mem,
        (commits_combine_iff injective (hashed pair pair_mem)).mpr (Or.inl zero)⟩

/-- The top of a layer opens to what the layer's nodes open to, and to the left
nodes combined with a zero right node. -/
theorem commits_top_iff (injective : Set.InjOn scheme.hash4 table) {fuel : Nat}
    {layer : List (SumNode δ σ)} {top : SumNode δ σ} {entry : δ × σ}
    (enough : layer.length ≤ fuel + 1) (climbs : Climbs scheme.combine layer top)
    (hashed : ∀ pair ∈ foldPairs scheme.combine fuel layer,
      scheme.nodeQuery pair.1 pair.2 ∈ table) :
    scheme.Commits table top entry ↔
      (∃ node ∈ layer, scheme.Commits table node entry) ∨
      ∃ pair ∈ foldPairs scheme.combine fuel layer,
        pair.2 = ⟨0, 0⟩ ∧ entry = (pair.1.hash, pair.1.sum) := by
  induction climbs generalizing fuel with
  | top node => simp [foldPairs_single fuel (show [node].length ≤ 1 from Nat.le_refl 1)]
  | @up layer top two_le _ ih =>
      cases fuel with
      | zero => omega
      | succ fuel =>
          rw [foldPairs_succ fuel two_le] at hashed ⊢
          have length_above := length_parents scheme.combine layer
          rw [ih (by omega) fun pair mem => hashed pair (List.mem_append_right _ mem),
            commits_parents_iff injective fun pair mem =>
              hashed pair (List.mem_append_left _ mem)]
          simp only [List.mem_append, or_and_right, exists_or, or_assoc]

/-- The openings of a root built over listed entries: the entries themselves,
whatever a listed entry or the zero node opens to when read as a node, and the
left nodes combined with a zero right node. -/
theorem commits_built_iff (injective : Set.InjOn scheme.hash4 table) {fuel : Nat}
    {listed : List (δ × σ)} {top : SumNode δ σ} {entry : δ × σ}
    (enough : listed.length ≤ fuel + 1)
    (climbs : Climbs scheme.combine (listed.map scheme.leaf) top)
    (leaves_hashed : ∀ leaf ∈ listed, scheme.leafQuery leaf ∈ table)
    (pairs_hashed : ∀ pair ∈ foldPairs scheme.combine fuel (listed.map scheme.leaf),
      scheme.nodeQuery pair.1 pair.2 ∈ table) :
    scheme.Commits table top entry ↔
      entry ∈ listed ∨
      (∃ leaf ∈ listed, scheme.Commits table ⟨leaf.1, leaf.2⟩ entry) ∨
      scheme.Commits table ⟨0, 0⟩ entry ∨
      ∃ pair ∈ foldPairs scheme.combine fuel (listed.map scheme.leaf),
        pair.2 = ⟨0, 0⟩ ∧ entry = (pair.1.hash, pair.1.sum) := by
  have nonempty : listed ≠ [] := by
    rintro rfl
    exact climbs.ne_nil rfl
  have opened : (∃ node ∈ listed.map scheme.leaf, scheme.Commits table node entry) ↔
      entry ∈ listed ∨ (∃ leaf ∈ listed, scheme.Commits table ⟨leaf.1, leaf.2⟩ entry) ∨
        scheme.Commits table ⟨0, 0⟩ entry := by
    constructor
    · rintro ⟨_, mem, opens⟩
      obtain ⟨leaf, leaf_mem, rfl⟩ := List.mem_map.mp mem
      rcases (commits_leaf_iff injective (leaves_hashed leaf leaf_mem)).mp opens with
        rfl | opens | opens
      · exact Or.inl leaf_mem
      · exact Or.inr (Or.inl ⟨leaf, leaf_mem, opens⟩)
      · exact Or.inr (Or.inr opens)
    · rintro (mem | ⟨leaf, leaf_mem, opens⟩ | opens)
      · exact ⟨_, List.mem_map_of_mem mem, Commits.leaf (leaves_hashed entry mem)⟩
      · exact ⟨_, List.mem_map_of_mem leaf_mem,
          (commits_leaf_iff injective (leaves_hashed leaf leaf_mem)).mpr (Or.inr (Or.inl opens))⟩
      · obtain ⟨leaf, leaf_mem⟩ := List.exists_mem_of_ne_nil listed nonempty
        exact ⟨_, List.mem_map_of_mem leaf_mem,
          (commits_leaf_iff injective (leaves_hashed leaf leaf_mem)).mpr (Or.inr (Or.inr opens))⟩
  rw [commits_top_iff injective (by simpa using enough) climbs pairs_hashed, opened]
  simp only [or_assoc]

/-- Whatever a node opens to, the node's hash was computed on the table. -/
theorem Commits.exists_query {node : SumNode δ σ} {entry : δ × σ}
    (commits : scheme.Commits table node entry) :
    ∃ query ∈ table, node.hash = scheme.hash4 query := by
  cases commits with
  | leaf mem => exact ⟨_, mem, rfl⟩
  | left mem _ => exact ⟨_, mem, rfl⟩
  | right mem _ => exact ⟨_, mem, rfl⟩

end Scheme

end Solva.SumTree
