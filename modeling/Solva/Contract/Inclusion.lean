import Mathlib.Data.Set.Finite.Basic
import Solva.Circuit.TreeParity
import Solva.Contract.Core
import Solva.Prover.Proving

/-!
# What `verify_inclusion` proves

The contract climbs a path of the caller's choosing. Where its hash inputs are
canonical the climb is that of the sum-tree library over field nodes, so the
openings of a committed root are known exactly. Leaves and inner nodes are hashed
alike: a listed pair of id hash and balance that is itself the hash and sum of a
node opens further, to pairs that were never listed.
-/

namespace Solva.Contract

open Bn254 SumTree Codec Prover Circuit

/-- A path step over field nodes. -/
def PathNode.toField (step : PathNode) : SumTree.PathStep (SumNode Fr U128) :=
  ⟨⟨fromBeBytesModOrder step.hash, step.sum⟩, step.siblingIsLeft⟩

/-- A leaf entry over the field. -/
def toEntry (leaf : Bytes32 × U128) : Fr × U128 :=
  (fromBeBytesModOrder leaf.1, leaf.2)

section Climb

variable {hash4 : Hash4}

/-- One canonical step of the contract's fold is one step of the library's. -/
theorem climbStep_toField (hash4 : Hash4) (node : SumNode Fr U128) (step : PathNode) :
    climbStep hash4 (frToBytes node.hash, node.sum) step =
      if Canonical step.hash then
        let next := step.toField.apply (scheme hash4).combine node
        some (frToBytes next.hash, next.sum)
      else none := by
  have node_canonical := canonical_frToBytes node.hash
  by_cases canonical : Canonical step.hash
  · cases side : step.siblingIsLeft with
    | true =>
        simp [climbStep, side, poseidon2Node, canonical, node_canonical, PathNode.toField,
          SumTree.PathStep.apply, Scheme.combine, Scheme.nodeQuery, scheme,
          saturatingAdd_comm node.sum]
    | false =>
        simp [climbStep, side, poseidon2Node, canonical, node_canonical, PathNode.toField,
          SumTree.PathStep.apply, Scheme.combine, Scheme.nodeQuery, scheme]
  · cases side : step.siblingIsLeft with
    | true => simp [climbStep, side, poseidon2Node, canonical]
    | false => simp [climbStep, side, poseidon2Node, canonical]

/-- The contract's fold is the library's climb, and traps on a sibling hash at or
above the modulus. -/
theorem foldlM_climbStep (hash4 : Hash4) (node : SumNode Fr U128) (path : List PathNode) :
    path.foldlM (climbStep hash4) (frToBytes node.hash, node.sum) =
      if ∀ step ∈ path, Canonical step.hash then
        let top := climb (scheme hash4).combine node (path.map PathNode.toField)
        some (frToBytes top.hash, top.sum)
      else none := by
  induction path generalizing node with
  | nil => simp
  | cons step path ih =>
      rw [List.foldlM_cons, climbStep_toField]
      by_cases canonical : Canonical step.hash
      · rw [if_pos canonical, Option.bind_eq_bind, Option.bind_some, ih]
        simp only [List.mem_cons, forall_eq_or_imp, canonical, true_and, List.map_cons, climb_cons]
      · rw [if_neg canonical, if_neg fun all => canonical (all step List.mem_cons_self)]
        rfl

/-- `verify_inclusion` answers true exactly on canonical inputs whose climb ends
at the entry's root hash and liability total. -/
theorem verifyInclusion_eq_true_iff {Address : Type} {s : Storage Address} {id : U64}
    {entry : ProofMeta} (stored : s.proofs id = some entry) {idHash : Bytes32} {balance : U128}
    {path : List PathNode} :
    verifyInclusion hash4 id idHash balance path s = .ok true ↔
      Canonical idHash ∧ (∀ step ∈ path, Canonical step.hash) ∧
        Node.ofField (climb (scheme hash4).combine
            ((scheme hash4).leaf (toEntry (idHash, balance))) (path.map PathNode.toField)) =
          ⟨entry.rootH, entry.l⟩ := by
  have leaf_eq : poseidon2Leaf hash4 idHash balance =
      if Canonical idHash then
        some (frToBytes ((scheme hash4).leaf (toEntry (idHash, balance))).hash)
      else none := by
    simp [poseidon2Leaf, toEntry, Scheme.leaf, Scheme.leafQuery, scheme]
  have sum_eq : ((scheme hash4).leaf (toEntry (idHash, balance))).sum = balance := rfl
  have folded := foldlM_climbStep hash4
    ((scheme hash4).leaf (toEntry (idHash, balance))) path
  rw [sum_eq] at folded
  unfold verifyInclusion getProof
  rw [stored, leaf_eq]
  by_cases canonical : Canonical idHash
  · simp only [if_pos canonical, Option.bind_some, folded]
    by_cases siblings : ∀ step ∈ path, Canonical step.hash
    · simp only [if_pos siblings, Outcome.ok.injEq, decide_eq_true_eq, Node.ofField,
        Node.mk.injEq]
      exact ⟨fun reached => ⟨canonical, siblings, reached⟩, fun all => all.2.2⟩
    · simp [siblings]
  · simp [canonical]

/-- A step of the prover's path, as the contract receives it. -/
def PathNode.ofStep (step : Prover.PathStep) : PathNode :=
  ⟨step.sibling.hash, step.sibling.sum, step.siblingIsLeft⟩

/-- The contract accepts every path the prover generates, against an entry that
holds the root. -/
theorem verifyInclusion_inclusionPath {Address : Type} {s : Storage Address} {id : U64}
    {entry : ProofMeta} (stored : s.proofs id = some entry) {leaves : List (Bytes32 × U128)}
    {tree : MerkleSumTree hash4}
    (built : MerkleSumTree.build hash4
      (leaves.map fun leaf => Node.leaf hash4 leaf.1 leaf.2) = some tree)
    (root_eq : tree.root = ⟨entry.rootH, entry.l⟩) {index : Nat} {leaf : Bytes32 × U128}
    (found : leaves[index]? = some leaf) (canonical : Canonical leaf.1)
    {path : List Prover.PathStep} (path_eq : tree.inclusionPath index = some path) :
    verifyInclusion hash4 id leaf.1 leaf.2 (path.map PathNode.ofStep) s = .ok true := by
  have leaves_canonical : ∀ node ∈ leaves.map fun leaf => Node.leaf hash4 leaf.1 leaf.2,
      Canonical node.hash := by
    intro node mem
    obtain ⟨listed, _, rfl⟩ := List.mem_map.mp mem
    exact canonical_leaf hash4 listed.1 listed.2
  have found_node : (leaves.map fun leaf => Node.leaf hash4 leaf.1 leaf.2)[index]? =
      some (Node.leaf hash4 leaf.1 leaf.2) := by
    rw [List.getElem?_map, found]
    rfl
  obtain ⟨other, other_eq, climbed⟩ := exists_inclusionPath built found_node
  rw [path_eq, Option.some_inj] at other_eq
  subst other_eq
  rw [verifyInclusion_eq_true_iff stored]
  refine ⟨canonical, ?_, ?_⟩
  · intro step mem
    obtain ⟨proved, proved_mem, rfl⟩ := List.mem_map.mp mem
    exact forall_mem_inclusionPath built path_eq
      (canonical_hashPair hash4) leaves_canonical proved proved_mem
  · have reached := climb_map (toField_hashPair hash4) (Node.leaf hash4 leaf.1 leaf.2) path
    rw [climbed, Node.toField_leaf] at reached
    rw [List.map_map]
    change Node.ofField (climb (scheme hash4).combine _
      (path.map fun step => ⟨step.sibling.toField, step.siblingIsLeft⟩)) = _
    rw [toEntry, reached, Node.ofField_toField (canonical_root built leaves_canonical), root_eq]

end Climb

/-! ## Committed lists -/

section Committed

variable {hash4 : Hash4} {table : Set (Query Fr)}

/-- A list of customers as it is committed: `u64` balances, padded with `(0, 0)`. -/
def committedLeaves (customers : List (Bytes32 × U64)) (padding : Nat) :
    List (Bytes32 × U128) :=
  customers.map (fun customer => (customer.1, balanceU128 customer.2)) ++
    List.replicate padding (zeroWord, 0)

def leafNodes (hash4 : Hash4) (leaves : List (Bytes32 × U128)) : List Node :=
  leaves.map fun leaf => Node.leaf hash4 leaf.1 leaf.2

/-- The pairs of nodes combined while building a tree. -/
def combined (tree : MerkleSumTree hash4) : List (SumNode Fr U128 × SumNode Fr U128) :=
  (tree.levels.dropLast.flatMap pairs).map fun pair => (pair.1.toField, pair.2.toField)

/-- The tuples hashed while building a tree over leaves. -/
def buildQueries (tree : MerkleSumTree hash4) (leaves : List (Bytes32 × U128)) :
    List (Query Fr) :=
  leaves.map (fun leaf => (scheme hash4).leafQuery (toEntry leaf)) ++
    (combined tree).map fun pair => (scheme hash4).nodeQuery pair.1 pair.2

/-- The tuples hashed by a call of `verify_inclusion`. -/
def verifyQueries (hash4 : Hash4) (idHash : Bytes32) (balance : U128) (path : List PathNode) :
    List (Query Fr) :=
  let entry := toEntry (idHash, balance)
  (scheme hash4).leafQuery entry ::
    (scheme hash4).pathQueries ((scheme hash4).leaf entry) (path.map PathNode.toField)

theorem map_toField_leafNodes (leaves : List (Bytes32 × U128)) :
    (leafNodes hash4 leaves).map Node.toField =
      (leaves.map toEntry).map (scheme hash4).leaf := by
  simp [leafNodes, toEntry, Function.comp_def]

theorem combined_eq_foldPairs {leaves : List (Bytes32 × U128)} {tree : MerkleSumTree hash4}
    (built : MerkleSumTree.build hash4 (leafNodes hash4 leaves) = some tree) :
    combined tree = foldPairs (scheme hash4).combine leaves.length
      ((leaves.map toEntry).map (scheme hash4).leaf) := by
  have length_eq : (leafNodes hash4 leaves).length = leaves.length := by simp [leafNodes]
  rw [combined, levels_of_build built, foldPairs, ← map_toField_leafNodes, length_eq,
    levels_map (toField_hashPair hash4), ← List.map_dropLast, List.flatMap_map,
    List.map_flatMap]
  simp only [pairs_map]

theorem canonical_committedLeaves {customers : List (Bytes32 × U64)} (padding : Nat)
    (canonical : ∀ customer ∈ customers, Canonical customer.1) :
    ∀ leaf ∈ committedLeaves customers padding, Canonical leaf.1 := by
  intro leaf mem
  rcases List.mem_append.mp mem with mem | mem
  · obtain ⟨customer, customer_mem, rfl⟩ := List.mem_map.mp mem
    exact canonical customer customer_mem
  · rw [List.eq_of_mem_replicate mem]
    decide

/-- Being listed can be read over the field when ids are canonical. -/
theorem toEntry_mem_iff {leaves : List (Bytes32 × U128)}
    (canonical : ∀ leaf ∈ leaves, Canonical leaf.1) {leaf : Bytes32 × U128}
    (leaf_canonical : Canonical leaf.1) : toEntry leaf ∈ leaves.map toEntry ↔ leaf ∈ leaves := by
  constructor
  · intro mem
    obtain ⟨listed, listed_mem, entry_eq⟩ := List.mem_map.mp mem
    obtain ⟨id_eq, balance_eq⟩ := Prod.mk.inj entry_eq
    have same := (fromBeBytesModOrder_inj (canonical listed listed_mem) leaf_canonical).mp id_eq
    rwa [← Prod.ext same balance_eq]
  · exact List.mem_map_of_mem

/-- No listed pair reads as a node with something unlisted beneath it: neither a
listed id hash and balance nor the zero node is the hash and sum of a node over an
unlisted entry, and no node combined with a zero right node is unlisted. -/
structure Unambiguous (table : Set (Query Fr)) (tree : MerkleSumTree hash4)
    (leaves : List (Bytes32 × U128)) : Prop where
  leaf_not_node : ∀ leaf ∈ leaves, ∀ entry,
    (scheme hash4).Commits table ⟨(toEntry leaf).1, (toEntry leaf).2⟩ entry →
      entry ∈ leaves.map toEntry
  zero_not_node : ∀ entry, (scheme hash4).Commits table ⟨0, 0⟩ entry →
    entry ∈ leaves.map toEntry
  no_zero_right : ∀ pair ∈ combined tree, pair.2 = ⟨0, 0⟩ →
    (pair.1.hash, pair.1.sum) ∈ leaves.map toEntry

/-- A committed root opens to listed entries only exactly when the list is
unambiguous. -/
theorem commits_subset_iff (injective : Set.InjOn (scheme hash4).hash4 table)
    {leaves : List (Bytes32 × U128)} {tree : MerkleSumTree hash4}
    (built : MerkleSumTree.build hash4 (leafNodes hash4 leaves) = some tree)
    (hashed : ∀ query ∈ buildQueries tree leaves, query ∈ table) :
    (∀ entry, (scheme hash4).Commits table tree.root.toField entry →
      entry ∈ leaves.map toEntry) ↔ Unambiguous table tree leaves := by
  have climbs := climbs_toField (climbs_root_of_build built)
  rw [map_toField_leafNodes] at climbs
  have leaves_hashed : ∀ entry ∈ leaves.map toEntry,
      (scheme hash4).leafQuery entry ∈ table := by
    intro entry mem
    obtain ⟨leaf, leaf_mem, rfl⟩ := List.mem_map.mp mem
    exact hashed _ (List.mem_append_left _ (List.mem_map_of_mem leaf_mem))
  have pairs_hashed : ∀ pair ∈ combined tree,
      (scheme hash4).nodeQuery pair.1 pair.2 ∈ table := fun pair mem =>
    hashed _ (List.mem_append_right _ (List.mem_map_of_mem mem))
  have length_le : (leaves.map toEntry).length ≤ leaves.length + 1 := by simp
  have opened (entry : Fr × U128) :
      (scheme hash4).Commits table tree.root.toField entry ↔
        entry ∈ leaves.map toEntry ∨
        (∃ leaf ∈ leaves.map toEntry, (scheme hash4).Commits table ⟨leaf.1, leaf.2⟩ entry) ∨
        (scheme hash4).Commits table ⟨0, 0⟩ entry ∨
        ∃ pair ∈ combined tree, pair.2 = ⟨0, 0⟩ ∧ entry = (pair.1.hash, pair.1.sum) := by
    rw [combined_eq_foldPairs built] at pairs_hashed ⊢
    exact Scheme.commits_built_iff injective length_le climbs leaves_hashed pairs_hashed
  constructor
  · intro subset
    constructor
    · intro leaf mem entry opens
      exact subset entry ((opened entry).mpr
        (Or.inr (Or.inl ⟨toEntry leaf, List.mem_map_of_mem mem, opens⟩)))
    · intro entry opens
      exact subset entry ((opened entry).mpr (Or.inr (Or.inr (Or.inl opens))))
    · intro pair mem zero
      exact subset _ ((opened _).mpr (Or.inr (Or.inr (Or.inr ⟨pair, mem, zero, rfl⟩))))
  · intro unambiguous entry commits
    rcases (opened entry).mp commits with mem | ⟨_, mem, opens⟩ | opens | ⟨pair, mem, zero, rfl⟩
    · exact mem
    · obtain ⟨leaf, leaf_mem, rfl⟩ := List.mem_map.mp mem
      exact unambiguous.leaf_not_node leaf leaf_mem entry opens
    · exact unambiguous.zero_not_node entry opens
    · exact unambiguous.no_zero_right pair mem zero

/-- Every opening of a committed root over the field is a call that answers
true, and the other way round. -/
theorem verifyInclusion_root_iff {Address : Type} {s : Storage Address} {k : U64}
    {entry : ProofMeta} {tree : MerkleSumTree hash4} (root_canonical : Canonical tree.root.hash)
    (stored : s.proofs k = some entry) (rootH_eq : entry.rootH = tree.root.hash)
    (l_eq : entry.l = tree.root.sum) {idHash : Bytes32} {balance : U128} :
    (∃ path, (∀ query ∈ verifyQueries hash4 idHash balance path, query ∈ table) ∧
      verifyInclusion hash4 k idHash balance path s = .ok true) ↔
      Canonical idHash ∧
        (scheme hash4).Commits table tree.root.toField (toEntry (idHash, balance)) := by
  have root_eq : (⟨entry.rootH, entry.l⟩ : Node) = Node.ofField tree.root.toField := by
    rw [Node.ofField_toField root_canonical, rootH_eq, l_eq]
  have ofField_inj {left right : SumNode Fr U128} (eq : Node.ofField left = Node.ofField right) :
      left = right := by
    rw [← Node.toField_ofField left, eq, Node.toField_ofField]
  rw [Scheme.commits_iff_exists_path]
  constructor
  · rintro ⟨path, queried, included⟩
    obtain ⟨canonical, _, reached⟩ := (verifyInclusion_eq_true_iff stored).mp included
    rw [root_eq] at reached
    unfold verifyQueries at queried
    simp only [List.mem_cons, forall_eq_or_imp] at queried
    exact ⟨canonical, queried.1, _, queried.2, ofField_inj reached⟩
  · rintro ⟨canonical, leaf_mem, path, path_mem, reached⟩
    let contractPath : List PathNode := path.map fun step =>
      ⟨frToBytes step.sibling.hash, step.sibling.sum, step.siblingIsLeft⟩
    have path_eq : contractPath.map PathNode.toField = path := by
      simp [contractPath, PathNode.toField, Function.comp_def]
    refine ⟨contractPath, ?_, (verifyInclusion_eq_true_iff stored).mpr ⟨canonical, ?_, ?_⟩⟩
    · unfold verifyQueries
      rw [path_eq]
      exact List.forall_mem_cons.mpr ⟨leaf_mem, path_mem⟩
    · intro step mem
      obtain ⟨_, _, rfl⟩ := List.mem_map.mp mem
      exact canonical_frToBytes _
    · rw [path_eq, reached, root_eq]

/-- `verify_inclusion` answers true for listed customers only exactly when the
committed list is unambiguous. -/
theorem verifyInclusion_listed_iff {Address : Type}
    (injective : Set.InjOn (scheme hash4).hash4 table)
    {customers : List (Bytes32 × U64)} {padding : Nat}
    (canonical : ∀ customer ∈ customers, Canonical customer.1)
    {tree : MerkleSumTree hash4}
    (built : MerkleSumTree.build hash4 (leafNodes hash4 (committedLeaves customers padding)) =
      some tree)
    (hashed : ∀ query ∈ buildQueries tree (committedLeaves customers padding), query ∈ table)
    {s : Storage Address} {k : U64} {entry : ProofMeta} (stored : s.proofs k = some entry)
    (rootH_eq : entry.rootH = tree.root.hash) (l_eq : entry.l = tree.root.sum) :
    (∀ idHash balance path, (∀ query ∈ verifyQueries hash4 idHash balance path, query ∈ table) →
      verifyInclusion hash4 k idHash balance path s = .ok true →
      (idHash, balance) ∈ committedLeaves customers padding) ↔
      Unambiguous table tree (committedLeaves customers padding) := by
  have leaves_canonical := canonical_committedLeaves padding canonical
  have root_canonical : Canonical tree.root.hash := canonical_root built fun leaf mem => by
    obtain ⟨listed, _, rfl⟩ := List.mem_map.mp mem
    exact canonical_leaf hash4 listed.1 listed.2
  have root_iff {idHash : Bytes32} {balance : U128} :
      (∃ path, (∀ query ∈ verifyQueries hash4 idHash balance path, query ∈ table) ∧
        verifyInclusion hash4 k idHash balance path s = .ok true) ↔
        Canonical idHash ∧
          (scheme hash4).Commits table tree.root.toField (toEntry (idHash, balance)) :=
    verifyInclusion_root_iff root_canonical stored rootH_eq l_eq
  rw [← commits_subset_iff injective built hashed]
  constructor
  · intro listed entry commits
    have id_canonical := canonical_frToBytes entry.1
    have entry_eq : toEntry (frToBytes entry.1, entry.2) = entry := by simp [toEntry]
    obtain ⟨path, queried, included⟩ :=
      root_iff.mpr ⟨id_canonical, by rwa [entry_eq]⟩
    rw [← entry_eq]
    exact List.mem_map_of_mem (listed _ _ path queried included)
  · intro subset idHash balance path queried included
    obtain ⟨id_canonical, commits⟩ := root_iff.mp ⟨path, queried, included⟩
    exact (toEntry_mem_iff leaves_canonical id_canonical).mp (subset _ commits)

end Committed

/-! ## Two committed lists -/

/-- The storage of a registry whose entry `1` commits to a node. -/
def storageOf (root : Node) : Storage Unit :=
  { Storage.empty with
    proofs := fun id => if id = 1 then some ⟨root.hash, root.sum, root.sum, 0⟩ else none }

theorem injOn_of_nodup_map {hash4 : Hash4} {queries : List (Query Fr)}
    (nodup : (queries.map (scheme hash4).hash4).Nodup) :
    Set.InjOn (scheme hash4).hash4 {query | query ∈ queries} :=
  fun _ left_mem _ right_mem hash_eq => List.inj_on_of_nodup_map nodup left_mem right_mem hash_eq

/-- A hash that was never computed opens to nothing. -/
theorem not_commits_of_fresh {hash4 : Hash4} {queries : List (Query Fr)} {hash : Fr}
    (fresh : hash ∉ queries.map (scheme hash4).hash4) (sum : U128) (entry : Fr × U128) :
    ¬(scheme hash4).Commits {query | query ∈ queries} ⟨hash, sum⟩ entry := by
  intro opens
  obtain ⟨query, mem, hash_eq⟩ := opens.exists_query
  exact fresh (List.mem_map.mpr ⟨query, mem, hash_eq.symm⟩)

/-- Two customers with small ids. -/
def plainCustomers : List (Bytes32 × U64) :=
  [(BytesN.ofNat 32 1, 10), (BytesN.ofNat 32 2, 20)]

/-- The tuples hashed to commit to them. -/
def plainQueries : List (Query Fr) :=
  let plain := scheme Poseidon2.poseidon2Perm4
  [plain.leafQuery (1, 10), plain.leafQuery (2, 20),
    plain.nodeQuery (plain.leaf (1, 10)) (plain.leaf (2, 20))]

theorem verifyInclusion_listed_plain :
    ∃ tree : MerkleSumTree Poseidon2.poseidon2Perm4,
      MerkleSumTree.build Poseidon2.poseidon2Perm4
        (leafNodes Poseidon2.poseidon2Perm4 (committedLeaves plainCustomers 0)) = some tree ∧
      ∀ idHash balance path,
        (∀ query ∈ verifyQueries Poseidon2.poseidon2Perm4 idHash balance path,
          query ∈ plainQueries) →
        verifyInclusion Poseidon2.poseidon2Perm4 1 idHash balance path (storageOf tree.root) =
          .ok true →
        (idHash, balance) ∈ committedLeaves plainCustomers 0 := by
  obtain ⟨tree, built, _, _⟩ := exists_build Poseidon2.poseidon2Perm4
    (show leafNodes Poseidon2.poseidon2Perm4 (committedLeaves plainCustomers 0) ≠ [] by
      simp [leafNodes, committedLeaves, plainCustomers])
  have combined_eq := combined_eq_foldPairs built
  have hashed : buildQueries tree (committedLeaves plainCustomers 0) ⊆ plainQueries := by
    rw [buildQueries, combined_eq]
    decide +kernel
  have injective : Set.InjOn (scheme Poseidon2.poseidon2Perm4).hash4
      {query | query ∈ plainQueries} := injOn_of_nodup_map (by decide +kernel)
  refine ⟨tree, built, (verifyInclusion_listed_iff injective (by decide +kernel) built
    (fun _ mem => hashed mem) (s := storageOf tree.root) (k := 1) rfl rfl rfl).mpr ?_⟩
  constructor
  · intro leaf mem entry opens
    have small : ∀ leaf ∈ committedLeaves plainCustomers 0, (toEntry leaf).1 ∉
        plainQueries.map (scheme Poseidon2.poseidon2Perm4).hash4 := by decide +kernel
    exact absurd opens (not_commits_of_fresh (small leaf mem) _ _)
  · intro entry opens
    have nonzero : 0 ∉ plainQueries.map (scheme Poseidon2.poseidon2Perm4).hash4 := by
      decide +kernel
    exact absurd opens (not_commits_of_fresh nonzero _ _)
  · intro pair mem zero
    have positive : (0 : U128) ∉ (combined tree).map fun pair => pair.2.sum := by
      rw [combined_eq]
      decide +kernel
    exact (positive (List.mem_map.mpr ⟨pair, mem, by rw [zero]⟩)).elim

/-- One customer whose id hash is the hash of an unlisted leaf `(5, 7)`. -/
def confusedId : Bytes32 :=
  frToBytes (Poseidon2.poseidon2Perm4 5 7 0 0)

def confusedCustomers : List (Bytes32 × U64) :=
  [(confusedId, 7)]

/-- The tuples hashed to commit to it and to check the two leaves. -/
def confusedQueries : List (Query Fr) :=
  [(scheme Poseidon2.poseidon2Perm4).leafQuery (5, 7),
    (scheme Poseidon2.poseidon2Perm4).leafQuery (toEntry (confusedId, 7))]

/-- A single zero sibling on the right. -/
def zeroPath : List PathNode :=
  [⟨zeroWord, 0, false⟩]

/-- The registry counts the balance `7` for the listed id and for the unlisted id
`5` alike. -/
theorem verifyInclusion_unlisted :
    ∃ tree : MerkleSumTree Poseidon2.poseidon2Perm4,
      MerkleSumTree.build Poseidon2.poseidon2Perm4
        (leafNodes Poseidon2.poseidon2Perm4 (committedLeaves confusedCustomers 0)) = some tree ∧
      Set.InjOn (scheme Poseidon2.poseidon2Perm4).hash4 {query | query ∈ confusedQueries} ∧
      buildQueries tree (committedLeaves confusedCustomers 0) ⊆ confusedQueries ∧
      verifyQueries Poseidon2.poseidon2Perm4 (BytesN.ofNat 32 5) 7 zeroPath ⊆
        confusedQueries ∧
      (∀ customer ∈ confusedCustomers, Canonical customer.1) ∧
      verifyInclusion Poseidon2.poseidon2Perm4 1 confusedId 7 [] (storageOf tree.root) =
        .ok true ∧
      verifyInclusion Poseidon2.poseidon2Perm4 1 (BytesN.ofNat 32 5) 7 zeroPath
        (storageOf tree.root) = .ok true ∧
      (BytesN.ofNat 32 5, 7) ∉ committedLeaves confusedCustomers 0 := by
  obtain ⟨tree, built, climbs, _⟩ := exists_build Poseidon2.poseidon2Perm4
    (show leafNodes Poseidon2.poseidon2Perm4 (committedLeaves confusedCustomers 0) ≠ [] by
      simp [leafNodes, committedLeaves, confusedCustomers])
  have root_eq : tree.root = Node.leaf Poseidon2.poseidon2Perm4 confusedId 7 :=
    climbs.unique (Climbs.top _)
  have combined_eq := combined_eq_foldPairs built
  refine ⟨tree, built, injOn_of_nodup_map (by decide +kernel), ?_, by decide +kernel,
    by decide +kernel, ?_, ?_, by decide +kernel⟩
  · rw [buildQueries, combined_eq]
    decide +kernel
  · rw [root_eq]
    decide +kernel
  · rw [root_eq]
    decide +kernel

end Solva.Contract
