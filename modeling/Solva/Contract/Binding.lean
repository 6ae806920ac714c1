import Solva.Contract.FoldParity

/-!
# What a stored root binds

Two accepted inclusion calls against one stored entry, without any tree behind
it. Read from the root downwards, the two folds hash the same tuples for as long
as their sides agree: equal sides leave no freedom at all, and where the sides
first differ each path runs through the sibling that the other declares.
-/

namespace Solva.Contract

open Bn254 SumTree Codec Prover Circuit

/-- `node_sum` after the steps of a path. -/
def carriedSum (balance : U128) (path : List PathNode) : U128 :=
  path.foldl (fun sum step => saturatingAdd sum step.sum) balance

section Carried

theorem climb_sum (hash4 : Hash4) (node : SumNode Fr U128) (path : List PathNode) :
    (climb (scheme hash4).combine node (path.map PathNode.toField)).sum =
      carriedSum node.sum path := by
  induction path generalizing node with
  | nil => rfl
  | cons step path ih =>
      rw [List.map_cons, climb_cons, ih, apply_toField_sum]
      rfl

theorem carriedSum_val (balance : U128) (path : List PathNode) :
    (carriedSum balance path).val = min (balance.val + pathTotal path) (2 ^ 128 - 1) := by
  induction path generalizing balance with
  | nil =>
      have balance_lt := balance.isLt
      simp only [carriedSum, List.foldl_nil, pathTotal_nil]
      omega
  | cons step path ih =>
      rw [carriedSum, List.foldl_cons, ← carriedSum, ih, saturatingAdd_val, pathTotal_cons]
      omega

theorem pathTotal_append (low high : List PathNode) :
    pathTotal (low ++ high) = pathTotal low + pathTotal high := by
  simp [pathTotal]

/-- A carried sum is never below the balance it started from. -/
theorem le_carriedSum (balance : U128) (path : List PathNode) :
    balance.val ≤ (carriedSum balance path).val := by
  have balance_lt := balance.isLt
  rw [carriedSum_val]
  omega

/-- A carried sum short of `u128::MAX` has not saturated. -/
theorem carriedSum_exact {balance : U128} {path : List PathNode}
    (below : (carriedSum balance path).val < 2 ^ 64) :
    balance.val + pathTotal path = (carriedSum balance path).val := by
  rw [carriedSum_val] at below ⊢
  omega

theorem map_siblingIsLeft_toField (path : List PathNode) :
    (path.map PathNode.toField).map SumTree.PathStep.siblingIsLeft =
      path.map PathNode.siblingIsLeft := by
  rw [List.map_map]
  rfl

/-- Canonical siblings are told apart over the field. -/
theorem map_toField_injective {path path' : List PathNode}
    (canonical : ∀ step ∈ path, Canonical step.hash)
    (canonical' : ∀ step ∈ path', Canonical step.hash)
    (eq : path.map PathNode.toField = path'.map PathNode.toField) : path = path' := by
  induction path generalizing path' with
  | nil => simpa [eq_comm] using eq
  | cons step path ih =>
      cases path' with
      | nil => simp at eq
      | cons step' path' =>
          obtain ⟨hash, sum, left⟩ := step
          obtain ⟨hash', sum', left'⟩ := step'
          simp only [List.mem_cons, forall_eq_or_imp] at canonical canonical'
          simp only [List.map_cons, List.cons.injEq, PathNode.toField, SumTree.PathStep.mk.injEq,
            SumNode.mk.injEq] at eq
          obtain ⟨⟨⟨hash_eq, rfl⟩, rfl⟩, rest_eq⟩ := eq
          rw [(fromBeBytesModOrder_inj canonical.1 canonical'.1).mp hash_eq,
            ih canonical.2 canonical'.2 rest_eq]

end Carried

section Binding

variable {Address : Type} {hash4 : Hash4} {s : Storage Address} {k : U64} {entry : ProofMeta}
  {idHash idHash' : Bytes32} {balance balance' : U128} {path path' : List PathNode}

/-- The tuples hashed by two calls. -/
def bothQueries (hash4 : Hash4) (idHash idHash' : Bytes32) (balance balance' : U128)
    (path path' : List PathNode) : Set (Query Fr) :=
  {query | query ∈ verifyQueries hash4 idHash balance path ∨
    query ∈ verifyQueries hash4 idHash' balance' path'}

/-- Where an accepted call ends over the field. -/
theorem climb_of_included (stored : s.proofs k = some entry)
    (included : verifyInclusion hash4 k idHash balance path s = .ok true) :
    climb (scheme hash4).combine ((scheme hash4).leaf (toEntry (idHash, balance)))
      (path.map PathNode.toField) = ⟨fromBeBytesModOrder entry.rootH, entry.l⟩ := by
  obtain ⟨_, _, reached⟩ := (verifyInclusion_eq_true_iff stored).mp included
  obtain ⟨hash_eq, sum_eq⟩ := Node.mk.inj reached
  refine SumNode.ext ?_ sum_eq
  rw [← hash_eq, fromBeBytesModOrder_frToBytes]

/-- The balance and the declared sums of an accepted call total the entry's
liabilities. -/
theorem total_of_included (stored : s.proofs k = some entry) (l_u64 : entry.l.val < 2 ^ 64)
    (included : verifyInclusion hash4 k idHash balance path s = .ok true) :
    balance.val + pathTotal path = entry.l.val := by
  have sum_eq := congrArg SumNode.sum (climb_of_included stored included)
  rw [climb_sum] at sum_eq
  replace sum_eq : carriedSum balance path = entry.l := sum_eq
  rw [carriedSum_exact (by rwa [sum_eq]), sum_eq]

/-- Equal sides: the two calls are the same call. -/
theorem eq_of_same_sides (stored : s.proofs k = some entry)
    (injective : Set.InjOn (scheme hash4).hash4
      (bothQueries hash4 idHash idHash' balance balance' path path'))
    (included : verifyInclusion hash4 k idHash balance path s = .ok true)
    (included' : verifyInclusion hash4 k idHash' balance' path' s = .ok true)
    (sides : path.map PathNode.siblingIsLeft = path'.map PathNode.siblingIsLeft) :
    idHash = idHash' ∧ balance = balance' ∧ path = path' := by
  obtain ⟨id_canonical, path_canonical, _⟩ := (verifyInclusion_eq_true_iff stored).mp included
  obtain ⟨id_canonical', path_canonical', _⟩ := (verifyInclusion_eq_true_iff stored).mp included'
  have met := (climb_of_included stored included).trans (climb_of_included stored included').symm
  obtain ⟨leaf_eq, steps_eq⟩ := Scheme.climb_injective injective
    (fun query mem => Or.inl (List.mem_cons_of_mem _ mem))
    (fun query mem => Or.inr (List.mem_cons_of_mem _ mem))
    (by rwa [map_siblingIsLeft_toField, map_siblingIsLeft_toField]) met
  have query_eq := injective (Or.inl List.mem_cons_self) (Or.inr List.mem_cons_self)
    (congrArg SumNode.hash leaf_eq)
  simp only [Scheme.leafQuery, Prod.mk.injEq, toEntry] at query_eq
  obtain ⟨id_eq, balance_eq, _⟩ := query_eq
  exact ⟨(fromBeBytesModOrder_inj id_canonical id_canonical').mp id_eq,
    frOfU128_injective balance_eq,
    map_toField_injective path_canonical path_canonical' steps_eq⟩

/-- The first differing side: each call carries the sum that the other declares
for its sibling there. -/
theorem carried_eq_declared (stored : s.proofs k = some entry)
    {low low' high high' : List PathNode} {step step' : PathNode}
    (injective : Set.InjOn (scheme hash4).hash4
      (bothQueries hash4 idHash idHash' balance balance' (low ++ step :: high)
        (low' ++ step' :: high')))
    (included : verifyInclusion hash4 k idHash balance (low ++ step :: high) s = .ok true)
    (included' : verifyInclusion hash4 k idHash' balance' (low' ++ step' :: high') s = .ok true)
    (agree : high.map PathNode.siblingIsLeft = high'.map PathNode.siblingIsLeft)
    (differ : step.siblingIsLeft ≠ step'.siblingIsLeft) :
    carriedSum balance low = step'.sum ∧ carriedSum balance' low' = step.sum := by
  have met := (climb_of_included stored included).trans (climb_of_included stored included').symm
  simp only [List.map_append, List.map_cons] at met
  obtain ⟨carried, carried'⟩ := Scheme.climb_crossed injective
    (fun query mem => Or.inl (List.mem_cons_of_mem _ (by simpa using mem)))
    (fun query mem => Or.inr (List.mem_cons_of_mem _ (by simpa using mem)))
    (by rwa [map_siblingIsLeft_toField, map_siblingIsLeft_toField]) differ met
  have sum_eq := congrArg SumNode.sum carried
  have sum_eq' := congrArg SumNode.sum carried'
  rw [climb_sum] at sum_eq sum_eq'
  exact ⟨sum_eq, sum_eq'⟩

/-- A stored entry opens in one way for each sequence of sides, and two calls that
part on the way down share its liability total between them. -/
theorem verifyInclusion_binding (stored : s.proofs k = some entry) (l_u64 : entry.l.val < 2 ^ 64)
    (injective : Set.InjOn (scheme hash4).hash4
      (bothQueries hash4 idHash idHash' balance balance' path path'))
    (included : verifyInclusion hash4 k idHash balance path s = .ok true)
    (included' : verifyInclusion hash4 k idHash' balance' path' s = .ok true) :
    (path.map PathNode.siblingIsLeft = path'.map PathNode.siblingIsLeft →
      idHash = idHash' ∧ balance = balance' ∧ path = path') ∧
    ∀ low step high low' step' high', path = low ++ step :: high →
      path' = low' ++ step' :: high' →
      high.map PathNode.siblingIsLeft = high'.map PathNode.siblingIsLeft →
      step.siblingIsLeft ≠ step'.siblingIsLeft →
      carriedSum balance low = step'.sum ∧ carriedSum balance' low' = step.sum ∧
        balance.val + balance'.val ≤ entry.l.val := by
  refine ⟨eq_of_same_sides stored injective included included', ?_⟩
  rintro low step high low' step' high' rfl rfl agree differ
  obtain ⟨carried, carried'⟩ :=
    carried_eq_declared stored injective included included' agree differ
  refine ⟨carried, carried', ?_⟩
  -- the sibling declared on one path holds the other's balance
  have total_eq := total_of_included stored l_u64 included
  have held := le_carriedSum balance' low'
  rw [carried'] at held
  rw [pathTotal_append, pathTotal_cons] at total_eq
  omega

end Binding

/-- The leaf of a customer of a two-leaf tree. -/
def pairLeaf (id balance : Nat) : Node :=
  Node.leaf Poseidon2.poseidon2Perm4 (BytesN.ofNat 32 id) (Fin.ofNat (2 ^ 128) balance)

/-- The root over the customers `1` and `2`, with balances `10` and `20`. -/
def pairRoot : Node :=
  hashPair Poseidon2.poseidon2Perm4 (pairLeaf 1 10) (pairLeaf 2 20)

/-- The steps from the two leaves. -/
def fromLeft : PathNode :=
  ⟨(pairLeaf 2 20).hash, 20, false⟩

def fromRight : PathNode :=
  ⟨(pairLeaf 1 10).hash, 10, true⟩

/-- The two customers of one tree part at the root. -/
theorem verifyInclusion_binding_sample :
    carriedSum 10 [] = fromRight.sum ∧ carriedSum 20 [] = fromLeft.sum ∧
      (10 : U128).val + (20 : U128).val ≤ pairRoot.sum.val := by
  have injective : Set.InjOn (scheme Poseidon2.poseidon2Perm4).hash4
      (bothQueries Poseidon2.poseidon2Perm4 (BytesN.ofNat 32 1) (BytesN.ofNat 32 2) 10 20
        [fromLeft] [fromRight]) := by
    have nodup : ((verifyQueries Poseidon2.poseidon2Perm4 (BytesN.ofNat 32 1) 10 [fromLeft] ++
        verifyQueries Poseidon2.poseidon2Perm4 (BytesN.ofNat 32 2) 20 []).map
          (scheme Poseidon2.poseidon2Perm4).hash4).Nodup := by decide +kernel
    have covered : verifyQueries Poseidon2.poseidon2Perm4 (BytesN.ofNat 32 2) 20 [fromRight] ⊆
        verifyQueries Poseidon2.poseidon2Perm4 (BytesN.ofNat 32 1) 10 [fromLeft] ++
          verifyQueries Poseidon2.poseidon2Perm4 (BytesN.ofNat 32 2) 20 [] := by decide +kernel
    refine (injOn_of_nodup_map nodup).mono ?_
    rintro query (mem | mem)
    · exact List.mem_append_left _ mem
    · exact covered mem
  exact (verifyInclusion_binding (s := storageOf pairRoot) (k := 1) rfl (by decide +kernel)
    injective (by decide +kernel) (by decide +kernel)).2 [] fromLeft [] [] fromRight [] rfl rfl
    rfl (by decide)

end Solva.Contract
