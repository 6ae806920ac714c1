import Solva.Circuit.Core

/-!
# The circuit's inclusion fold

`verify_inclusion` of `merkle/src/lib.nr`: one leaf and its sibling path are folded
to a root with field additions, the balance alone is range checked.
-/

namespace Solva.Circuit

open Bn254 SumTree

/-- A sibling of `merkle/src/lib.nr`, on the right of the climbing node or on its
left. -/
structure PathNode where
  hash : Fr
  sum : Fr
  isRight : Bool
  deriving DecidableEq

section VerifyInclusion

variable (hash4 : Hash4)

/-- One round of the loop: order the combine by the sibling's side, then climb. -/
def climbStep (node : MerkleSumNode) (step : PathNode) : MerkleSumNode :=
  let sibling : MerkleSumNode := { hash := step.hash, sum := step.sum }
  if step.isRight then MerkleSumNode.combine hash4 node sibling
  else MerkleSumNode.combine hash4 sibling node

/-- `verify_inclusion::<DEPTH>`. -/
def verifyInclusion {DEPTH : Nat} (idHash balance : Fr) (path : Fin DEPTH → PathNode)
    (expectedRootHash expectedRootSum : Fr) : Except String Unit := do
  let _ ← assertU64 balance
  let leafHash := hash4 idHash balance 0 0
  let node := (List.finRange DEPTH).foldl (fun node i => climbStep hash4 node (path i))
    { hash := leafHash, sum := balance }
  assert (node.hash = expectedRootHash) "inclusion hash mismatch"
  assert (node.sum = expectedRootSum) "inclusion sum mismatch"

variable {hash4}

/-- All assertions of `verify_inclusion` hold exactly on a `u64` balance whose fold
ends at the expected root. -/
theorem verifyInclusion_eq_ok_iff {DEPTH : Nat} {idHash balance : Fr}
    {path : Fin DEPTH → PathNode} {rootHash rootSum : Fr} :
    verifyInclusion hash4 idHash balance path rootHash rootSum = .ok () ↔
      balance.val < 2 ^ 64 ∧
        (List.ofFn path).foldl (climbStep hash4) (leafNode hash4 idHash balance) =
          ⟨rootHash, rootSum⟩ := by
  have loop : (List.finRange DEPTH).foldl (fun node i => climbStep hash4 node (path i))
      (leafNode hash4 idHash balance) =
        (List.ofFn path).foldl (climbStep hash4) (leafNode hash4 idHash balance) := by
    rw [List.ofFn_eq_map, List.foldl_map]
  unfold verifyInclusion
  simp only [bind_eq_ok_iff, assert_eq_ok_iff, decide_eq_true_eq, assertU64_eq_ok_iff]
  rw [← loop, SumNode.ext_iff]
  constructor
  · rintro ⟨_, ⟨bound, _⟩, _, hash_eq, sum_eq⟩
    exact ⟨bound, hash_eq, sum_eq⟩
  · rintro ⟨bound, hash_eq, sum_eq⟩
    exact ⟨⟨balance.val, bound⟩, ⟨bound, rfl⟩, (), hash_eq, sum_eq⟩

end VerifyInclusion

end Solva.Circuit
