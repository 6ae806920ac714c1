import Solva.Prover.Completeness
import Solva.Sdk.Completeness

/-!
# One leaf in three tiers

An id hash is 32 bytes. The prover reads it modulo the field, the circuit and the
contract take only words below the modulus. The three leaf hashes of a customer
agree exactly on such words, and only there are different ids sure to be different
leaves.
-/

namespace Solva.Sdk

open Bn254 Codec SumTree Prover Circuit

/-! ## The leaf hash of each tier -/

/-- The circuit's hash of a leaf, from the texts of `Prover.toml`. -/
def circuitLeafHash (hash4 : Hash4) (toml : ProverToml) (index : Nat) : Option Bytes32 := do
  let idHash ← noirField? (← toml.leafIds[index]?)
  let balance ← noirField? (← toml.leafBalances[index]?)
  pure (frToBytes (leafNode hash4 idHash balance).hash)

/-- The contract's hash of a leaf, from the inclusion record the SDK was served. -/
def contractLeafHash (hash4 : Hash4) (ref : InclusionRef) : Option Bytes32 := do
  let args ← verifyArgs ref
  Contract.poseidon2Leaf hash4 args.idHash args.balance

section LeafParity

variable {hash4 : Hash4}

theorem getElem?_padTo {α : Type} (length : Nat) (filler : α) {items : List α} {index : Nat}
    {item : α} (found : items[index]? = some item) :
    (padTo length filler items)[index]? = some item := by
  have bound := (List.getElem?_eq_some_iff.mp found).1
  rw [padTo, List.getElem?_append_left bound, found]

theorem noirField?_balance (balance : U64) :
    noirField? (toString balance.val) = some (asField balance) := by
  have bound : balance.val < p := Nat.lt_trans balance.isLt (by decide)
  rw [noirField?_toString, if_pos bound]
  rfl

/-- The prover hashes the field element a word reduces to. -/
theorem leaf_hash (idHash : Bytes32) (balance : U64) :
    (Node.leaf hash4 idHash (balanceU128 balance)).hash =
      frToBytes (leafNode hash4 (fromBeBytesModOrder idHash) (asField balance)).hash := by
  simp [Node.leaf, leafNode, poseidon2HashFour, u128ToField, frOfU128, asField]

/-- The circuit has a leaf exactly for a canonical id, and then hashes as the
prover does. -/
theorem circuitLeafHash_proverToml {w : Witness} {index : Nat} {idHash : Bytes32} {balance : U64}
    (id_found : w.leafIds[index]? = some idHash)
    (balance_found : w.leafBalances[index]? = some (balanceU128 balance)) (r l : U128)
    (rootHash : Bytes32) :
    circuitLeafHash hash4 (proverToml w r l rootHash) index =
      if Canonical idHash then some (Node.leaf hash4 idHash (balanceU128 balance)).hash
      else none := by
  have id_text : (proverToml w r l rootHash).leafIds[index]? = some (hexText idHash) :=
    getElem?_padTo _ _ (by rw [List.getElem?_map, id_found]; rfl)
  have balance_text : (proverToml w r l rootHash).leafBalances[index]? =
      some (toString balance.val) :=
    getElem?_padTo _ _ (by rw [List.getElem?_map, balance_found]; rfl)
  unfold circuitLeafHash
  rw [id_text, balance_text, leaf_hash]
  by_cases canonical : Canonical idHash
  · simp only [Option.bind_eq_bind, Option.bind_some, noirField?_hexText, if_pos canonical,
      noirField?_balance, Option.pure_def]
  · simp [noirField?_hexText, canonical]

/-- The contract has a leaf exactly for a canonical id, and then hashes as the
prover does. -/
theorem contractLeafHash_leafRef (k : U64) (idHash : Bytes32) (balance : U128)
    (path : List Prover.PathStep) :
    contractLeafHash hash4 (leafRef k idHash balance path) =
      if Canonical idHash then some (Node.leaf hash4 idHash balance).hash else none := by
  unfold contractLeafHash
  rw [verifyArgs_leafRef]
  by_cases canonical : Canonical idHash
  · simp [Contract.poseidon2Leaf, canonical, Node.leaf, poseidon2HashFour, u128ToField]
  · simp [Contract.poseidon2Leaf, canonical]

/-- The id hash a text is recorded as, with the three leaf hashes defined and
equal: of every `Prover.toml` and of every inclusion record that hold the customer. -/
structure LeavesAgree (hash4 : Hash4) (text : String) (idHash : Bytes32) (balance : U64) :
    Prop where
  parsed : parseField text = .ok idHash
  circuit : ∀ (w : Witness) (index : Nat), w.leafIds[index]? = some idHash →
    w.leafBalances[index]? = some (balanceU128 balance) → ∀ (r l : U128) (rootHash : Bytes32),
      circuitLeafHash hash4 (proverToml w r l rootHash) index =
        some (Node.leaf hash4 idHash (balanceU128 balance)).hash
  contract : ∀ (k : U64) (path : List Prover.PathStep),
    contractLeafHash hash4 (leafRef k idHash (balanceU128 balance) path) =
      some (Node.leaf hash4 idHash (balanceU128 balance)).hash

theorem leavesAgree_iff {text : String} {idHash : Bytes32}
    (parsed : parseField text = .ok idHash) (balance : U64) :
    LeavesAgree hash4 text idHash balance ↔ Canonical idHash := by
  constructor
  · intro agree
    have served := agree.contract 0 []
    rw [contractLeafHash_leafRef] at served
    by_contra reduced
    rw [if_neg reduced] at served
    cases served
  · intro canonical
    refine ⟨parsed, ?_, ?_⟩
    · intro w index id_found balance_found r l rootHash
      rw [circuitLeafHash_proverToml id_found balance_found, if_pos canonical]
    · intro k path
      rw [contractLeafHash_leafRef, if_pos canonical]

/-- The tuples hashed for two customers. -/
def leafQueries (hash4 : Hash4) (idHash idHash' : Bytes32) (balance balance' : U64) :
    Set (Query Fr) :=
  {(scheme hash4).leafQuery (Contract.toEntry (idHash, balanceU128 balance)),
    (scheme hash4).leafQuery (Contract.toEntry (idHash', balanceU128 balance'))}

/-- Canonical ids that differ are different leaves. -/
theorem leaf_hash_ne {idHash idHash' : Bytes32} {balance balance' : U64}
    (injective : Set.InjOn (scheme hash4).hash4
      (leafQueries hash4 idHash idHash' balance balance'))
    (canonical : Canonical idHash) (canonical' : Canonical idHash') (differ : idHash ≠ idHash') :
    (Node.leaf hash4 idHash (balanceU128 balance)).hash ≠
      (Node.leaf hash4 idHash' (balanceU128 balance')).hash := by
  intro hash_eq
  rw [leaf_hash, leaf_hash] at hash_eq
  have field_eq : (scheme hash4).hash4
      ((scheme hash4).leafQuery (Contract.toEntry (idHash, balanceU128 balance))) =
        (scheme hash4).hash4
          ((scheme hash4).leafQuery (Contract.toEntry (idHash', balanceU128 balance'))) :=
    frToBytes_injective hash_eq
  have query_eq := injective (Or.inl rfl) (Or.inr rfl) field_eq
  exact differ ((fromBeBytesModOrder_inj canonical canonical').mp (congrArg Prod.fst query_eq))

/-- For any two recorded ids, the three tiers agree on both leaves and different
ids are different leaves, exactly when both ids are below the modulus. -/
theorem leaves_distinct_iff {text text' : String} {idHash idHash' : Bytes32}
    (parsed : parseField text = .ok idHash) (parsed' : parseField text' = .ok idHash')
    (balance balance' : U64)
    (injective : Set.InjOn (scheme hash4).hash4
      (leafQueries hash4 idHash idHash' balance balance')) :
    (LeavesAgree hash4 text idHash balance ∧ LeavesAgree hash4 text' idHash' balance' ∧
      (idHash ≠ idHash' → (Node.leaf hash4 idHash (balanceU128 balance)).hash ≠
        (Node.leaf hash4 idHash' (balanceU128 balance')).hash)) ↔
      Canonical idHash ∧ Canonical idHash' := by
  rw [leavesAgree_iff parsed, leavesAgree_iff parsed']
  constructor
  · rintro ⟨canonical, canonical', _⟩
    exact ⟨canonical, canonical'⟩
  · rintro ⟨canonical, canonical'⟩
    exact ⟨canonical, canonical', leaf_hash_ne injective canonical canonical'⟩

end LeafParity

/-- The word `5` and the word that is `5` modulo the field. -/
def five : Bytes32 :=
  BytesN.ofNat 32 5

def fiveReduced : Bytes32 :=
  BytesN.ofNat 32 (p + 5)

def six : Bytes32 :=
  BytesN.ofNat 32 6

theorem leaves_distinct_iff_sample :
    LeavesAgree Poseidon2.poseidon2Perm4 "0x05" five 7 ∧
      LeavesAgree Poseidon2.poseidon2Perm4 "06" six 7 ∧
      (five ≠ six → (Node.leaf Poseidon2.poseidon2Perm4 five (balanceU128 7)).hash ≠
        (Node.leaf Poseidon2.poseidon2Perm4 six (balanceU128 7)).hash) := by
  have injective : Set.InjOn (scheme Poseidon2.poseidon2Perm4).hash4
      {query | query ∈
        [(scheme Poseidon2.poseidon2Perm4).leafQuery (Contract.toEntry (five, balanceU128 7)),
          (scheme Poseidon2.poseidon2Perm4).leafQuery (Contract.toEntry (six, balanceU128 7))]} :=
    Contract.injOn_of_nodup_map (by decide +kernel)
  have covered : leafQueries Poseidon2.poseidon2Perm4 five six 7 7 ⊆ {query | query ∈
        [(scheme Poseidon2.poseidon2Perm4).leafQuery (Contract.toEntry (five, balanceU128 7)),
          (scheme Poseidon2.poseidon2Perm4).leafQuery
            (Contract.toEntry (six, balanceU128 7))]} := by
    rintro query (rfl | rfl)
    · exact List.mem_cons_self
    · exact List.mem_cons_of_mem _ List.mem_cons_self
  exact (leaves_distinct_iff (by decide +kernel) (by decide +kernel) 7 7
    (injective.mono covered)).mpr (by decide +kernel)

/-- Two ids are recorded as different words and share one leaf, which neither the
circuit nor the contract has for the second. -/
theorem leaf_shared :
    parseField "05" = .ok five ∧ parseField (hexText fiveReduced) = .ok fiveReduced ∧
      five ≠ fiveReduced ∧
      Set.InjOn (scheme Poseidon2.poseidon2Perm4).hash4
        (leafQueries Poseidon2.poseidon2Perm4 five fiveReduced 7 7) ∧
      Node.leaf Poseidon2.poseidon2Perm4 five (balanceU128 7) =
        Node.leaf Poseidon2.poseidon2Perm4 fiveReduced (balanceU128 7) ∧
      circuitLeafHash Poseidon2.poseidon2Perm4
        (proverToml ⟨[fiveReduced], [7], [7], 7⟩ 7 7 zeroWord) 0 = none ∧
      contractLeafHash Poseidon2.poseidon2Perm4
        (leafRef 1 fiveReduced (balanceU128 7) []) = none := by
  have same : (scheme Poseidon2.poseidon2Perm4).leafQuery
      (Contract.toEntry (fiveReduced, balanceU128 7)) =
        (scheme Poseidon2.poseidon2Perm4).leafQuery (Contract.toEntry (five, balanceU128 7)) := by
    decide +kernel
  refine ⟨by decide +kernel, by decide +kernel, by decide +kernel, ?_, by decide +kernel,
    by decide +kernel, by decide +kernel⟩
  rw [leafQueries, same, Set.pair_eq_singleton]
  exact Set.injOn_singleton _ _

end Solva.Sdk
