import Solva.Codec.JsonText
import Solva.Prover.Poseidon2
import Solva.Prover.Service
import Solva.Sdk.Inclusion

/-!
# From a proof bundle to the contract's verdict

What the prover serialized is read by the orchestrator, forwarded to the customer
and passed to the contract. Every hop reads exactly what the hop before wrote, so
the contract is called with the leaf and the path of the prover's own tree, and it
accepts them.
-/

namespace Solva.Sdk

open Bn254 Codec SumTree

/-! ## The serialized tree in Go -/

/-- A leaf as Go holds it. -/
def goLeaf (leaf : Prover.SerializedLeaf) : Orchestrator.SerializedLeaf :=
  ⟨leaf.idHash, leaf.balance, leaf.path.map fun n => ⟨n.hash, n.sum, n.siblingIsLeft⟩⟩

/-- Go reads the JSON of a serialized tree field by field. -/
theorem ofJson_toJson (tree : Prover.SerializedTree) :
    Orchestrator.SerializedTree.ofJson tree.toJson =
      some ⟨tree.rootHash, tree.leaves.map goLeaf⟩ := by
  have node_eq (n : Prover.SerializedPathNode) :
      Orchestrator.SerializedPathNode.ofJson n.toJson = some ⟨n.hash, n.sum, n.siblingIsLeft⟩ :=
    rfl
  have leaf_eq (leaf : Prover.SerializedLeaf) :
      Orchestrator.SerializedLeaf.ofJson leaf.toJson = some (goLeaf leaf) := by
    have path_eq := Json.arrayOf?_array_map leaf.path fun n _ => node_eq n
    simp [Orchestrator.SerializedLeaf.ofJson, Prover.SerializedLeaf.toJson,
      Orchestrator.decodeField, Json.field?, Json.string?, path_eq, goLeaf]
  have leaves_eq := Json.arrayOf?_array_map tree.leaves fun leaf _ => leaf_eq leaf
  simp [Orchestrator.SerializedTree.ofJson, Prover.SerializedTree.toJson,
    Orchestrator.decodeField, Json.field?, Json.string?, leaves_eq]

/-- No object of a serialized tree has a key twice. -/
theorem distinct_toJson (tree : Prover.SerializedTree) : tree.toJson.Distinct := by
  have node_distinct (n : Prover.SerializedPathNode) : n.toJson.Distinct := by
    refine .object (by simp) ?_
    simp only [List.mem_cons, List.not_mem_nil, or_false]
    rintro entry (rfl | rfl | rfl)
    · exact .string _
    · exact .string _
    · exact .bool _
  have leaf_distinct (leaf : Prover.SerializedLeaf) : leaf.toJson.Distinct := by
    refine .object (by simp) ?_
    simp only [List.mem_cons, List.not_mem_nil, or_false]
    rintro entry (rfl | rfl | rfl)
    · exact .string _
    · exact .string _
    · exact .array (List.forall_mem_map.mpr fun n _ => node_distinct n)
  refine .object (by simp) ?_
  simp only [List.mem_cons, List.not_mem_nil, or_false]
  rintro entry (rfl | rfl)
  · exact .string _
  · exact .array (List.forall_mem_map.mpr fun leaf _ => leaf_distinct leaf)

/-- A word's text is a spelling of its bytes. -/
theorem spells_hexText (word : Bytes32) :
    Orchestrator.Spells (Prover.hexText word) word.bytes := by
  refine ⟨['0', 'x'], by simp, Hex.encode word.bytes, ?_, Hex.map_toLower_encode _⟩
  simp [Prover.hexText]

/-- Searching the decoded tree for a customer's id finds the leaf serialized for
that customer. -/
theorem findLeaf_serialized {hash4 : Hash4} {w : Prover.Witness} (checked : w.Checked)
    (distinct : w.leafIds.Nodup) {tree : Prover.MerkleSumTree hash4}
    (built : Prover.MerkleSumTree.build hash4 (Prover.paddedLeaves hash4 w) = some tree)
    {serialized : Prover.SerializedTree} {rootHash : Bytes32}
    (serialized_eq : Prover.serializeTree tree w rootHash = some serialized)
    {index : Nat} {idHash : Bytes32} {balance : U128}
    (id_found : w.leafIds[index]? = some idHash)
    (balance_found : w.leafBalances[index]? = some balance)
    {text : String} (spelled : Orchestrator.Spells text idHash.bytes) :
    ∃ path, tree.inclusionPath index = some path ∧
      Orchestrator.SerializedTree.findLeaf ⟨serialized.rootHash, serialized.leaves.map goLeaf⟩
        text = some (goLeaf (Prover.serializeLeaf idHash balance path)) := by
  obtain ⟨other, other_eq, _, leaf_at⟩ := Prover.exists_serializeTree checked built rootHash
  rw [serialized_eq, Option.some_inj] at other_eq
  subst other_eq
  obtain ⟨path, path_eq, leaf_found⟩ := leaf_at id_found balance_found
  have mapped : (serialized.leaves.map goLeaf)[index]? =
      some (goLeaf (Prover.serializeLeaf idHash balance path)) := by
    rw [List.getElem?_map, leaf_found]
    rfl
  refine ⟨path, path_eq, Orchestrator.findLeaf_eq_some spelled mapped (spells_hexText idHash) ?_⟩
  intro j before other found
  have j_lt : j < w.leafIds.length :=
    Nat.lt_trans before (List.getElem?_eq_some_iff.mp id_found).1
  have j_id := List.getElem?_eq_getElem j_lt
  have j_balance := List.getElem?_eq_getElem (checked.length_eq ▸ j_lt)
  obtain ⟨_, _, j_found⟩ := leaf_at j_id j_balance
  rw [List.getElem?_map, j_found, Option.map_some, Option.some_inj] at found
  subst found
  refine ⟨_, spells_hexText w.leafIds[j], fun same => ?_⟩
  have same_word : w.leafIds[j] = idHash := by
    cases idHash
    cases equal : w.leafIds[j]
    simp_all
  obtain ⟨index_lt, index_eq⟩ := List.getElem?_eq_some_iff.mp id_found
  have same_index : j = index := distinct.getElem_inj_iff.mp (same_word.trans index_eq.symm)
  omega

/-! ## The arguments of the contract call -/

theorem hexToBuffer_hexText (word : Bytes32) :
    hexToBuffer (Prover.hexText word) = word.bytes := by
  have text_eq : (Prover.hexText word).toList = ['0', 'x'] ++ Hex.encode word.bytes := by
    simp [Prover.hexText]
  rw [hexToBuffer, text_eq, Orchestrator.trimPrefix, if_pos (List.prefix_append _ _)]
  exact bufferFromHex_of_decode (Hex.decode_encode word.bytes)

@[simp]
theorem toBytes32_bytes (word : Bytes32) : toBytes32 word.bytes = some word := by
  rw [toBytes32, dif_pos word.length_eq]

@[simp]
theorem toUnsigned_val {bound : Nat} (value : Fin bound) :
    toUnsigned bound (value.val : Int) = some value := by
  rw [toUnsigned, dif_pos ⟨by omega, by simp⟩]
  simp

/-- A step of the prover's path as the SDK holds it. -/
def sdkNode (step : Prover.PathStep) : PathNode :=
  { hash := Prover.hexText step.sibling.hash
    sum := toString step.sibling.sum.val
    position := if step.siblingIsLeft then .left else .right }

/-- A step of the prover's path arrives at the contract as it left. -/
theorem pathNode_roundTrip (step : Prover.PathStep) :
    (toContractPathNode (sdkNode step)).bind GeneratedPathNode.encode =
      some (Contract.PathNode.ofStep step) := by
  cases side : step.siblingIsLeft <;>
    simp [sdkNode, toContractPathNode, GeneratedPathNode.encode, hexToBuffer_hexText, side,
      Contract.PathNode.ofStep]

/-- The SDK's reference to a leaf of the prover's tree. -/
def leafRef (k : U64) (idHash : Bytes32) (balance : U128) (path : List Prover.PathStep) :
    InclusionRef :=
  { proofId := toString k.val
    customerIdHash := Prover.hexText idHash
    balance := toString balance.val
    path := path.map sdkNode }

/-- The contract is called with the leaf and the path of the prover's tree. -/
theorem verifyArgs_leafRef (k : U64) (idHash : Bytes32) (balance : U128)
    (path : List Prover.PathStep) :
    verifyArgs (leafRef k idHash balance path) =
      some ⟨k, idHash, balance, path.map Contract.PathNode.ofStep⟩ := by
  have id_eq : bigInt (toString k.val) = some (k.val : Int) := bigInt_repr _
  have balance_eq : bigInt (toString balance.val) = some (balance.val : Int) := bigInt_repr _
  have path_eq : (path.map sdkNode).mapM
      (fun node => (toContractPathNode node).bind GeneratedPathNode.encode) =
        some (path.map Contract.PathNode.ofStep) := by
    rw [mapM_eq_some_iff, List.map_map, List.map_map]
    exact List.map_congr_left fun step _ => pathNode_roundTrip step
  simp only [verifyArgs, leafRef, id_eq, balance_eq, path_eq, hexToBuffer_hexText,
    toBytes32_bytes, toUnsigned_val, Option.bind_eq_bind, Option.bind_some, Option.pure_def]

/-- The endpoint's answer for a serialized leaf. -/
def leafInclusion (k : U64) (leaf : Orchestrator.SerializedLeaf) (rootHash : String) :
    Orchestrator.InclusionRef :=
  { proofID := toString k.val
    customerIDHash := leaf.idHash
    balance := leaf.balance
    path := leaf.path.map fun n => ⟨n.hash, n.sum, n.siblingIsLeft⟩
    rootHash := rootHash }

/-- The SDK reads that answer as the reference to the leaf. -/
theorem getInclusionRef_leaf {http : JsonLink} {k : U64} {idHash : Bytes32} {balance : U128}
    {path : List Prover.PathStep} {rootHash : String}
    (carried : http.Carries (Orchestrator.toInclusionDTO (leafInclusion k
      (goLeaf (Prover.serializeLeaf idHash balance path)) rootHash))) :
    getInclusionRef http ⟨200, Orchestrator.toInclusionDTO (leafInclusion k
        (goLeaf (Prover.serializeLeaf idHash balance path)) rootHash)⟩ =
      some (leafRef k idHash balance path) := by
  have nodes_eq : Json.arrayOf? readPathNode (.array (path.map fun step =>
      .object [("hash", .string (Prover.hexText step.sibling.hash)),
        ("sum", .string (toString step.sibling.sum.val)),
        ("sibling_is_left", .bool step.siblingIsLeft)])) = some (path.map sdkNode) :=
    Json.arrayOf?_array_map path fun _ _ => rfl
  have body_eq : Orchestrator.toInclusionDTO (leafInclusion k
      (goLeaf (Prover.serializeLeaf idHash balance path)) rootHash) =
        .object [("proof_id", .string (toString k.val)),
          ("customer_id_hash", .string (Prover.hexText idHash)),
          ("balance", .string (toString balance.val)), ("root_hash", .string rootHash),
          ("path", .array (path.map fun step =>
            .object [("hash", .string (Prover.hexText step.sibling.hash)),
              ("sum", .string (toString step.sibling.sum.val)),
              ("sibling_is_left", .bool step.siblingIsLeft)]))] := by
    simp [Orchestrator.toInclusionDTO, leafInclusion, goLeaf, Prover.serializeLeaf,
      Prover.serializePathNode]
  obtain ⟨dto, dto_eq, same⟩ := carried
  rw [getInclusionRef, request, if_pos (by simp), dto_eq, Option.bind_some,
    ← respects_inclusionRef same, body_eq]
  change (Json.arrayOf? readPathNode (.array (path.map _))).bind _ = _
  rw [nodes_eq]
  rfl

/-- The root of an accepted witness's tree is what its bundle declares. -/
theorem root_of_bundle {hash4 : Hash4} {w : Prover.Witness} {assembled : Prover.Assembled}
    (accepted : Prover.assemble hash4 w = some (.ok assembled)) :
    w.Checked ∧ ∃ tree : Prover.MerkleSumTree hash4,
      Prover.MerkleSumTree.build hash4 (Prover.paddedLeaves hash4 w) = some tree ∧
        tree.root = ⟨assembled.rootHash, assembled.liabilitiesTotal⟩ ∧
        Prover.serializeTree tree w tree.root.hash = some assembled.serializedTree := by
  obtain ⟨checked, liabilities_eq, _, _, tree, built, root_eq, serialized_eq, _⟩ :=
    Prover.assemble_eq_ok_iff.mp accepted
  refine ⟨checked, tree, built, ?_, serialized_eq⟩
  have total_eq : ((Prover.paddedLeaves hash4 w).map fun leaf => leaf.sum.val).sum =
      w.liabilities := by
    have balances_eq : (w.leafIds.zip w.leafBalances).map Prod.snd = w.leafBalances :=
      List.map_snd_zip checked.length_eq.ge
    have sums_eq : (fun leaf => leaf.sum.val) ∘ (fun customer : Bytes32 × U128 =>
        Prover.Node.leaf hash4 customer.1 customer.2) = Fin.val ∘ Prod.snd := rfl
    rw [Prover.paddedLeaves, Prover.paddedCustomers, List.map_map, sums_eq, Prover.padTo_map,
      Prover.padTo, List.sum_append, ← List.map_map, balances_eq]
    simp [Prover.Witness.liabilities]
  have full : (Prover.paddedLeaves hash4 w).length = 2 ^ Prover.DEPTH :=
    Prover.length_paddedLeaves hash4 checked
  have sum_eq := Prover.root_sum_of_build built full
    (by rw [total_eq, liabilities_eq]; exact assembled.liabilitiesTotal.isLt)
  rw [total_eq, liabilities_eq] at sum_eq
  rw [root_eq, ← Fin.ext sum_eq]

/-- Every real customer of an accepted witness passes the check, however the id is
spelled: the contract is called with the customer's id hash and balance and the
path of the prover's tree, and answers true. -/
theorem customer_included {Address : Type} {hash4 : Hash4} {tools : Prover.Tools}
    {w : Prover.Witness} {bundle : Prover.ProofBundle}
    (proved : Prover.prove hash4 tools w = some (.ok bundle))
    (canonical : ∀ id ∈ w.leafIds, Canonical id) (distinct : w.leafIds.Nodup)
    {index : Nat} {idHash : Bytes32} {balance : U128}
    (id_found : w.leafIds[index]? = some idHash)
    (balance_found : w.leafBalances[index]? = some balance)
    {text : String} (spelled : Orchestrator.Spells text idHash.bytes)
    {db : Orchestrator.Database} {row : Orchestrator.ProofRow}
    {treeRow : Orchestrator.MerkleTreeRow} (row_mem : row ∈ db.proofs)
    (tree_mem : treeRow ∈ db.merkleTrees) (tree_of : treeRow.proofID = row.id)
    {column : JsonLink} (kept : column.Carries bundle.serializedTree.toJson)
    (stored : column.decode (column.encode bundle.serializedTree.toJson) = some treeRow.serialized)
    {reader : Orchestrator.TreeReader} (read : reader.Carries treeRow.serialized)
    {http : JsonLink}
    (answered : http.Carries (Orchestrator.handleGetInclusion reader
      (Orchestrator.fromUUID row.id ++ ":" ++ text) db).body)
    {s : Contract.Storage Address} {entry : Contract.ProofMeta}
    (published : s.proofs row.chainProofID = some entry)
    (root_eq : entry.rootH = bundle.rootHash) (total_eq : entry.l = bundle.liabilitiesTotal) :
    ∃ (tree : Prover.MerkleSumTree hash4) (path : List Prover.PathStep) (ref : InclusionRef),
      Prover.MerkleSumTree.build hash4 (Prover.paddedLeaves hash4 w) = some tree ∧
        tree.inclusionPath index = some path ∧
        getInclusionRef http (Orchestrator.handleGetInclusion reader
          (Orchestrator.fromUUID row.id ++ ":" ++ text) db) = some ref ∧
        verifyArgs ref =
          some ⟨row.chainProofID, idHash, balance, path.map Contract.PathNode.ofStep⟩ ∧
        Contract.verifyInclusion hash4 row.chainProofID idHash balance
          (path.map Contract.PathNode.ofStep) s = .ok true := by
  obtain ⟨assembled, proof, accepted, _, rfl⟩ := Prover.exists_assembled_of_prove proved
  obtain ⟨checked, tree, built, tree_root, serialized_eq⟩ := root_of_bundle accepted
  obtain ⟨path, path_eq, leaf_found⟩ := findLeaf_serialized checked distinct built serialized_eq
    id_found balance_found spelled
  have text_nonempty : text ≠ "" := by
    rintro rfl
    obtain ⟨_, _, digits, text_eq, lower_eq⟩ := spelled
    have digits_nil : digits = [] := (List.append_eq_nil_iff.mp text_eq.symm).2
    have length_eq := congrArg List.length lower_eq
    rw [digits_nil, Hex.length_encode, idHash.length_eq] at length_eq
    cases length_eq
  have decoded : Orchestrator.SerializedTree.ofJson treeRow.serialized =
      some ⟨assembled.serializedTree.rootHash, assembled.serializedTree.leaves.map goLeaf⟩ := by
    obtain ⟨held, held_eq, same⟩ := kept
    rw [stored, Option.some_inj] at held_eq
    rw [held_eq, ← Orchestrator.respects_tree same]
    exact ofJson_toJson assembled.serializedTree
  have response := Orchestrator.handleGetInclusion_eq_ok row_mem tree_mem tree_of read decoded
    text_nonempty leaf_found
  rw [response] at answered ⊢
  have customer_found : (Prover.paddedCustomers w)[index]? = some (idHash, balance) :=
    Prover.getElem?_paddedCustomers id_found balance_found
  exact ⟨tree, path, leafRef row.chainProofID idHash balance path, built, path_eq,
    getInclusionRef_leaf answered, verifyArgs_leafRef _ _ _ _,
    Contract.verifyInclusion_inclusionPath published built
      (by rw [tree_root, root_eq, total_eq]) customer_found
      (canonical idHash (List.mem_of_getElem? id_found)) path_eq⟩

/-! ## A run with the real hash -/

/-- Two customers, the first with a letter in the id. -/
def sampleWitness : Prover.Witness :=
  { leafIds := [BytesN.ofNat 32 0xab, BytesN.ofNat 32 2]
    leafBalances := [3, 4]
    reserves := [12]
    prevReserves := 12 }

def sampleTools : Prover.Tools :=
  fun _ => .ok [1, 2, 3]

def sampleTree : Prover.MerkleSumTree Prover.Poseidon2.poseidon2Perm4 :=
  ⟨_, Prover.paddedLeaves Prover.Poseidon2.poseidon2Perm4 sampleWitness,
    List.ne_nil_of_length_pos (by decide), rfl⟩

def sampleBundle : Prover.ProofBundle :=
  { proof := [1, 2, 3]
    rootHash := sampleTree.root.hash
    reservesTotal := 12
    liabilitiesTotal := 7
    prevReserves := 12
    serializedTree :=
      (Prover.serializeTree sampleTree sampleWitness sampleTree.root.hash).getD ⟨"", []⟩ }

theorem sampleBundle_proved :
    Prover.prove Prover.Poseidon2.poseidon2Perm4 sampleTools sampleWitness =
      some (.ok sampleBundle) := by
  decide +kernel

def sampleRow : Orchestrator.ProofRow :=
  ⟨BytesN.ofNat 16 9, BytesN.ofNat 16 1, 1, "", 12, 7, 0, [1, 2, 3]⟩

def sampleDatabase : Orchestrator.Database where
  tenants := []
  liabilities := []
  proofs := [sampleRow]
  merkleTrees := [⟨sampleRow.id, sampleBundle.serializedTree.toJson.jsonb⟩]
  auditLog := []
  cycleRuns := []
  clock := 1
  proofs_primary := List.nodup_singleton _
  trees_unique := List.nodup_singleton _
  trees_reference := by simp
  cycleRuns_unique := List.nodup_nil
  timestamps_lt := by simp [sampleRow]

def sampleReader : Orchestrator.TreeReader :=
  { JsonText.postgres.link with jsonError := fun _ => "" }

/-- The first customer's id in mixed case behind `0X`. -/
def sampleText : String :=
  "0X00000000000000000000000000000000000000000000000000000000000000aB"

def sampleStorage : Contract.Storage Unit :=
  { Contract.Storage.empty with
    latestId := some 1
    proofs := fun id => if id = 1 then some ⟨sampleBundle.rootHash, 12, 7, 0⟩ else none }

def sampleResponse : Orchestrator.Response :=
  Orchestrator.handleGetInclusion sampleReader
    (Orchestrator.fromUUID sampleRow.id ++ ":" ++ sampleText) sampleDatabase

theorem customer_included_sample :
    ∃ (tree : Prover.MerkleSumTree Prover.Poseidon2.poseidon2Perm4) (path : List Prover.PathStep)
      (ref : InclusionRef),
      Prover.MerkleSumTree.build Prover.Poseidon2.poseidon2Perm4
          (Prover.paddedLeaves Prover.Poseidon2.poseidon2Perm4 sampleWitness) = some tree ∧
        tree.inclusionPath 0 = some path ∧
        getInclusionRef JsonText.go.link sampleResponse = some ref ∧
        verifyArgs ref = some ⟨1, BytesN.ofNat 32 0xab, 3, path.map Contract.PathNode.ofStep⟩ ∧
        Contract.verifyInclusion Prover.Poseidon2.poseidon2Perm4 1 (BytesN.ofNat 32 0xab) 3
          (path.map Contract.PathNode.ofStep) sampleStorage = .ok true :=
  have first_id : sampleWitness.leafIds[0]? = some (BytesN.ofNat 32 0xab) := rfl
  have spelled : Orchestrator.Spells sampleText (BytesN.ofNat 32 0xab).bytes :=
    ⟨['0', 'X'], by simp, sampleText.toList.drop 2, by decide, by decide⟩
  have row_mem : sampleRow ∈ sampleDatabase.proofs := List.mem_singleton_self _
  have published : sampleStorage.proofs sampleRow.chainProofID =
      some ⟨sampleBundle.rootHash, 12, 7, 0⟩ := rfl
  customer_included sampleBundle_proved (by decide) (by decide) first_id rfl spelled row_mem
    (List.mem_singleton_self _) rfl (JsonText.column_carries _ (distinct_toJson _))
    (JsonText.column_reads JsonText.serde _) (JsonText.link_carries _ _) (JsonText.link_carries _ _)
    published rfl rfl

end Solva.Sdk
