import Solva.Orchestrator.Repo

/-!
# Inclusion lookups

`GetInclusion` from the repo to the HTTP response: the reference is cut at its
colon, the prover's serialized tree is decoded and searched for the customer, and
the leaf's path is forwarded as the response body.
-/

namespace Solva.Orchestrator

open Bn254 Codec

/-! ## The serialized tree -/

structure SerializedPathNode where
  hash : String
  sum : String
  siblingIsLeft : Bool
  deriving DecidableEq

structure SerializedLeaf where
  idHash : String
  balance : String
  path : List SerializedPathNode
  deriving DecidableEq

structure SerializedTree where
  rootHash : String
  leaves : List SerializedLeaf
  deriving DecidableEq

/-- How `encoding/json` fills a struct field: an absent key leaves the zero
value, a value of another type is an error. -/
def decodeField {α : Type} (key : String) (zero : α) (read : Json → Option α) :
    Json → Option α
  | .object fields =>
      match (Json.object fields).field? key with
      | none => some zero
      | some value => read value
  | _ => none

def SerializedPathNode.ofJson (value : Json) : Option SerializedPathNode := do
  let hash ← decodeField "hash" "" Json.string? value
  let sum ← decodeField "sum" "" Json.string? value
  let siblingIsLeft ← decodeField "sibling_is_left" false Json.bool? value
  pure ⟨hash, sum, siblingIsLeft⟩

def SerializedLeaf.ofJson (value : Json) : Option SerializedLeaf := do
  let idHash ← decodeField "id_hash" "" Json.string? value
  let balance ← decodeField "balance" "" Json.string? value
  let path ← decodeField "path" [] (Json.arrayOf? SerializedPathNode.ofJson) value
  pure ⟨idHash, balance, path⟩

def SerializedTree.ofJson (value : Json) : Option SerializedTree := do
  let rootHash ← decodeField "root_hash" "" Json.string? value
  let leaves ← decodeField "leaves" [] (Json.arrayOf? SerializedLeaf.ofJson) value
  pure ⟨rootHash, leaves⟩

/-- Drop a literal prefix when it is there: `strings.TrimPrefix`. -/
def trimPrefix (pre text : List Char) : List Char :=
  if pre <+: text then text.drop pre.length else text

/-- `normalizeHex`. Only ASCII letters have a lower case that is a digit or `x`. -/
def normalizeHex (s : String) : List Char :=
  trimPrefix ['0', 'x'] (s.toList.map Char.toLower)

/-- `findLeaf`: the first leaf whose id hash is the same bare hex. -/
def SerializedTree.findLeaf (t : SerializedTree) (idHash : String) : Option SerializedLeaf :=
  t.leaves.find? fun leaf => normalizeHex leaf.idHash = normalizeHex idHash

/-! ## `Postgres.GetInclusion` -/

/-- `strings.Cut` at a single character. -/
def cut (sep : Char) (text : String) : Option (String × String) :=
  match text.toList.dropWhile (· ≠ sep) with
  | [] => none
  | _ :: after => some (String.ofList (text.toList.takeWhile (· ≠ sep)), String.ofList after)

/-- The JSON text of a stored tree as Go reads it: the database writes the text,
`json.Unmarshal` reads it; `jsonError` is the text of its error. -/
structure TreeReader extends JsonLink where
  jsonError : List UInt8 → String

section GetInclusion

variable (reader : TreeReader)

/-- `json.Unmarshal(row.Serialized, &tree)`. -/
def decodeTree (serialized : Json) : Result SerializedTree :=
  match (reader.decode (reader.encode serialized)).bind SerializedTree.ofJson with
  | some tree => .ok tree
  | none =>
      .error (.wrap "decode serialized tree" (.plain (reader.jsonError (reader.encode serialized))))

/-- `Postgres.GetInclusion`. -/
def getInclusion (ref : String) (db : Database) : Result InclusionRef :=
  match cut ':' ref with
  | none =>
      .error (.wrapped "" (.sentinel .notFound) ": ref must be \"<proof-id>:<id-hash>\"")
  | some (proofID, idHash) =>
      if proofID = "" ∨ idHash = "" then
        .error (.wrapped "" (.sentinel .notFound) ": ref must be \"<proof-id>:<id-hash>\"")
      else do
        let proof ← getProof proofID db
        let pid ← toUUID proofID
        let row ←
          match db.merkleTrees.find? fun row => row.proofID = pid with
          | some row => .ok row
          | none => .error (.sentinel .notFound)
        let tree ← decodeTree reader row.serialized
        match tree.findLeaf idHash with
        | none => .error (.sentinel .notFound)
        | some leaf =>
            pure {
              proofID := toString proof.chainProofID.val
              customerIDHash := leaf.idHash
              balance := leaf.balance
              path := leaf.path.map fun n => ⟨n.hash, n.sum, n.siblingIsLeft⟩
              rootHash := tree.rootHash }

/-! ## The endpoint -/

structure Response where
  status : Nat
  body : Json

/-- `writeError`. -/
def writeError (status : Nat) (msg : String) : Response :=
  ⟨status, .object [("error", .string msg)]⟩

/-- The JSON of `toInclusionDTO`. -/
def toInclusionDTO (inc : InclusionRef) : Json :=
  .object [("proof_id", .string inc.proofID),
    ("customer_id_hash", .string inc.customerIDHash),
    ("balance", .string inc.balance),
    ("root_hash", .string inc.rootHash),
    ("path", .array (inc.path.map fun n =>
      .object [("hash", .string n.hash), ("sum", .string n.sum),
        ("sibling_is_left", .bool n.left)]))]

/-- `Query.GetInclusion`. -/
def queryGetInclusion (ref : String) (db : Database) : Result InclusionRef :=
  (getInclusion reader ref db).mapError (GoError.wrap "get inclusion")

/-- `Handler.GetInclusion`, on the reference after percent-decoding. -/
def handleGetInclusion (ref : String) (db : Database) : Response :=
  match queryGetInclusion reader ref db with
  | .ok inc => ⟨200, toInclusionDTO inc⟩
  | .error err =>
      if err.is .notFound then writeError 404 "no inclusion path for that proof and customer"
      else writeError 500 "internal error"

/-! ## What a lookup finds -/

/-- A full spelling of a byte string's hex: any letter case, behind `0x`, `0X` or
no prefix. -/
def Spells (text : String) (bytes : List UInt8) : Prop :=
  ∃ pre ∈ [[], ['0', 'x'], ['0', 'X']], ∃ digits : List Char,
    text.toList = pre ++ digits ∧ digits.map Char.toLower = Hex.encode bytes

/-- All spellings normalize to the bare lower-case digits. -/
theorem normalizeHex_of_spells {text : String} {bytes : List UInt8}
    (spelled : Spells text bytes) : normalizeHex text = Hex.encode bytes := by
  obtain ⟨pre, pre_mem, digits, text_eq, lower_eq⟩ := spelled
  have no_prefix : ¬ ['0', 'x'] <+: Hex.encode bytes := by
    intro found
    obtain ⟨n, n_lt, digit⟩ := Hex.exists_digit_of_mem_encode (found.subset (by simp : 'x' ∈ _))
    interval_cases n <;> cases digit
  have lower_x : 'x'.toLower = 'x' := by decide
  have lower_X : 'X'.toLower = 'x' := by decide
  have lower_0 : '0'.toLower = '0' := by decide
  rw [normalizeHex, text_eq, List.map_append, lower_eq]
  simp only [List.mem_cons, List.not_mem_nil, or_false] at pre_mem
  rcases pre_mem with rfl | rfl | rfl
  · exact if_neg no_prefix
  · simp [trimPrefix, lower_x, lower_0]
  · simp [trimPrefix, lower_X, lower_0]

/-- `Cut` takes the text apart at the first separator. -/
theorem cut_append {sep : Char} {before : String} (absent : sep ∉ before.toList)
    (after : String) :
    cut sep (before ++ String.singleton sep ++ after) = some (before, after) := by
  have kept : ∀ c ∈ before.toList, decide (c ≠ sep) = true := by
    intro c mem
    exact decide_eq_true fun equal => absent (equal ▸ mem)
  have chars : (before ++ String.singleton sep ++ after).toList =
      before.toList ++ sep :: after.toList := by
    simp
  rw [cut, chars, List.dropWhile_append_of_pos kept, List.takeWhile_append_of_pos kept]
  simp

/-- A row is found by its key where keys are unique. -/
theorem find?_key {Row Key : Type} [DecidableEq Key] {key : Row → Key} {rows : List Row}
    (unique : (rows.map key).Nodup) {row : Row} (mem : row ∈ rows) :
    rows.find? (fun other => key other = key row) = some row := by
  induction rows with
  | nil => cases mem
  | cons first rows ih =>
      rw [List.map_cons, List.nodup_cons] at unique
      rcases List.mem_cons.mp mem with rfl | mem
      · simp
      · have differs : key first ≠ key row := fun equal =>
          unique.1 (equal ▸ List.mem_map_of_mem mem)
        rw [List.find?_cons_of_neg (by simpa using differs)]
        exact ih unique.2 mem

theorem getProof_fromUUID {db : Database} {row : ProofRow} (mem : row ∈ db.proofs) :
    getProof (fromUUID row.id) db = .ok (proofFromRow row) := by
  rw [getProof, toUUID_fromUUID]
  simp only [find?_key db.proofs_primary mem]

/-- The leaf found is the first whose id is spelled. -/
theorem findLeaf_eq_some {t : SerializedTree} {text : String} {bytes : List UInt8}
    (spelled : Spells text bytes) {index : Nat} {leaf : SerializedLeaf}
    (found : t.leaves[index]? = some leaf) (leaf_spelled : Spells leaf.idHash bytes)
    (earlier : ∀ j < index, ∀ other, t.leaves[j]? = some other →
      ∃ otherBytes, Spells other.idHash otherBytes ∧ otherBytes ≠ bytes) :
    t.findLeaf text = some leaf := by
  obtain ⟨bound, leaf_eq⟩ := List.getElem?_eq_some_iff.mp found
  rw [SerializedTree.findLeaf, List.find?_eq_some_iff_getElem]
  refine ⟨?_, index, bound, leaf_eq, ?_⟩
  · rw [normalizeHex_of_spells spelled, normalizeHex_of_spells leaf_spelled]
    exact decide_eq_true rfl
  · intro j before
    obtain ⟨otherBytes, other_spelled, differs⟩ := earlier j before _
      (List.getElem?_eq_getElem (Nat.lt_trans before bound))
    rw [normalizeHex_of_spells spelled, normalizeHex_of_spells other_spelled,
      decide_eq_false fun equal => differs (Hex.encode_injective equal)]
    rfl

/-! ## Go's reader and the order of fields -/

theorem respects_decodeField {α : Type} {read : Json → Option α} (respects : Json.Respects read)
    (key : String) (zero : α) : Json.Respects (decodeField key zero read) := by
  intro value other same
  cases same with
  | @object fields others related =>
      have found := related key
      unfold decodeField
      dsimp only
      generalize (Json.object fields).field? key = left, (Json.object others).field? key = right
        at found
      cases found with
      | none => rfl
      | some related => exact respects related
  | _ => rfl

theorem respects_pathNode : Json.Respects SerializedPathNode.ofJson := by
  intro value other same
  rw [SerializedPathNode.ofJson, SerializedPathNode.ofJson,
    respects_decodeField Json.respects_string? "hash" "" same,
    respects_decodeField Json.respects_string? "sum" "" same,
    respects_decodeField Json.respects_bool? "sibling_is_left" false same]

theorem respects_leaf : Json.Respects SerializedLeaf.ofJson := by
  intro value other same
  rw [SerializedLeaf.ofJson, SerializedLeaf.ofJson,
    respects_decodeField Json.respects_string? "id_hash" "" same,
    respects_decodeField Json.respects_string? "balance" "" same,
    respects_decodeField (Json.respects_arrayOf? respects_pathNode) "path" [] same]

/-- A tree whose fields were put in another order decodes to the same tree. -/
theorem respects_tree : Json.Respects SerializedTree.ofJson := by
  intro value other same
  rw [SerializedTree.ofJson, SerializedTree.ofJson,
    respects_decodeField Json.respects_string? "root_hash" "" same,
    respects_decodeField (Json.respects_arrayOf? respects_leaf) "leaves" [] same]

variable {reader}

/-- A lookup answers with the leaf found in the tree stored for the proof. -/
theorem handleGetInclusion_eq_ok {db : Database} {row : ProofRow} {tree : SerializedTree}
    {treeRow : MerkleTreeRow} {text : String} {leaf : SerializedLeaf}
    (row_mem : row ∈ db.proofs) (tree_mem : treeRow ∈ db.merkleTrees)
    (tree_of : treeRow.proofID = row.id)
    (carried : reader.Carries treeRow.serialized)
    (decoded : SerializedTree.ofJson treeRow.serialized = some tree)
    (nonempty : text ≠ "") (found : tree.findLeaf text = some leaf) :
    handleGetInclusion reader (fromUUID row.id ++ ":" ++ text) db =
      ⟨200, toInclusionDTO
        { proofID := toString row.chainProofID.val
          customerIDHash := leaf.idHash
          balance := leaf.balance
          path := leaf.path.map fun n => ⟨n.hash, n.sum, n.siblingIsLeft⟩
          rootHash := tree.rootHash }⟩ := by
  have cut_eq : cut ':' (fromUUID row.id ++ ":" ++ text) = some (fromUUID row.id, text) :=
    cut_append (colon_not_mem_fromUUID row.id) text
  have id_nonempty : fromUUID row.id ≠ "" := by
    intro empty
    have length_eq := length_fromUUID row.id
    rw [empty] at length_eq
    cases length_eq
  have tree_found : (db.merkleTrees.find? fun other => other.proofID = row.id) = some treeRow := by
    rw [← tree_of]
    exact find?_key db.trees_unique tree_mem
  have tree_eq : decodeTree reader treeRow.serialized = .ok tree := by
    obtain ⟨read, read_eq, same⟩ := carried
    rw [decodeTree, read_eq, Option.bind_some, ← respects_tree same, decoded]
  have inclusion : getInclusion reader (fromUUID row.id ++ ":" ++ text) db = .ok
      { proofID := toString row.chainProofID.val
        customerIDHash := leaf.idHash
        balance := leaf.balance
        path := leaf.path.map fun n => ⟨n.hash, n.sum, n.siblingIsLeft⟩
        rootHash := tree.rootHash } := by
    rw [getInclusion, cut_eq]
    simp only [id_nonempty, nonempty, or_self, if_false, getProof_fromUUID row_mem,
      toUUID_fromUUID, bind, Except.bind, tree_found, tree_eq, found]
    rfl
  rw [handleGetInclusion, queryGetInclusion, inclusion]
  rfl

end GetInclusion

end Solva.Orchestrator
