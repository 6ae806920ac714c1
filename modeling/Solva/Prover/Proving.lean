import Solva.Codec.Decimal
import Solva.Codec.Hex
import Solva.Codec.Json
import Solva.Prover.Tree

/-!
# Proving

`proving.rs` up to the external tools: the checks on a witness, the padded tree,
the serialized tree and the inputs written for `nargo`. A panic of the Rust code
(a `u128` sum that overflows, a failed assertion) is `none`.
-/

namespace Solva.Prover

open Bn254 SumTree Codec

/-- Customer leaves of the circuit. -/
def N : Nat := 8

/-- Reserve figures of the circuit. -/
def M : Nat := 4

/-- Tree depth, `log2(N)`. -/
def DEPTH : Nat := 3

inductive ProvingError where
  | witnessAssembly (message : String)
  | proofGeneration (message : String)
  deriving DecidableEq

/-- `Display for ProvingError`. -/
def ProvingError.display : ProvingError → String
  | witnessAssembly message => "witness assembly failed: " ++ message
  | proofGeneration message => "proof generation failed: " ++ message

/-- One cycle's private witness. -/
structure Witness where
  leafIds : List Bytes32
  leafBalances : List U128
  reserves : List U128
  prevReserves : U128
  deriving DecidableEq

/-! ## Reading id hashes -/

/-- Rust's `char` in `Debug` form, for a character that stands for one byte. -/
def charDebug (c : Char) : String :=
  let escaped :=
    match c with
    | '\x00' => "\\0"
    | '\t' => "\\t"
    | '\n' => "\\n"
    | '\r' => "\\r"
    | '\'' => "\\'"
    | '\\' => "\\\\"
    | _ =>
        if c.toNat < 0x20 ∨ 0x7f ≤ c.toNat ∧ c.toNat ≤ 0xa0 ∨ c.toNat = 0xad then
          "\\u\x7b" ++ String.ofList (Nat.toDigits 16 c.toNat) ++ "\x7d"
        else String.singleton c
  "'" ++ escaped ++ "'"

/-- The error text of `hex::decode` on text it does not decode. -/
def fromHexError (text : String) : String :=
  let bytes := text.toUTF8.data.toList
  if bytes.length % 2 = 1 then "Odd number of digits"
  else
    let index := bytes.findIdx fun byte => (Hex.digitValue? (Char.ofNat byte.toNat)).isNone
    let c := Char.ofNat ((bytes[index]?).getD 0).toNat
    "Invalid character " ++ charDebug c ++ " at position " ++ toString index

/-- Drop a literal prefix when it is there. -/
def stripPrefix (pre text : List Char) : List Char :=
  if pre <+: text then text.drop pre.length else text

theorem length_rightAligned {bytes : List UInt8} (short : bytes.length ≤ 32) :
    (List.replicate (32 - bytes.length) 0 ++ bytes).length = 32 := by
  simp
  omega

/-- `parse_field`: a hex id hash, `0x` optional, right-aligned to 32 bytes. -/
def parseField (hexStr : String) : Except ProvingError Bytes32 :=
  let s := stripPrefix ['0', 'x'] hexStr.toList
  match Hex.decode s with
  | none =>
      .error (.witnessAssembly ("bad id_hash hex: " ++ fromHexError (String.ofList s)))
  | some bytes =>
      if short : bytes.length ≤ 32 then
        .ok ⟨List.replicate (32 - bytes.length) 0 ++ bytes, length_rightAligned short⟩
      else .error (.witnessAssembly "id_hash longer than 32 bytes")

/-! ## The serialized tree -/

structure SerializedPathNode where
  hash : String
  sum : String
  siblingIsLeft : Bool
  deriving DecidableEq

structure SerializedLeaf where
  idHash : String
  balance : String
  path : List SerializedPathNode
  deriving DecidableEq

structure SerializedTree where
  rootHash : String
  leaves : List SerializedLeaf
  deriving DecidableEq

/-- A word as `0x` and its 64 hex digits. -/
def hexText (word : Bytes32) : String :=
  "0x" ++ String.ofList (Hex.encode word.bytes)

def serializePathNode (step : PathStep) : SerializedPathNode :=
  { hash := hexText step.sibling.hash
    sum := toString step.sibling.sum.val
    siblingIsLeft := step.siblingIsLeft }

def serializeLeaf (idHash : Bytes32) (balance : U128) (path : List PathStep) : SerializedLeaf :=
  { idHash := hexText idHash
    balance := toString balance.val
    path := path.map serializePathNode }

/-- `serialize_tree`: each real customer's leaf and inclusion path. An index out
of range panics. -/
def serializeTree {hash4 : Hash4} (tree : MerkleSumTree hash4) (w : Witness)
    (rootHash : Bytes32) : Option SerializedTree :=
  ((List.range w.leafBalances.length).mapM fun i => do
    let path ← tree.inclusionPath i
    let idHash ← w.leafIds[i]?
    let balance ← w.leafBalances[i]?
    pure (serializeLeaf idHash balance path)).map fun leaves =>
      { rootHash := hexText rootHash
        leaves := leaves }

namespace SerializedPathNode

/-- The JSON written by the derived `Serialize`. -/
def toJson (node : SerializedPathNode) : Json :=
  .object [("hash", .string node.hash), ("sum", .string node.sum),
    ("sibling_is_left", .bool node.siblingIsLeft)]

end SerializedPathNode

namespace SerializedLeaf

def toJson (leaf : SerializedLeaf) : Json :=
  .object [("id_hash", .string leaf.idHash), ("balance", .string leaf.balance),
    ("path", .array (leaf.path.map SerializedPathNode.toJson))]

end SerializedLeaf

namespace SerializedTree

def toJson (tree : SerializedTree) : Json :=
  .object [("root_hash", .string tree.rootHash),
    ("leaves", .array (tree.leaves.map SerializedLeaf.toJson))]

end SerializedTree

/-! ## The prover's inputs -/

/-- The key/value table of `Prover.toml`; every value is a quoted string. -/
structure ProverToml where
  R : String
  rootH : String
  L : String
  RPrev : String
  leafIds : List String
  leafBalances : List String
  reserves : List String
  merklePaths : List (List String)

/-- Pad a list to a length, as the `while … push` loops do. -/
def padTo {α : Type} (length : Nat) (filler : α) (items : List α) : List α :=
  items ++ List.replicate (length - items.length) filler

/-- `write_prover_toml`. -/
def proverToml (w : Witness) (r l : U128) (rootHash : Bytes32) : ProverToml :=
  { R := toString r.val
    rootH := hexText rootHash
    L := toString l.val
    RPrev := toString w.prevReserves.val
    leafIds := padTo N "0x0" (w.leafIds.map hexText)
    leafBalances := padTo N "0" (w.leafBalances.map fun balance => toString balance.val)
    reserves := padTo M "0" (w.reserves.map fun figure => toString figure.val)
    merklePaths := List.replicate N (List.replicate DEPTH "0") }

/-! ## `Prover::prove` -/

/-- `iter().sum()` with overflow checks on. -/
def checkedSum (figures : List U128) : Option U128 :=
  figures.foldlM checkedAdd 0

/-- `[0u8; 32]`. -/
def zeroWord : Bytes32 :=
  BytesN.ofNat 32 0

/-- The customers of a witness, padded with `(0, 0)` to the circuit's width. -/
def paddedCustomers (w : Witness) : List (Bytes32 × U128) :=
  padTo N (zeroWord, 0) (w.leafIds.zip w.leafBalances)

/-- The leaf layer of a witness. -/
def paddedLeaves (hash4 : Hash4) (w : Witness) : List Node :=
  (paddedCustomers w).map fun customer => Node.leaf hash4 customer.1 customer.2

/-- What `prove` has in hand when it calls the external tools. -/
structure Assembled where
  rootHash : Bytes32
  reservesTotal : U128
  liabilitiesTotal : U128
  serializedTree : SerializedTree
  toml : ProverToml

/-- `Prover::prove` up to the locked section. -/
def assemble (hash4 : Hash4) (w : Witness) : Option (Except ProvingError Assembled) :=
  if w.leafIds.length ≠ w.leafBalances.length then
    some (.error (.witnessAssembly "leaf_ids and leaf_balances length mismatch"))
  else if w.leafBalances = [] then
    some (.error (.witnessAssembly "at least one customer is required"))
  else if w.leafBalances.length > N then
    some (.error (.witnessAssembly ("at most " ++ toString N ++ " customers supported")))
  else if w.reserves.length > M then
    some (.error (.witnessAssembly ("at most " ++ toString M ++ " reserve figures supported")))
  else
    (checkedSum w.leafBalances).bind fun liabilitiesTotal =>
    (checkedSum w.reserves).bind fun reservesTotal =>
      if reservesTotal < liabilitiesTotal then
        some (.error (.witnessAssembly ("insolvent: reserves " ++ toString reservesTotal.val ++
          " < liabilities " ++ toString liabilitiesTotal.val)))
      else
        (MerkleSumTree.build hash4 (paddedLeaves hash4 w)).bind fun tree =>
        (serializeTree tree w tree.root.hash).map fun serializedTree =>
          .ok {
            rootHash := tree.root.hash
            reservesTotal := reservesTotal
            liabilitiesTotal := liabilitiesTotal
            serializedTree := serializedTree
            toml := proverToml w reservesTotal liabilitiesTotal tree.root.hash }

structure ProofBundle where
  proof : List UInt8
  rootHash : Bytes32
  reservesTotal : U128
  liabilitiesTotal : U128
  prevReserves : U128
  serializedTree : SerializedTree
  deriving DecidableEq

/-- The locked section: write `Prover.toml`, run `nargo` and `bb`, read the
proof. -/
abbrev Tools : Type :=
  ProverToml → Except ProvingError (List UInt8)

/-- `Prover::prove`. -/
def prove (hash4 : Hash4) (tools : Tools) (w : Witness) :
    Option (Except ProvingError ProofBundle) :=
  (assemble hash4 w).map fun assembled? => do
    let assembled ← assembled?
    let proof ← tools assembled.toml
    pure {
      proof := proof
      rootHash := assembled.rootHash
      reservesTotal := assembled.reservesTotal
      liabilitiesTotal := assembled.liabilitiesTotal
      prevReserves := w.prevReserves
      serializedTree := assembled.serializedTree }

/-! ## What the checks give -/

/-- A checked sum succeeds exactly with the exact total. -/
theorem checkedSum_eq_some_iff {figures : List U128} {total : U128} :
    checkedSum figures = some total ↔ (figures.map Fin.val).sum = total.val := by
  suffices general : ∀ start : U128, figures.foldlM checkedAdd start = some total ↔
      start.val + (figures.map Fin.val).sum = total.val by
    simpa [checkedSum] using general 0
  induction figures with
  | nil => simp [Fin.ext_iff]
  | cons figure figures ih =>
      intro start
      rw [List.foldlM_cons, checkedAdd]
      by_cases fits : start.val + figure.val < 2 ^ 128
      · rw [dif_pos fits]
        simp only [Option.bind_eq_bind, Option.bind_some, ih, List.map_cons, List.sum_cons]
        omega
      · rw [dif_neg fits]
        have total_lt := total.isLt
        simp only [Option.bind_eq_bind, Option.bind_none, reduceCtorEq, List.map_cons,
          List.sum_cons, false_iff]
        omega

theorem length_padTo {α : Type} {length : Nat} (filler : α) {items : List α}
    (fits : items.length ≤ length) : (padTo length filler items).length = length := by
  simp [padTo, fits]

theorem padTo_map {α β : Type} (f : α → β) (length : Nat) (filler : α) (items : List α) :
    (padTo length filler items).map f = padTo length (f filler) (items.map f) := by
  simp [padTo]

/-- A witness that passes the checks of `prove`. -/
structure Witness.Checked (w : Witness) : Prop where
  length_eq : w.leafIds.length = w.leafBalances.length
  nonempty : w.leafBalances ≠ []
  customers_le : w.leafBalances.length ≤ N
  reserves_le : w.reserves.length ≤ M

/-- The exact total of the balances of a witness. -/
def Witness.liabilities (w : Witness) : Nat :=
  (w.leafBalances.map Fin.val).sum

/-- The exact total of the reserve figures of a witness. -/
def Witness.assets (w : Witness) : Nat :=
  (w.reserves.map Fin.val).sum

theorem length_paddedCustomers {w : Witness} (checked : w.Checked) :
    (paddedCustomers w).length = N := by
  have customers_le := checked.customers_le
  apply length_padTo _
  simp [checked.length_eq, customers_le]

theorem length_paddedLeaves (hash4 : Hash4) {w : Witness} (checked : w.Checked) :
    (paddedLeaves hash4 w).length = N := by
  rw [paddedLeaves, List.length_map, length_paddedCustomers checked]

theorem paddedLeaves_ne_nil (hash4 : Hash4) {w : Witness} (checked : w.Checked) :
    paddedLeaves hash4 w ≠ [] := by
  intro empty
  have length_eq := length_paddedLeaves hash4 checked
  rw [empty] at length_eq
  cases length_eq

/-- A real customer in the padded list. -/
theorem getElem?_paddedCustomers {w : Witness} {index : Nat} {idHash : Bytes32} {balance : U128}
    (id_found : w.leafIds[index]? = some idHash)
    (balance_found : w.leafBalances[index]? = some balance) :
    (paddedCustomers w)[index]? = some (idHash, balance) := by
  have zipped : (w.leafIds.zip w.leafBalances)[index]? = some (idHash, balance) := by
    rw [List.getElem?_zip_eq_some]
    exact ⟨id_found, balance_found⟩
  have bound := (List.getElem?_eq_some_iff.mp zipped).1
  rw [paddedCustomers, padTo, List.getElem?_append_left bound, zipped]

/-- The leaf of a real customer in the padded layer. -/
theorem getElem?_paddedLeaves (hash4 : Hash4) {w : Witness} {index : Nat} {idHash : Bytes32}
    {balance : U128} (id_found : w.leafIds[index]? = some idHash)
    (balance_found : w.leafBalances[index]? = some balance) :
    (paddedLeaves hash4 w)[index]? = some (Node.leaf hash4 idHash balance) := by
  rw [paddedLeaves, List.getElem?_map, getElem?_paddedCustomers id_found balance_found]
  rfl

/-- Serializing writes one leaf for each customer, with the path of its index. -/
theorem exists_serializeTree {hash4 : Hash4} {w : Witness} (checked : w.Checked)
    {tree : MerkleSumTree hash4}
    (built : MerkleSumTree.build hash4 (paddedLeaves hash4 w) = some tree)
    (rootHash : Bytes32) :
    ∃ serialized, serializeTree tree w rootHash = some serialized ∧
      serialized.rootHash = hexText rootHash ∧
      ∀ {index : Nat} {idHash : Bytes32} {balance : U128},
        w.leafIds[index]? = some idHash → w.leafBalances[index]? = some balance →
        ∃ path, tree.inclusionPath index = some path ∧
          serialized.leaves[index]? = some (serializeLeaf idHash balance path) := by
  have leaf_at (index : Nat) (bound : index < w.leafBalances.length) :
      ∃ idHash balance path, w.leafIds[index]? = some idHash ∧
        w.leafBalances[index]? = some balance ∧ tree.inclusionPath index = some path := by
    have id_bound : index < w.leafIds.length := checked.length_eq ▸ bound
    have id_found := List.getElem?_eq_getElem id_bound
    have balance_found := List.getElem?_eq_getElem bound
    obtain ⟨path, path_eq, _⟩ := exists_inclusionPath built
      (getElem?_paddedLeaves hash4 id_found balance_found)
    exact ⟨_, _, path, id_found, balance_found, path_eq⟩
  choose! idHash balance path id_found balance_found path_found using leaf_at
  refine ⟨⟨hexText rootHash, (List.range w.leafBalances.length).map fun index =>
    serializeLeaf (idHash index) (balance index) (path index)⟩, ?_, rfl, ?_⟩
  · rw [serializeTree, Option.map_eq_some_iff]
    refine ⟨_, mapM_eq_some_iff.mpr ?_, rfl⟩
    rw [List.map_map]
    refine List.map_congr_left fun index mem => ?_
    have bound := List.mem_range.mp mem
    simp [id_found index bound, balance_found index bound, path_found index bound]
  · intro index someId someBalance someId_found someBalance_found
    have bound := (List.getElem?_eq_some_iff.mp someBalance_found).1
    have id_eq : idHash index = someId :=
      Option.some_inj.mp ((id_found index bound).symm.trans someId_found)
    have balance_eq : balance index = someBalance :=
      Option.some_inj.mp ((balance_found index bound).symm.trans someBalance_found)
    refine ⟨path index, path_found index bound, ?_⟩
    rw [List.getElem?_map, List.getElem?_range bound, ← id_eq, ← balance_eq]
    rfl

/-- `prove` reaches its locked section exactly on a checked witness whose exact
totals fit a `u128` and whose assets cover its liabilities; it never panics
after that. -/
theorem assemble_eq_ok_iff {hash4 : Hash4} {w : Witness} {assembled : Assembled} :
    assemble hash4 w = some (.ok assembled) ↔
      w.Checked ∧ w.liabilities = assembled.liabilitiesTotal.val ∧
      w.assets = assembled.reservesTotal.val ∧ w.liabilities ≤ w.assets ∧
      ∃ tree, MerkleSumTree.build hash4 (paddedLeaves hash4 w) = some tree ∧
        assembled.rootHash = tree.root.hash ∧
        serializeTree tree w tree.root.hash = some assembled.serializedTree ∧
        assembled.toml = proverToml w assembled.reservesTotal assembled.liabilitiesTotal
          tree.root.hash := by
  unfold assemble
  by_cases checked : w.Checked
  · rw [if_neg (not_not.mpr checked.length_eq), if_neg checked.nonempty,
      if_neg (Nat.not_lt.mpr checked.customers_le), if_neg (Nat.not_lt.mpr checked.reserves_le)]
    simp only [Option.bind_eq_some_iff, checkedSum_eq_some_iff, Witness.liabilities,
      Witness.assets, checked, true_and]
    constructor
    · rintro ⟨l, l_eq, r, r_eq, rest⟩
      split at rest
      · cases rest
      · rename_i covered
        simp only [Option.bind_eq_some_iff, Option.map_eq_some_iff, Except.ok.injEq] at rest
        obtain ⟨tree, built, serialized, serialized_eq, rfl⟩ := rest
        exact ⟨l_eq, r_eq, by rw [l_eq, r_eq]; exact Nat.not_lt.mp covered, tree, built, rfl,
          serialized_eq, rfl⟩
    · rintro ⟨l_eq, r_eq, covered, tree, built, root_eq, serialized_eq, toml_eq⟩
      refine ⟨_, l_eq, _, r_eq, ?_⟩
      rw [l_eq, r_eq] at covered
      rw [if_neg (Fin.not_lt.mpr (Fin.le_def.mpr covered))]
      simp only [Option.bind_eq_some_iff, Option.map_eq_some_iff, Except.ok.injEq]
      refine ⟨tree, built, _, serialized_eq, ?_⟩
      cases assembled
      simp_all
  · constructor
    · intro result
      exfalso
      apply checked
      split at result
      · cases result
      split at result
      · cases result
      split at result
      · cases result
      split at result
      · cases result
      rename_i length_eq nonempty customers_le reserves_le
      exact ⟨not_not.mp length_eq, nonempty, Nat.not_lt.mp customers_le,
        Nat.not_lt.mp reserves_le⟩
    · rintro ⟨passed, _⟩
      exact absurd passed checked

/-- A bundle carries what was assembled, with the proof that the tools produced. -/
theorem exists_assembled_of_prove {hash4 : Hash4} {tools : Tools} {w : Witness}
    {bundle : ProofBundle} (proved : prove hash4 tools w = some (.ok bundle)) :
    ∃ assembled proof, assemble hash4 w = some (.ok assembled) ∧
      tools assembled.toml = .ok proof ∧
      bundle = ⟨proof, assembled.rootHash, assembled.reservesTotal, assembled.liabilitiesTotal,
        w.prevReserves, assembled.serializedTree⟩ := by
  obtain ⟨assembled?, accepted, bundle_eq⟩ := Option.map_eq_some_iff.mp proved
  cases assembled? with
  | error err => cases bundle_eq
  | ok assembled =>
      cases tooled : tools assembled.toml with
      | error err => simp [tooled, bind, Except.bind] at bundle_eq
      | ok proof =>
          simp only [tooled, bind, Except.bind, pure, Except.pure, Except.ok.injEq] at bundle_eq
          exact ⟨assembled, proof, accepted, tooled, bundle_eq.symm⟩

theorem exists_assemble (hash4 : Hash4) {w : Witness} (checked : w.Checked)
    (covered : w.liabilities ≤ w.assets) (fits : w.assets < 2 ^ 128) :
    ∃ assembled, assemble hash4 w = some (.ok assembled) ∧
      w.assets = assembled.reservesTotal.val := by
  obtain ⟨tree, built, _, _⟩ := exists_build hash4 (paddedLeaves_ne_nil hash4 checked)
  obtain ⟨serialized, serialized_eq, _⟩ := exists_serializeTree checked built tree.root.hash
  let r : U128 := ⟨w.assets, fits⟩
  let l : U128 := ⟨w.liabilities, Nat.lt_of_le_of_lt covered fits⟩
  exact ⟨⟨tree.root.hash, r, l, serialized, proverToml w r l tree.root.hash⟩,
    assemble_eq_ok_iff.mpr ⟨checked, rfl, rfl, covered, tree, built, rfl, serialized_eq, rfl⟩,
    rfl⟩

end Solva.Prover
