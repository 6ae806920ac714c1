import Solva.Circuit.TreeParity
import Solva.Prover.Service

/-!
# Which honest requests the circuit accepts

The prover writes its inputs as text and `nargo` reads them back as field
elements, rejecting any at or above the modulus. For a request that passes the
prover's checks and is solvent and within the growth bound, everything the circuit
asserts holds, except that its growth check multiplies in `u64`: the circuit
accepts exactly when `11 * prev_reserves` fits and every id is canonical.
-/

namespace Solva.Prover

open Bn254 SumTree Codec Circuit

/-! ## Reading `Prover.toml` -/

/-- A `Field` input: hexadecimal behind `0x`, else decimal, below the modulus. -/
def noirField? (text : String) : Option Fr :=
  let value? :=
    match text.toList with
    | '0' :: 'x' :: digits => Hex.number? digits
    | digits => Decimal.unsigned? digits
  value?.bind fun value => if value < p then some (value : Fr) else none

/-- An array input has exactly the declared length. -/
def noirArray? {α : Type} (n : Nat) (items : List α) : Option (Fin n → α) :=
  if length_eq : items.length = n then some fun i => items.get (i.cast length_eq.symm)
  else none

def noirFields? (n : Nat) (texts : List String) : Option (Fin n → Fr) :=
  (texts.mapM noirField?).bind (noirArray? n)

/-- The circuit's inputs from the table. -/
def readInputs (toml : ProverToml) : Option (Circuit.PublicInputs × PrivateInputs) := do
  let r ← noirField? toml.R
  let rootH ← noirField? toml.rootH
  let l ← noirField? toml.L
  let rPrev ← noirField? toml.RPrev
  let leafIds ← noirFields? 8 toml.leafIds
  let leafBalances ← noirFields? 8 toml.leafBalances
  let merklePaths ← (toml.merklePaths.mapM (noirFields? 3)).bind (noirArray? 8)
  let reserves ← noirFields? 4 toml.reserves
  pure (⟨r, rootH, l, rPrev⟩, ⟨leafIds, leafBalances, merklePaths, reserves⟩)

/-- `nargo execute`: `none` when an input does not read. -/
def nargoExecute (hash4 : Hash4) (toml : ProverToml) : Option (Except String Unit) :=
  (readInputs toml).map fun inputs => main hash4 inputs.1 inputs.2

/-- A decimal rendering reads back below the modulus. -/
theorem noirField?_toString (n : Nat) :
    noirField? (toString n) = if n < p then some (n : Fr) else none := by
  have read : Decimal.unsigned? (toString n).toList = some n := Decimal.unsigned?_repr n
  have digits := (Decimal.unsigned?_eq_some_iff.mp read).2.1
  unfold noirField?
  split
  · rename_i rest text_eq
    exact absurd (digits 'x' (by rw [text_eq]; simp)) (by decide)
  · rw [read]
    rfl

/-- A hex rendering reads back exactly when the word is canonical. -/
theorem noirField?_hexText (word : Bytes32) :
    noirField? (hexText word) =
      if Canonical word then some (fromBeBytesModOrder word) else none := by
  have nonempty : word.bytes ≠ [] := by
    intro empty
    have length_eq := word.length_eq
    rw [empty] at length_eq
    cases length_eq
  have text_eq : (hexText word).toList = '0' :: 'x' :: Hex.encode word.bytes := by
    simp [hexText]
  unfold noirField?
  rw [text_eq]
  simp only [Hex.number?_encode nonempty, Option.bind_some]
  rfl

theorem noirArray?_eq_some_iff {α : Type} {n : Nat} {items : List α} {array : Fin n → α} :
    noirArray? n items = some array ↔ items = List.ofFn array := by
  unfold noirArray?
  by_cases length_eq : items.length = n
  · subst length_eq
    rw [dif_pos rfl, Option.some_inj]
    constructor
    · rintro rfl
      exact (List.ofFn_get items).symm
    · intro items_eq
      exact List.ofFn_injective (by simpa using items_eq)
  · rw [dif_neg length_eq]
    constructor
    · intro failed
      cases failed
    · rintro rfl
      exact absurd List.length_ofFn length_eq

theorem noirFields?_eq_some_iff {n : Nat} {texts : List String} {fields : Fin n → Fr} :
    noirFields? n texts = some fields ↔
      texts.map noirField? = (List.ofFn fields).map some := by
  simp only [noirFields?, Option.bind_eq_some_iff, mapM_eq_some_iff, noirArray?_eq_some_iff]
  exact ⟨fun ⟨_, read, array⟩ => array ▸ read, fun read => ⟨_, read, rfl⟩⟩

/-! ## The padded witness -/

theorem exists_ofFn {α : Type} {n : Nat} {items : List α} (length_eq : items.length = n) :
    ∃ array : Fin n → α, items = List.ofFn array := by
  subst length_eq
  exact ⟨items.get, (List.ofFn_get items).symm⟩

theorem map_fst_paddedCustomers {w : Witness} (checked : w.Checked) :
    (paddedCustomers w).map Prod.fst = padTo N zeroWord w.leafIds := by
  rw [paddedCustomers, padTo_map, List.map_fst_zip checked.length_eq.le]

theorem map_snd_paddedCustomers {w : Witness} (checked : w.Checked) :
    (paddedCustomers w).map Prod.snd = padTo N 0 w.leafBalances := by
  rw [paddedCustomers, padTo_map, List.map_snd_zip checked.length_eq.ge]

theorem mem_padTo {α : Type} {length : Nat} {filler item : α} {items : List α}
    (mem : item ∈ padTo length filler items) : item ∈ items ∨ item = filler := by
  rcases List.mem_append.mp mem with mem | mem
  · exact Or.inl mem
  · exact Or.inr (List.eq_of_mem_replicate mem)

/-- The padded arrays of a witness, as the circuit's types hold them. -/
structure Padded (w : Witness) where
  ids : Fin 8 → Bytes32
  balances : Fin 8 → U64
  figures : Fin 4 → U64
  ids_eq : padTo N zeroWord w.leafIds = List.ofFn ids
  balances_eq : padTo N 0 w.leafBalances = List.ofFn fun i => balanceU128 (balances i)
  figures_eq : padTo M 0 w.reserves = List.ofFn fun i => balanceU128 (figures i)

private theorem exists_u64_array {n : Nat} {amounts : List U128} (fits : amounts.length ≤ n)
    (small : ∀ amount ∈ amounts, amount.val < 2 ^ 64) :
    ∃ array : Fin n → U64, padTo n 0 amounts = List.ofFn fun i => balanceU128 (array i) := by
  obtain ⟨wide, wide_eq⟩ := exists_ofFn (length_padTo (0 : U128) fits)
  have wide_small (i : Fin n) : (wide i).val < 2 ^ 64 := by
    have mem : wide i ∈ padTo n 0 amounts := wide_eq ▸ List.mem_ofFn.mpr ⟨i, rfl⟩
    rcases mem_padTo mem with mem | zero
    · exact small _ mem
    · rw [zero]
      decide
  exact ⟨fun i => ⟨(wide i).val, wide_small i⟩, wide_eq⟩

theorem exists_padded {w : Witness} (validated : w.Validated) : Nonempty (Padded w) := by
  have ids_le : w.leafIds.length ≤ N := validated.length_eq ▸ validated.customers_le
  obtain ⟨ids, ids_eq⟩ := exists_ofFn (length_padTo zeroWord ids_le)
  obtain ⟨balances, balances_eq⟩ :=
    exists_u64_array validated.customers_le validated.balances_u64
  obtain ⟨figures, figures_eq⟩ :=
    exists_u64_array validated.reserves_le validated.reserves_u64
  exact ⟨ids, balances, figures, ids_eq, balances_eq, figures_eq⟩

namespace Padded

variable {w : Witness} (padded : Padded w)

/-- The customers of the padded witness. -/
def customer (i : Fin (2 ^ 3)) : Customer :=
  (fromBeBytesModOrder (padded.ids i), padded.balances i)

/-- The private inputs of the padded witness. -/
def privateInputs : PrivateInputs :=
  { leafIds := fun i => fromBeBytesModOrder (padded.ids i)
    leafBalances := fun i => asField (padded.balances i)
    merklePaths := fun _ _ => 0
    reserves := fun i => asField (padded.figures i) }

/-- The prover's leaf layer is that of the padded customers: hashing reads an id
modulo the field. -/
theorem paddedLeaves_eq (hash4 : Hash4) (checked : w.Checked) :
    paddedLeaves hash4 w = List.ofFn fun i => proverLeaf hash4 (padded.customer i) := by
  have customers_eq : paddedCustomers w =
      List.ofFn fun i => (padded.ids i, balanceU128 (padded.balances i)) := by
    rw [List.zip_of_prod (map_fst_paddedCustomers checked) (map_snd_paddedCustomers checked),
      padded.ids_eq, padded.balances_eq]
    apply List.ext_getElem?
    intro index
    by_cases bound : index < 8 <;> simp [bound]
  rw [paddedLeaves, customers_eq, List.map_ofFn]
  refine congrArg List.ofFn (funext fun i => ?_)
  simp [proverLeaf, customer, Node.leaf, poseidon2HashFour]

theorem sum_balances : ∑ i, (padded.balances i).val = w.liabilities := by
  have sum_eq := congrArg (fun amounts => (amounts.map Fin.val).sum) padded.balances_eq
  simp only [List.map_ofFn, List.sum_ofFn] at sum_eq
  simpa [padTo, Witness.liabilities] using sum_eq.symm

theorem sum_figures : ∑ i, (padded.figures i).val = w.assets := by
  have sum_eq := congrArg (fun amounts => (amounts.map Fin.val).sum) padded.figures_eq
  simp only [List.map_ofFn, List.sum_ofFn] at sum_eq
  simpa [padTo, Witness.assets] using sum_eq.symm

end Padded

/-! ## Reading back what was written -/

private theorem noirFields?_amounts {n : Nat} {amounts : List U128} {array : Fin n → U64}
    (array_eq : padTo n 0 amounts = List.ofFn fun i => balanceU128 (array i)) :
    noirFields? n (padTo n "0" (amounts.map fun amount => toString amount.val)) =
      some fun i => asField (array i) := by
  have rendered : padTo n "0" (amounts.map fun amount => toString amount.val) =
      (padTo n 0 amounts).map fun amount => toString amount.val :=
    (padTo_map (fun amount : U128 => toString amount.val) n 0 amounts).symm
  rw [noirFields?_eq_some_iff, rendered, array_eq, List.map_ofFn, List.map_ofFn, List.map_ofFn]
  congr 1
  funext i
  exact (noirField?_toString _).trans (if_pos (U128.val_lt_p _))

private theorem noirFields?_ids {w : Witness} (padded : Padded w) :
    noirFields? 8 (padTo N "0x0" (w.leafIds.map hexText)) =
      if ∀ id ∈ w.leafIds, Canonical id then
        some fun i => fromBeBytesModOrder (padded.ids i)
      else none := by
  have read : (padTo N "0x0" (w.leafIds.map hexText)).map noirField? =
      List.ofFn fun i => noirField? (hexText (padded.ids i)) := by
    have zero_eq : noirField? "0x0" = noirField? (hexText zeroWord) := by decide +kernel
    rw [padTo_map, zero_eq, List.map_map]
    calc padTo N (noirField? (hexText zeroWord)) (w.leafIds.map (noirField? ∘ hexText))
        = (padTo N zeroWord w.leafIds).map (noirField? ∘ hexText) := (padTo_map _ _ _ _).symm
      _ = _ := by rw [padded.ids_eq, List.map_ofFn]; rfl
  split
  · rename_i canonical
    rw [noirFields?_eq_some_iff, read, List.map_ofFn]
    congr 1
    funext i
    have mem : padded.ids i ∈ padTo N zeroWord w.leafIds :=
      padded.ids_eq ▸ List.mem_ofFn.mpr ⟨i, rfl⟩
    have id_canonical : Canonical (padded.ids i) := by
      rcases mem_padTo mem with mem | zero
      · exact canonical _ mem
      · rw [zero]
        decide
    rw [noirField?_hexText, if_pos id_canonical]
    rfl
  · rename_i notCanonical
    rw [Option.eq_none_iff_forall_ne_some]
    intro fields fields_eq
    apply notCanonical
    intro id mem
    by_contra id_notCanonical
    have texts_read := noirFields?_eq_some_iff.mp fields_eq
    have text_mem : hexText id ∈ padTo N "0x0" (w.leafIds.map hexText) :=
      List.mem_append_left _ (List.mem_map_of_mem mem)
    have none_mem : none ∈ (List.ofFn fields).map some := by
      rw [← texts_read, List.mem_map]
      exact ⟨_, text_mem, by rw [noirField?_hexText, if_neg id_notCanonical]⟩
    simp at none_mem

/-- What `nargo` reads from the written table: the exact numbers, unless an id is
not canonical. -/
theorem readInputs_proverToml {w : Witness} (padded : Padded w) (r l : U128) (rootHash : Fr) :
    readInputs (proverToml w r l (frToBytes rootHash)) =
      if ∀ id ∈ w.leafIds, Canonical id then
        some (⟨frOfU128 r, rootHash, frOfU128 l, frOfU128 w.prevReserves⟩, padded.privateInputs)
      else none := by
  have amount (v : U128) : noirField? (toString v.val) = some (frOfU128 v) :=
    (noirField?_toString _).trans (if_pos (U128.val_lt_p v))
  have root : noirField? (hexText (frToBytes rootHash)) = some rootHash := by
    rw [noirField?_hexText, if_pos (canonical_frToBytes rootHash), fromBeBytesModOrder_frToBytes]
  have paths : ((List.replicate N (List.replicate DEPTH "0")).mapM (noirFields? 3)).bind
      (noirArray? 8) = some fun _ _ => 0 := by
    have row : noirFields? 3 (List.replicate DEPTH "0") = some fun _ => 0 := by
      rw [noirFields?_eq_some_iff]
      decide +kernel
    simp only [Option.bind_eq_some_iff, mapM_eq_some_iff, noirArray?_eq_some_iff]
    refine ⟨List.replicate 8 fun _ => 0, ?_, by simp⟩
    rw [List.map_replicate, List.map_replicate, row]
    rfl
  have balances : noirFields? 8 (padTo N "0" (w.leafBalances.map fun b => toString b.val)) =
      some fun i => asField (padded.balances i) := noirFields?_amounts padded.balances_eq
  have figures : noirFields? 4 (padTo M "0" (w.reserves.map fun r => toString r.val)) =
      some fun i => asField (padded.figures i) := noirFields?_amounts padded.figures_eq
  simp only [readInputs, proverToml, amount, root, paths, balances, figures,
    noirFields?_ids padded, Option.bind_eq_bind, Option.bind_some]
  split <;> rfl

/-! ## Acceptance -/

/-- On the inputs of an accepted witness the circuit asserts nothing beyond its
growth check, whose two products must fit a `u64`. -/
theorem main_padded_ok_iff {hash4 : Hash4} {w : Witness} {assembled : Assembled}
    (padded : Padded w) (accepted : assemble hash4 w = some (.ok assembled))
    (prev_u64 : w.prevReserves.val < 2 ^ 64) (reserves_u64 : w.assets < 2 ^ 64) :
    main hash4
        ⟨frOfU128 assembled.reservesTotal, fromBeBytesModOrder assembled.rootHash,
          frOfU128 assembled.liabilitiesTotal, frOfU128 w.prevReserves⟩
        padded.privateInputs = .ok () ↔
      10 * w.assets < 2 ^ 64 ∧ 11 * w.prevReserves.val < 2 ^ 64 ∧
        10 * w.assets ≤ 11 * w.prevReserves.val := by
  obtain ⟨checked, liabilities_eq, assets_eq, covered, tree, built, root_eq, _, _⟩ :=
    assemble_eq_ok_iff.mp accepted
  have liabilities_u64 : w.liabilities < 2 ^ 64 := Nat.lt_of_le_of_lt covered reserves_u64
  obtain ⟨otherTree, root, otherBuilt, computed, same⟩ := exists_sameNode_root hash4 padded.customer
    (Nat.lt_trans (padded.sum_balances ▸ liabilities_u64) (by decide))
  rw [← padded.paddedLeaves_eq hash4 checked, built, Option.some_inj] at otherBuilt
  subst otherBuilt
  have root_ok : computeRoot (N := 2 ^ 3) hash4 3 padded.privateInputs.leafIds
      padded.privateInputs.leafBalances =
        .ok ⟨fromBeBytesModOrder assembled.rootHash, frOfU128 assembled.liabilitiesTotal⟩ := by
    have sum_eq : ∑ i, (padded.customer i).2.val = assembled.liabilitiesTotal.val :=
      padded.sum_balances.trans liabilities_eq
    rw [root_eq, same.hash_eq, fromBeBytesModOrder_frToBytes, frOfU128, ← sum_eq,
      ← same.circuit_sum]
    exact computed
  have balances_ok : checkedTotal padded.privateInputs.leafBalances =
      .ok (frOfU128 assembled.liabilitiesTotal) := by
    refine checkedTotal_eq_ok_iff.mpr ⟨fun i => ?_, ?_⟩
    · exact (asField_val (padded.balances i)).trans_lt (padded.balances i).isLt
    · rw [frOfU128, ← liabilities_eq, ← padded.sum_balances, Nat.cast_sum]
      rfl
  have figures_ok : checkedTotal padded.privateInputs.reserves =
      .ok (frOfU128 assembled.reservesTotal) := by
    refine checkedTotal_eq_ok_iff.mpr ⟨fun i => ?_, ?_⟩
    · exact (asField_val (padded.figures i)).trans_lt (padded.figures i).isLt
    · rw [frOfU128, ← assets_eq, ← padded.sum_figures, Nat.cast_sum]
      rfl
  rw [main_eq_ok_iff]
  simp only [frOfU128_val, ← assets_eq, ← liabilities_eq]
  constructor
  · rintro ⟨_, _, _, _, _, bounds⟩
    exact bounds
  · intro bounds
    exact ⟨⟨reserves_u64, liabilities_u64, prev_u64⟩, covered, root_ok, balances_ok, figures_ok,
      bounds⟩

/-- What `nargo` runs on the inputs of an accepted witness. -/
theorem nargoExecute_assembled {hash4 : Hash4} {w : Witness} {assembled : Assembled}
    (padded : Padded w) (accepted : assemble hash4 w = some (.ok assembled)) :
    nargoExecute hash4 assembled.toml =
      if ∀ id ∈ w.leafIds, Canonical id then
        some (main hash4
          ⟨frOfU128 assembled.reservesTotal, fromBeBytesModOrder assembled.rootHash,
            frOfU128 assembled.liabilitiesTotal, frOfU128 w.prevReserves⟩
          padded.privateInputs)
      else none := by
  obtain ⟨checked, _, _, _, tree, built, root_eq, _, toml_eq⟩ := assemble_eq_ok_iff.mp accepted
  have canonical : Canonical tree.root.hash := canonical_root built fun leaf mem => by
    obtain ⟨customer, _, rfl⟩ := List.mem_map.mp mem
    exact canonical_leaf hash4 customer.1 customer.2
  rw [toml_eq, root_eq, ← frToBytes_fromBeBytesModOrder canonical, nargoExecute,
    readInputs_proverToml padded, fromBeBytesModOrder_frToBytes]
  split <;> rfl

/-- The circuit accepts a solvent request within the growth bound exactly when
`11 * prev_reserves` fits a `u64` and every id is below the modulus. -/
theorem nargoExecute_ok_iff {hash4 : Hash4} {req : ProveRequest} {w : Witness}
    {assembled : Assembled} (validated : validate req = .ok w)
    (accepted : assemble hash4 w = some (.ok assembled)) (reserves_u64 : w.assets < 2 ^ 64)
    (bounded : 10 * w.assets ≤ 11 * w.prevReserves.val) :
    nargoExecute hash4 assembled.toml = some (.ok ()) ↔
      11 * w.prevReserves.val < 2 ^ 64 ∧ ∀ id ∈ w.leafIds, Canonical id := by
  have dimensions := validated_of_validate validated
  obtain ⟨padded⟩ := exists_padded dimensions
  rw [nargoExecute_assembled padded accepted]
  split
  · rename_i canonical
    rw [Option.some_inj, main_padded_ok_iff padded accepted dimensions.prev_u64 reserves_u64]
    constructor
    · rintro ⟨_, prev_fits, _⟩
      exact ⟨prev_fits, canonical⟩
    · rintro ⟨prev_fits, _⟩
      exact ⟨Nat.lt_of_le_of_lt bounded prev_fits, prev_fits, bounded⟩
  · rename_i notCanonical
    constructor
    · intro impossible
      cases impossible
    · rintro ⟨_, canonical⟩
      exact absurd canonical notCanonical

/-- The demo request of the circuit's tests. -/
def sampleRequest : ProveRequest :=
  { reserves := [⟨"200"⟩, ⟨"200"⟩]
    liabilities := [⟨"0x01", "100"⟩, ⟨"0x02", "260"⟩]
    prevReserves := "400" }

def sampleWitness : Witness :=
  { leafIds := [BytesN.ofNat 32 1, BytesN.ofNat 32 2]
    leafBalances := [100, 260]
    reserves := [200, 200]
    prevReserves := 400 }

theorem nargoExecute_sample :
    ∃ assembled, validate sampleRequest = .ok sampleWitness ∧
      assemble Poseidon2.poseidon2Perm4 sampleWitness = some (.ok assembled) ∧
      nargoExecute Poseidon2.poseidon2Perm4 assembled.toml = some (.ok ()) := by
  have validated : validate sampleRequest = .ok sampleWitness := by decide +kernel
  obtain ⟨assembled, accepted, _⟩ := exists_assemble Poseidon2.poseidon2Perm4
    (validated_of_validate validated).toChecked (by decide) (by decide)
  exact ⟨assembled, validated, accepted, (nargoExecute_ok_iff validated accepted
    (by decide) (by decide)).mpr ⟨by decide, by decide⟩⟩

/-- A request with `10 * reserves` just past `2 ^ 64`. -/
def largeRequest : ProveRequest :=
  { reserves := [⟨"1844674407370955162"⟩]
    liabilities := [⟨"0x01", "1"⟩]
    prevReserves := "1844674407370955162" }

def largeWitness : Witness :=
  { leafIds := [BytesN.ofNat 32 1]
    leafBalances := [1]
    reserves := [1844674407370955162]
    prevReserves := 1844674407370955162 }

/-- Solvent, with zero growth, and turned away by the circuit. -/
theorem nargoExecute_large :
    ∃ assembled, validate largeRequest = .ok largeWitness ∧
      assemble Poseidon2.poseidon2Perm4 largeWitness = some (.ok assembled) ∧
      largeWitness.assets < 2 ^ 64 ∧ largeWitness.liabilities ≤ largeWitness.assets ∧
      10 * largeWitness.assets ≤ 11 * largeWitness.prevReserves.val ∧
      nargoExecute Poseidon2.poseidon2Perm4 assembled.toml ≠ some (.ok ()) := by
  have validated : validate largeRequest = .ok largeWitness := by decide +kernel
  have dimensions := validated_of_validate validated
  obtain ⟨assembled, accepted, _⟩ := exists_assemble Poseidon2.poseidon2Perm4
    dimensions.toChecked (by decide) (by decide)
  obtain ⟨padded⟩ := exists_padded dimensions
  refine ⟨assembled, validated, accepted, by decide, by decide, by decide, ?_⟩
  rw [nargoExecute_assembled padded accepted]
  split
  · intro passed
    have bounds := (main_padded_ok_iff padded accepted dimensions.prev_u64 (by decide)).mp
      (Option.some_inj.mp passed)
    exact absurd bounds.1 (by decide)
  · intro impossible
    cases impossible

end Solva.Prover
