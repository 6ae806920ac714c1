import Solva.Contract.History
import Solva.Verifier.Soundness

/-!
# Copies and public inputs

What the permutation argument adds to rows that satisfy the relations. The labels of a key
number the cells of its circuit, column by column; the permutation takes cells to labels,
and a public input of the call to the label of a cell of the right wire.
-/

namespace Solva.Verifier

open Bn254 Codec Polynomial

section Copies

variable {vk : VerificationKey} {tp : Transcript} {polys : Committed}

/-- An entry of a table. -/
noncomputable def entryAt (polys : Committed) (wire : Wire) (k : Nat) : Fr :=
  (entityPolynomial polys.entity wire.index).coeff k

/-- The wires of a row, each with its labels before and after the permutation. -/
def cellWires : List (Wire × Wire × Wire) :=
  [(.wl, .id1, .sigma1), (.wr, .id2, .sigma2), (.wo, .id3, .sigma3), (.w4, .id4, .sigma4)]

/-- The cells of a circuit with their own labels. -/
noncomputable def idEntries (polys : Committed) (n : Nat) : List (Fr × Fr) :=
  (List.range n).flatMap fun k => cellWires.map fun cell =>
    (entryAt polys cell.1 k, entryAt polys cell.2.1 k)

/-- The cells of a circuit with the labels of the permutation. -/
noncomputable def sigmaEntries (polys : Committed) (n : Nat) : List (Fr × Fr) :=
  (List.range n).flatMap fun k => cellWires.map fun cell =>
    (entryAt polys cell.1 k, entryAt polys cell.2.2 k)

/-- The labels of a circuit count its cells, column by column, and its first and last rows
are marked. -/
structure Numbered (vk : VerificationKey) (polys : Committed) : Prop where
  size : vk.circuitSize.val = 2 ^ vk.logCircuitSize.val
  labels : ∀ j cell, cellWires[j]? = some cell → ∀ k < vk.circuitSize.val,
    entryAt polys cell.2.1 k = ((k + vk.circuitSize.val * j : Nat) : Fr)
  first : ∀ k < vk.circuitSize.val, entryAt polys .lagrangeFirst k = if k = 0 then 1 else 0
  last : ∀ k < vk.circuitSize.val,
    entryAt polys .lagrangeLast k = if k = vk.circuitSize.val - 1 then 1 else 0

/-- On the point of a row stand the entries of the tables. -/
theorem entityRows_point (polys : Committed) (wire : Wire) (bits : List Bool) :
    entityRows polys wire (Opening.point bits) = entryAt polys wire (Opening.index bits) :=
  Opening.extend_point _ bits

theorem satisfies_row {logN : Nat}
    (rows : ∀ x ∈ Sumcheck.cube logN, Satisfies (fun wire => entityRows polys wire x) tp.relParams)
    {k : Nat} (inside : k < 2 ^ logN) :
    Satisfies (fun wire => entryAt polys wire k) tp.relParams := by
  rcases Opening.exists_index inside with ⟨bits, width, rfl⟩
  have row := rows _ (width ▸ Opening.point_mem_cube bits)
  simpa only [entityRows_point] using row

theorem prod_flatMap_map {ι κ M : Type*} [CommMonoid M] (items : List ι) (f : ι → List κ)
    (h : κ → M) :
    ((items.flatMap f).map h).prod = (items.map fun i => ((f i).map h).prod).prod := by
  induction items with
  | nil => rfl
  | cons i items ih =>
      rw [List.flatMap_cons, List.map_append, List.prod_append, ih, List.map_cons, List.prod_cons]

/-- What a satisfied row says about the permutation argument. -/
theorem Satisfies.permutation {R : Type*} [CommRing R] {p : Wire → R} {rp : RelationParameters R}
    (satisfies : Satisfies p rp) :
    (p .zPerm + p .lagrangeFirst) * (cellWires.map fun cell =>
          p cell.1 + p cell.2.1 * rp.beta + rp.gamma).prod =
        (p .zPermShift + p .lagrangeLast * rp.publicInputsDelta) * (cellWires.map fun cell =>
          p cell.1 + p cell.2.2 * rp.beta + rp.gamma).prod ∧
      p .lagrangeLast * p .zPermShift = 0 := by
  have step := satisfies 2 (by decide) (by decide)
  have stop := satisfies 3 (by decide) (by decide)
  simp only [subrelations, accumulateArithmeticRelation, accumulatePermutationRelation,
    List.cons_append, List.nil_append, List.getD_cons_succ, List.getD_cons_zero, mul_one]
    at step stop
  simp only [cellWires, List.map_cons, List.map_nil, List.prod_cons, List.prod_nil, mul_one]
  constructor
  · linear_combination step
  · exact stop

/-- The rows close the product of the fractions. -/
theorem prod_entries (numbered : Numbered vk polys)
    (rows : ∀ x ∈ Sumcheck.cube vk.logCircuitSize.val,
      Satisfies (fun wire => entityRows polys wire x) tp.relParams)
    (start : (polys.entity 31).coeff 0 = 0) :
    ((idEntries polys vk.circuitSize.val).map
        (Permutation.factor tp.relParams.beta tp.relParams.gamma)).prod =
      tp.relParams.publicInputsDelta * ((sigmaEntries polys vk.circuitSize.val).map
        (Permutation.factor tp.relParams.beta tp.relParams.gamma)).prod := by
  have positive : 0 < vk.circuitSize.val := by
    rw [numbered.size]
    exact Nat.two_pow_pos _
  rcases Nat.exists_eq_succ_of_ne_zero positive.ne' with ⟨last, size⟩
  have row {k : Nat} (inside : k ≤ last) :
      Satisfies (fun wire => entryAt polys wire k) tp.relParams := by
    apply satisfies_row rows
    rw [← numbered.size, size]
    exact Nat.lt_succ_of_le inside
  have first {k : Nat} (inside : k ≤ last) :
      entryAt polys .lagrangeFirst k = if k = 0 then 1 else 0 :=
    numbered.first k (size ▸ Nat.lt_succ_of_le inside)
  have final {k : Nat} (inside : k ≤ last) :
      entryAt polys .lagrangeLast k = if k = last then 1 else 0 := by
    have mark := numbered.last k (size ▸ Nat.lt_succ_of_le inside)
    rwa [size, Nat.succ_sub_one] at mark
  have shifted (k : Nat) : entryAt polys .zPermShift k = entryAt polys .zPerm (k + 1) :=
    coeff_divX
  have stop : entryAt polys .zPerm (last + 1) = 0 := by
    have closed := (row (Nat.le_refl last)).permutation.2
    rwa [final (Nat.le_refl last), if_pos rfl, one_mul, shifted] at closed
  have step {k : Nat} (inside : k ≤ last) := (row inside).permutation.1
  rw [idEntries, sigmaEntries, prod_flatMap_map, prod_flatMap_map, size]
  simp only [List.map_map]
  apply Permutation.prod_eq_of_rows start stop
  intro k inside
  have fractions := step inside
  rw [first inside, final inside, shifted, ite_mul, one_mul, zero_mul] at fractions
  exact fractions

/-! ### Labels -/

/-- A number is not the negative of another. -/
theorem natCast_ne_neg {a b : Nat} (positive : 0 < b) (small : a + b < p) :
    (a : Fr) ≠ -(b : Fr) := by
  intro same
  have zero : ((a + b : Nat) : Fr) = ((0 : Nat) : Fr) := by
    rw [Nat.cast_add, same, neg_add_cancel, Nat.cast_zero]
  have sum := (natCast_inj small (Nat.zero_lt_of_lt small)).mp zero
  omega

/-- Behind a label of a cell stands the value of the cell. -/
theorem Numbered.value_of_label (numbered : Numbered vk polys) {inputs : List Fr}
    (small : 4 * vk.circuitSize.val + vk.pubInputsOffset.val + 1 + inputs.length < p)
    {entry : Fr × Fr}
    (mem : entry ∈ idEntries polys vk.circuitSize.val ++ denominatorEntries vk inputs)
    {cell : Wire × Wire × Wire} (cell_mem : cell ∈ cellWires) {l : Nat}
    (inside : l < vk.circuitSize.val) (label : entry.2 = entryAt polys cell.2.1 l) :
    entry.1 = entryAt polys cell.1 l := by
  have column {j : Nat} {cell : Wire × Wire × Wire} (at_j : cellWires[j]? = some cell) : j < 4 :=
    (List.getElem?_eq_some_iff.mp at_j).1
  have bound {j k : Nat} (used : j < 4) (inside : k < vk.circuitSize.val) :
      k + vk.circuitSize.val * j < 4 * vk.circuitSize.val := by
    have product : vk.circuitSize.val * j ≤ vk.circuitSize.val * 3 :=
      Nat.mul_le_mul_left _ (Nat.le_of_lt_succ used)
    omega
  rcases List.mem_iff_getElem?.mp cell_mem with ⟨j, at_j⟩
  have below := bound (column at_j) inside
  rw [numbered.labels j cell at_j l inside] at label
  rcases List.mem_append.mp mem with own | input
  · rcases List.mem_flatMap.mp own with ⟨k, k_mem, cell_entry⟩
    rcases List.mem_map.mp cell_entry with ⟨other, other_mem, rfl⟩
    have inside' := List.mem_range.mp k_mem
    rcases List.mem_iff_getElem?.mp other_mem with ⟨i, at_i⟩
    have below' := bound (column at_i) inside'
    rw [numbered.labels i other at_i k inside'] at label
    have same := (natCast_inj (by omega) (by omega)).mp label
    have rows := congrArg (· % vk.circuitSize.val) same
    have columns := congrArg (· / vk.circuitSize.val) same
    rw [Nat.add_mul_mod_self_left, Nat.add_mul_mod_self_left, Nat.mod_eq_of_lt inside,
      Nat.mod_eq_of_lt inside'] at rows
    rw [Nat.add_mul_div_left _ _ (Nat.zero_lt_of_lt inside),
      Nat.add_mul_div_left _ _ (Nat.zero_lt_of_lt inside), Nat.div_eq_of_lt inside,
      Nat.div_eq_of_lt inside', Nat.zero_add, Nat.zero_add] at columns
    subst rows columns
    rw [at_j, Option.some.injEq] at at_i
    rw [at_i]
  · rcases List.mem_map.mp input with ⟨⟨x, i⟩, x_mem, rfl⟩
    have used : i < inputs.length := by
      have found := List.mem_zipIdx_iff_getElem?.mp x_mem
      exact (List.getElem?_eq_some_iff.mp found).1
    exact absurd label.symm (natCast_ne_neg (by omega) (by dsimp only; omega))

/-! ### Values -/

/-- The cells with their own labels, and the public inputs with labels below all cells. -/
noncomputable def labelled (vk : VerificationKey) (polys : Committed) (inputs : List Fr) :
    Multiset (Fr × Fr) :=
  (idEntries polys vk.circuitSize.val ++ denominatorEntries vk inputs : List (Fr × Fr))

/-- The cells with the labels of the permutation, and the public inputs with labels of cells. -/
noncomputable def permuted (vk : VerificationKey) (polys : Committed) (inputs : List Fr) :
    Multiset (Fr × Fr) :=
  (sigmaEntries polys vk.circuitSize.val ++ numeratorEntries vk inputs : List (Fr × Fr))

/-- The challenges of the permutation argument hit labelled values that were fixed before. -/
def CopiesHit (vk : VerificationKey) (tp : Transcript) (polys : Committed) (inputs : List Fr) :
    Prop :=
  tp.relParams.gamma ∈ Sumcheck.confused
      (Permutation.product tp.relParams.beta (labelled vk polys inputs))
      (Permutation.product tp.relParams.beta (permuted vk polys inputs)) ∨
    Permutation.Mixed tp.relParams.beta (labelled vk polys inputs) (permuted vk polys inputs)

/-- Cells hold the values of the cells that the permutation takes them to, and the right wire
the public inputs. -/
structure Copied (vk : VerificationKey) (polys : Committed) (inputs : List Fr) : Prop where
  cells : ∀ cell ∈ cellWires, ∀ other ∈ cellWires, ∀ k < vk.circuitSize.val,
    ∀ l < vk.circuitSize.val, entryAt polys cell.2.2 k = entryAt polys other.2.1 l →
      entryAt polys cell.1 k = entryAt polys other.1 l
  publicInputs : ∀ i (used : i < inputs.length),
    vk.pubInputsOffset.val + i < vk.circuitSize.val →
      entryAt polys .wr (vk.pubInputsOffset.val + i) = inputs[i]

theorem copied_of_same (numbered : Numbered vk polys) {inputs : List Fr}
    (small : 4 * vk.circuitSize.val + vk.pubInputsOffset.val + 1 + inputs.length < p)
    (same : labelled vk polys inputs = permuted vk polys inputs) : Copied vk polys inputs := by
  have found {value label : Fr}
      (mem : (value, label) ∈ sigmaEntries polys vk.circuitSize.val ++ numeratorEntries vk inputs)
      {cell : Wire × Wire × Wire} (cell_mem : cell ∈ cellWires) {l : Nat}
      (inside : l < vk.circuitSize.val) (at_l : label = entryAt polys cell.2.1 l) :
      value = entryAt polys cell.1 l :=
    numbered.value_of_label small ((Multiset.coe_eq_coe.mp same).mem_iff.mpr mem) cell_mem inside
      at_l
  constructor
  · intro cell cell_mem other other_mem k inside l inside' label
    have mem : (entryAt polys cell.1 k, entryAt polys cell.2.2 k) ∈
        sigmaEntries polys vk.circuitSize.val :=
      List.mem_flatMap.mpr ⟨k, List.mem_range.mpr inside, List.mem_map_of_mem cell_mem⟩
    exact found (List.mem_append_left _ mem) other_mem inside' label
  · intro i used inside
    have mem : (inputs[i], ((vk.circuitSize.val + vk.pubInputsOffset.val + i : Nat) : Fr)) ∈
        numeratorEntries vk inputs :=
      List.mem_map.mpr ⟨(inputs[i], i),
        List.mem_zipIdx_iff_getElem?.mpr (List.getElem?_eq_getElem used), rfl⟩
    have right : (Wire.wr, Wire.id2, Wire.sigma2) ∈ cellWires := by decide
    refine (found (List.mem_append_right _ mem) right inside ?_).symm
    rw [numbered.labels 1 _ rfl _ inside]
    apply congrArg Nat.cast
    rw [Nat.mul_one]
    omega

end Copies

/-! ## From the call to the copies -/

section Calls

variable {G : Type*} [AddCommGroup G] [Module Fr G] {keccak : Keccak} {curve : Curve G} {g : G}
  {τ : Fr} {vk : VerificationKey} {proofBytes publicInputs : List UInt8} {proof : Proof}
  {tp : Transcript} {polys : Committed}

omit [AddCommGroup G] [Module Fr G] in
theorem Accepted.length_lt (accepted : Accepted keccak curve vk proofBytes publicInputs proof tp) :
    4 * vk.circuitSize.val + vk.pubInputsOffset.val + 1 +
      (publicInputsOf proof publicInputs).length < p := by
  have large : 2 ^ 70 < p := by decide +kernel
  have size := vk.publicInputsSize.isLt
  rw [accepted.count] at size
  have bounded := accepted.bounded.1
  rw [publicInputsOf, publicInputWords, List.length_append, List.length_map, length_blocks,
    List.length_ofFn]
  omega

omit [AddCommGroup G] [Module Fr G] in
/-- The factor of the public inputs makes the products over all labels the same. -/
theorem Accepted.products_eq (accepted : Accepted keccak curve vk proofBytes publicInputs proof tp)
    (numbered : Numbered vk polys) (satisfied : Satisfied tp vk.logCircuitSize.val polys) :
    ((labelled vk polys (publicInputsOf proof publicInputs)).map
        (Permutation.factor tp.relParams.beta tp.relParams.gamma)).prod =
      ((permuted vk polys (publicInputsOf proof publicInputs)).map
        (Permutation.factor tp.relParams.beta tp.relParams.gamma)).prod := by
  have cells := prod_entries numbered satisfied.rows (satisfied.start 4 (by decide))
  rw [accepted.delta] at cells
  rw [labelled, permuted, Multiset.map_coe, Multiset.map_coe, Multiset.prod_coe, Multiset.prod_coe,
    List.map_append, List.map_append, List.prod_append, List.prod_append, cells, mul_right_comm,
    inv_mul_cancel_right₀ accepted.denominator, mul_comm]

theorem Accepted.copied_or_mishap
    (accepted : Accepted keccak curve vk proofBytes publicInputs proof tp)
    (lawful : curve.Lawful g τ) (commits : Commits curve g τ proof vk polys)
    (numbered : Numbered vk polys) :
    Satisfied tp vk.logCircuitSize.val polys ∧
        Copied vk polys (publicInputsOf proof publicInputs) ∨
      CopiesHit vk tp polys (publicInputsOf proof publicInputs) ∨
      Mishap τ proof vk tp polys := by
  rcases accepted.satisfied_or_mishap lawful commits with satisfied | mishap
  · rcases Permutation.eq_of_prod_eq (accepted.products_eq numbered satisfied) with same | hit
    · exact Or.inl ⟨satisfied, copied_of_same numbered accepted.length_lt same⟩
    · exact Or.inr (Or.inl hit)
  · exact Or.inr (Or.inr mishap)

/-- Behind an accepted proof for a key that numbers its cells, values are copied as the key
says and the right wire holds the public inputs of the call, or a mishap made it pass. -/
theorem verify_copies (lawful : curve.Lawful g τ) (loaded : loadProof proofBytes = .ok proof)
    (commits : Commits curve g τ proof vk polys) (numbered : Numbered vk polys)
    (accepted : verify keccak curve vk proofBytes publicInputs = some (.ok ())) :
    ∃ tp, Accepted keccak curve vk proofBytes publicInputs proof tp ∧
      (Satisfied tp vk.logCircuitSize.val polys ∧
          Copied vk polys (publicInputsOf proof publicInputs) ∨
        CopiesHit vk tp polys (publicInputsOf proof publicInputs) ∨
        Mishap τ proof vk tp polys) := by
  rcases exists_accepted loaded accepted with ⟨tp, accepted⟩
  exact ⟨tp, accepted, accepted.copied_or_mishap lawful commits numbered⟩

end Calls

theorem entryAt_surplus (wire : Wire) (k : Nat) : entryAt surplusPolys wire k = surplusRow k wire :=
  entityPolynomial_surplus wire k

theorem numbered_surplus : Numbered surplusKey surplusPolys := by
  constructor
  · rfl
  · intro j cell at_j k inside
    have column : j < 4 := (List.getElem?_eq_some_iff.mp at_j).1
    have label : ∀ j < 4, ∀ cell, cellWires[j]? = some cell →
        ∀ k < 32, surplusRow k cell.2.1 = ((k + 32 * j : Nat) : Fr) := by
      decide +kernel
    rw [entryAt_surplus]
    exact label j column cell at_j k inside
  · intro k inside
    rw [entryAt_surplus]
    exact (by decide +kernel :
      ∀ k < 32, surplusRow k .lagrangeFirst = if k = 0 then 1 else 0) k inside
  · intro k inside
    rw [entryAt_surplus]
    exact (by decide +kernel :
      ∀ k < 32, surplusRow k .lagrangeLast = if k = 31 then 1 else 0) k inside

/-- Every public input takes the place of its cell, or of the one in the gate. -/
theorem labelled_surplus :
    labelled surplusKey surplusPolys surplusWords =
      permuted surplusKey surplusPolys surplusWords := by
  simp only [labelled, permuted, idEntries, sigmaEntries, entryAt_surplus]
  rw [Multiset.coe_eq_coe]
  decide +kernel

theorem copied_surplus : Copied surplusKey surplusPolys
    (publicInputsOf surplusProof (Contract.encodePublicInputs surplusInputs)) := by
  rw [publicInputsOf_surplus]
  exact copied_of_same numbered_surplus (by decide +kernel) labelled_surplus

/-- The honest proof about the surplus is one about copied cells. -/
theorem verify_copies_surplus :
    Copied surplusKey surplusPolys
        (publicInputsOf surplusProof (Contract.encodePublicInputs surplusInputs)) ∧
      ∃ tp, Accepted countingKeccak (numeralCurve surplusSecret) surplusKey
          (encodeProof surplusProof) (Contract.encodePublicInputs surplusInputs) surplusProof tp ∧
        (Satisfied tp 5 surplusPolys ∧ Copied surplusKey surplusPolys
            (publicInputsOf surplusProof (Contract.encodePublicInputs surplusInputs)) ∨
          CopiesHit surplusKey tp surplusPolys
            (publicInputsOf surplusProof (Contract.encodePublicInputs surplusInputs)) ∨
          Mishap surplusSecret surplusProof surplusKey tp surplusPolys) :=
  ⟨copied_surplus, verify_copies (lawful_numeralCurve surplusSecret)
    (loadProof_encodeProof surplusProof) commits_surplus numbered_surplus accepted_surplus⟩

/-! ## From the registry to the circuit -/

section Registry

variable {G : Type*} {keccak : Keccak} {curve : Curve G}

theorem publicInputWords_encodePublicInputs (pi : Contract.PubInputs) :
    publicInputWords (Contract.encodePublicInputs pi) =
      [frOfU128 pi.reservesTotal, fromBeBytesModOrder pi.rootHash,
        frOfU128 pi.liabilitiesTotal, frOfU128 pi.prevReserves] := by
  let words : List Bytes32 := [Contract.u128Word pi.reservesTotal, pi.rootHash,
    Contract.u128Word pi.liabilitiesTotal, Contract.u128Word pi.prevReserves]
  have encoded : Contract.encodePublicInputs pi = words.flatMap BytesN.bytes := by
    simp only [words, Contract.encodePublicInputs, List.flatMap_cons, List.flatMap_nil,
      List.append_nil, List.append_assoc]
  have width : (words.flatMap BytesN.bytes).length = 32 * 4 :=
    length_flatMap BytesN.length_eq words
  have split : blocks 32 4 (words.flatMap BytesN.bytes) = words.map BytesN.bytes := by
    have word_at {i : Nat} {word : Bytes32} (at_i : words[i]? = some word) :
        block 32 (words.flatMap BytesN.bytes) i = word.bytes :=
      block_flatMap BytesN.length_eq at_i
    rw [blocks]
    show [block 32 _ 0, block 32 _ 1, block 32 _ 2, block 32 _ 3] = _
    rw [word_at (i := 0) rfl, word_at (i := 1) rfl, word_at (i := 2) rfl, word_at (i := 3) rfl]
    rfl
  rw [publicInputWords, encoded, width, Nat.mul_div_cancel_left 4 (by decide), split, List.map_map]
  show [fromBeBytesModOrder _, fromBeBytesModOrder _, fromBeBytesModOrder _,
    fromBeBytesModOrder _] = _
  rw [Contract.fromBeBytesModOrder_u128Word, Contract.fromBeBytesModOrder_u128Word,
    Contract.fromBeBytesModOrder_u128Word]

/-- The contract's check is the verifier's, on the key that the stored bytes are. -/
theorem verifyUltrahonk_eq_true_iff {vkBytes proofBytes : List UInt8} {pi : Contract.PubInputs} :
    Contract.verifyUltrahonk (ultraHonkVerifier keccak curve) vkBytes proofBytes pi = some true ↔
      ∃ vk, loadVkFromBytes vkBytes = .ok vk ∧
        verify keccak curve vk proofBytes (Contract.encodePublicInputs pi) = some (.ok ()) := by
  rw [Contract.verifyUltrahonk, ultraHonkVerifier]
  by_cases width : proofBytes.length = Contract.PROOF_BYTES
  · rw [if_neg (not_not.mpr width)]
    cases loadVkFromBytes vkBytes with
    | error _ =>
        constructor
        · intro accepted
          cases accepted
        · rintro ⟨vk, loaded, _⟩
          cases loaded
    | ok vk =>
        dsimp only
        constructor
        · intro accepted
          rcases Option.map_eq_some_iff.mp accepted with ⟨result, verified, ok⟩
          cases result with
          | error _ => cases ok
          | ok _ => exact ⟨vk, rfl, verified⟩
        · rintro ⟨other, same, verified⟩
          rw [Except.ok.inj same, verified]
          rfl
  · rw [if_pos width]
    constructor
    · intro accepted
      cases accepted
    · rintro ⟨vk, _, verified⟩
      have short : proofBytes.length ≠ PROOF_BYTES := width
      rw [verify, loadProof, if_pos short] at verified
      cases verified

/-- Where the public inputs of a publish stand in the circuit of the key, as far as its rows
reach. -/
structure InCircuit (vk : VerificationKey) (polys : Committed) (pi : Contract.PubInputs) :
    Prop where
  reserves : vk.pubInputsOffset.val < vk.circuitSize.val →
    entryAt polys .wr vk.pubInputsOffset.val = frOfU128 pi.reservesTotal
  root : vk.pubInputsOffset.val + 1 < vk.circuitSize.val →
    entryAt polys .wr (vk.pubInputsOffset.val + 1) = fromBeBytesModOrder pi.rootHash
  liabilities : vk.pubInputsOffset.val + 2 < vk.circuitSize.val →
    entryAt polys .wr (vk.pubInputsOffset.val + 2) = frOfU128 pi.liabilitiesTotal
  prevReserves : vk.pubInputsOffset.val + 3 < vk.circuitSize.val →
    entryAt polys .wr (vk.pubInputsOffset.val + 3) = frOfU128 pi.prevReserves

theorem Copied.inCircuit {vk : VerificationKey} {polys : Committed} {proof : Proof}
    {pi : Contract.PubInputs}
    (copied : Copied vk polys (publicInputsOf proof (Contract.encodePublicInputs pi))) :
    InCircuit vk polys pi := by
  have stands := copied.publicInputs
  simp only [publicInputsOf, publicInputWords_encodePublicInputs] at stands
  have enough {i : Nat} (used : i < 4) : i < ([frOfU128 pi.reservesTotal,
      fromBeBytesModOrder pi.rootHash, frOfU128 pi.liabilitiesTotal,
      frOfU128 pi.prevReserves] ++ List.ofFn proof.pairingPointObject).length := by
    rw [List.length_append]
    exact Nat.lt_of_lt_of_le used (Nat.le_add_right _ _)
  constructor
  · exact stands 0 (enough (by decide))
  · exact stands 1 (enough (by decide))
  · exact stands 2 (enough (by decide))
  · exact stands 3 (enough (by decide))

variable [AddCommGroup G] [Module Fr G] {g : G} {τ : Fr} {vk : VerificationKey} {proof : Proof}
  {polys : Committed} {vkBytes proofBytes : List UInt8} {Address : Type}
  {env : Contract.Env Address} {s s' : Contract.Storage Address} {id : U64}
  {pi : Contract.PubInputs}

/-- A publish that the registry records is about a circuit that holds its public inputs: the
reserves, the root, the liabilities and the reserves before, or a mishap made the proof pass. -/
theorem publishProof_inCircuit (lawful : curve.Lawful g τ) (stored : s.vk = some vkBytes)
    (key : loadVkFromBytes vkBytes = .ok vk) (loaded : loadProof proofBytes = .ok proof)
    (commits : Commits curve g τ proof vk polys) (numbered : Numbered vk polys)
    (published : Contract.publishProof (ultraHonkVerifier keccak curve) env proofBytes pi s =
      (.ok id, s')) :
    ∃ tp, Accepted keccak curve vk proofBytes (Contract.encodePublicInputs pi) proof tp ∧
      (Satisfied tp vk.logCircuitSize.val polys ∧ InCircuit vk polys pi ∨
        CopiesHit vk tp polys (publicInputsOf proof (Contract.encodePublicInputs pi)) ∨
        Mishap τ proof vk tp polys) := by
  rcases (Contract.publishProof_eq_ok_iff.mp published).1.verified with ⟨bytes, at_vk, verified⟩
  rw [stored, Option.some.injEq] at at_vk
  subst at_vk
  rcases verifyUltrahonk_eq_true_iff.mp verified with ⟨other, key', accepted⟩
  rw [key, Except.ok.injEq] at key'
  subst key'
  rcases exists_accepted loaded accepted with ⟨tp, accepted⟩
  refine ⟨tp, accepted, ?_⟩
  rcases accepted.copied_or_mishap lawful commits numbered with ⟨satisfied, copied⟩ | hit | mishap
  · exact Or.inl ⟨satisfied, copied.inCircuit⟩
  · exact Or.inr (Or.inl hit)
  · exact Or.inr (Or.inr mishap)

end Registry

/-- A registry whose key is the one for the surplus. -/
noncomputable def surplusRegistry : Contract.Storage Unit where
  owner := some ()
  vk := some (encodeVk surplusKey)
  latestId := none
  proofs _ := none
  events := []

def surplusEnv : Contract.Env Unit where
  auth _ := true
  timestamp := 0

theorem valid_surplusKey : surplusKey.Valid where
  positive := by decide
  small := by decide
  room := by decide
  size := by decide
  inside := by decide

theorem published_surplus :
    Contract.publishProof (ultraHonkVerifier countingKeccak (numeralCurve surplusSecret))
        surplusEnv (encodeProof surplusProof) surplusInputs surplusRegistry =
      (.ok 1, Contract.record surplusEnv 1 surplusInputs surplusRegistry) := by
  refine Contract.publishProof_eq_ok_iff.mpr ⟨?_, rfl, rfl⟩
  constructor
  · exact ⟨(), rfl, rfl⟩
  · exact ⟨_, rfl, verifyUltrahonk_eq_true_iff.mpr
      ⟨surplusKey, loadVkFromBytes_encodeVk valid_surplusKey, accepted_surplus⟩⟩
  · decide
  · rfl
  · decide

/-- The registry records the honest proof about the surplus, whose circuit holds the inputs. -/
theorem publishProof_inCircuit_surplus :
    InCircuit surplusKey surplusPolys surplusInputs ∧
      ∃ tp, Accepted countingKeccak (numeralCurve surplusSecret) surplusKey
          (encodeProof surplusProof) (Contract.encodePublicInputs surplusInputs) surplusProof tp ∧
        (Satisfied tp 5 surplusPolys ∧ InCircuit surplusKey surplusPolys surplusInputs ∨
          CopiesHit surplusKey tp surplusPolys
            (publicInputsOf surplusProof (Contract.encodePublicInputs surplusInputs)) ∨
          Mishap surplusSecret surplusProof surplusKey tp surplusPolys) :=
  ⟨copied_surplus.inCircuit, publishProof_inCircuit (lawful_numeralCurve surplusSecret) rfl
    (loadVkFromBytes_encodeVk valid_surplusKey) (loadProof_encodeProof surplusProof)
    commits_surplus numbered_surplus published_surplus⟩

end Solva.Verifier
