import Solva.Sumcheck.Separation
import Solva.Verifier.Openings
import Solva.Verifier.Verify

/-!
# What an accepted proof says

From an accepted call back to the circuit: the opening gives tables behind the claimed
evaluations, the sumcheck a sum over their rows, and the challenges of gates and relations
every relation on every row. Each step holds but for a challenge that hit what was fixed
before it.
-/

namespace Solva.Verifier

open Bn254 Codec Polynomial

/-! ## From the sum to the rows -/

section Rows

variable {tp : Transcript} {logN : Nat} {entities : Wire → List Fr → Fr}

/-- The sum of lookups over all rows. -/
def lookupSum (tp : Transcript) (logN : Nat) (entities : Wire → List Fr → Fr) : Fr :=
  Sumcheck.cubeSum logN fun x => lookupTerm (fun wire => entities wire x) tp.relParams

/-- What is claimed to be zero at a row. The sum of lookups is claimed at the first. -/
def rowClaims (tp : Transcript) (logN : Nat) (entities : Wire → List Fr → Fr) (x : List Fr) :
    List Fr :=
  (subrelations (fun wire => entities wire x) tp.relParams 1).set LOOKUP_SUM
    (if x = List.replicate logN 0 then lookupSum tp logN entities else 0)

/-- The claims of a row in one. -/
def batchedRow (tp : Transcript) (logN : Nat) (entities : Wire → List Fr → Fr) (x : List Fr) :
    Fr :=
  scaleAndBatchSubrelations (rowClaims tp logN entities x) tp.alphas

/-- The claims after the first with their challenges. -/
def rowTerms (tp : Transcript) (logN : Nat) (entities : Wire → List Fr → Fr) (x : List Fr) :
    List (Fr × Fr) :=
  (rowClaims tp logN entities x).tail.zip (List.ofFn tp.alphas)

theorem length_rowClaims (tp : Transcript) (logN : Nat) (entities : Wire → List Fr → Fr)
    (x : List Fr) :
    (rowClaims tp logN entities x).length = NUMBER_OF_SUBRELATIONS := by
  rw [rowClaims, List.length_set, length_subrelations]

theorem scaleAndBatch_eq_sum {evaluations : List Fr} (nonempty : evaluations ≠ [])
    (alphas : Fin NUMBER_OF_ALPHAS → Fr) :
    scaleAndBatchSubrelations evaluations alphas =
      (List.zipWith (· * ·) evaluations (1 :: List.ofFn alphas)).sum := by
  cases evaluations with
  | nil => exact absurd rfl nonempty
  | cons first rest =>
      rw [scaleAndBatchSubrelations, List.headD_cons, List.tail_cons,
        foldl_add_eq (fun term : Fr × Fr => term.1 * term.2), List.zipWith_cons_cons, List.sum_cons,
        mul_one, ← List.map_uncurry_zip_eq_zipWith]
      rfl

/-- All values scaled, and one of them exchanged. -/
theorem sum_zipWith_set (evaluations cs : List Fr) (s l c : Fr) {i : Nat}
    (inside : i < evaluations.length) :
    (List.zipWith (· * ·) ((evaluations.map (· * s)).set i l) cs).sum =
      s * (List.zipWith (· * ·) (evaluations.set i c) cs).sum + (l - s * c) * cs.getD i 0 := by
  have scaled (evaluations cs : List Fr) :
      (List.zipWith (· * ·) (evaluations.map (· * s)) cs).sum =
        s * (List.zipWith (· * ·) evaluations cs).sum := by
    induction evaluations generalizing cs with
    | nil => simp
    | cons first rest ih =>
        cases cs with
        | nil => simp
        | cons d cs =>
            rw [List.map_cons, List.zipWith_cons_cons, List.zipWith_cons_cons, List.sum_cons,
              List.sum_cons, ih]
            ring
  induction evaluations generalizing cs i with
  | nil => exact absurd inside (Nat.not_lt_zero i)
  | cons first rest ih =>
      cases cs with
      | nil => simp
      | cons d cs =>
          cases i with
          | zero =>
              simp only [List.map_cons, List.set_cons_zero, List.zipWith_cons_cons, List.sum_cons,
                scaled, List.getD_cons_zero]
              ring
          | succ i =>
              simp only [List.map_cons, List.set_cons_succ, List.zipWith_cons_cons, List.sum_cons,
                List.getD_cons_succ, ih cs (Nat.lt_of_succ_lt_succ inside)]
              ring

/-- The batched relations at a row: those that are separated, and the sum of lookups. -/
theorem summand_eq (x : List Fr) (c : Fr) :
    summand tp logN entities x = gateSeparator (gatesOf tp logN) x *
        scaleAndBatchSubrelations ((subrelations (fun wire => entities wire x) tp.relParams 1).set
          LOOKUP_SUM c) tp.alphas +
      (lookupTerm (fun wire => entities wire x) tp.relParams -
        gateSeparator (gatesOf tp logN) x * c) * (1 :: List.ofFn tp.alphas).getD LOOKUP_SUM 0 := by
  have inside :
      LOOKUP_SUM < (subrelations (fun wire => entities wire x) tp.relParams 1).length := by
    rw [length_subrelations]
    decide
  rw [summand, accumulateRelationEvaluations, subrelations_separated, scaleAndBatch_eq_sum,
    scaleAndBatch_eq_sum, sum_zipWith_set _ _ _ _ c inside, lookupTerm]
  · exact List.ne_nil_of_length_pos (by rw [List.length_set]; exact Nat.zero_lt_of_lt inside)
  · exact List.ne_nil_of_length_pos
      (by rw [List.length_set, List.length_map]; exact Nat.zero_lt_of_lt inside)

/-- The sum over the rows is one of separated claims. -/
theorem cubeSum_summand (width : (gatesOf tp logN).length = logN) :
    Sumcheck.cubeSum logN (summand tp logN entities) =
      Sumcheck.separated (gatesOf tp logN) (batchedRow tp logN entities) := by
  let gates := gatesOf tp logN
  let alpha := (1 :: List.ofFn tp.alphas).getD LOOKUP_SUM 0
  have split : summand tp logN entities = fun x =>
      Sumcheck.weight gates x * batchedRow tp logN entities x +
        (alpha * lookupTerm (fun wire => entities wire x) tp.relParams +
          -alpha * (Sumcheck.weight gates x *
            if x = List.replicate logN 0 then lookupSum tp logN entities else 0)) := by
    funext x
    rw [summand_eq x (if x = List.replicate logN 0 then lookupSum tp logN entities else 0)]
    show Sumcheck.weight gates x * batchedRow tp logN entities x +
      (_ - Sumcheck.weight gates x * _) * alpha = _
    ring
  have origin := Sumcheck.cubeSum_origin gates (lookupSum tp logN entities)
  have whole := Sumcheck.cubeSum_weight gates (batchedRow tp logN entities)
  rw [width] at origin whole
  rw [split, Sumcheck.cubeSum_add, Sumcheck.cubeSum_add, Sumcheck.cubeSum_mul_left,
    Sumcheck.cubeSum_mul_left, whole, origin, ← lookupSum]
  ring

/-- A row with a claim that is not zero. -/
def OpenRow (tp : Transcript) (logN : Nat) (entities : Wire → List Fr → Fr) (x : List Fr) : Prop :=
  ∃ claim ∈ rowClaims tp logN entities x, claim ≠ 0

/-- The challenges of the relations hide the claims of every open row. -/
def AlphasHit (tp : Transcript) (logN : Nat) (entities : Wire → List Fr → Fr) : Prop :=
  (∃ x ∈ Sumcheck.cube logN, OpenRow tp logN entities x) ∧
    ∀ x ∈ Sumcheck.cube logN, OpenRow tp logN entities x →
      Sumcheck.Hit ((rowClaims tp logN entities x).headD 0) (rowTerms tp logN entities x)

theorem hit_of_openRow {x : List Fr} (zero : batchedRow tp logN entities x = 0)
    (opened : OpenRow tp logN entities x) :
    Sumcheck.Hit ((rowClaims tp logN entities x).headD 0) (rowTerms tp logN entities x) := by
  rcases Sumcheck.zero_or_hit zero with ⟨first, rest⟩ | hit
  · exfalso
    rcases opened with ⟨claim, mem, claim_ne⟩
    have count := length_rowClaims tp logN entities x
    cases claims : rowClaims tp logN entities x with
    | nil =>
        rw [claims] at mem
        cases mem
    | cons head tail =>
        rw [claims] at mem first rest count
        rcases List.mem_cons.mp mem with rfl | later
        · exact claim_ne first
        · have widths : tail.length ≤ (List.ofFn tp.alphas).length := by
            rw [List.length_ofFn]
            exact (Nat.succ.inj count).le
          rw [← List.map_fst_zip widths] at later
          rcases List.mem_map.mp later with ⟨term, term_mem, rfl⟩
          exact claim_ne (rest term term_mem)
  · exact hit

theorem origin_mem_cube (logN : Nat) :
    (List.replicate logN 0 : List Fr) ∈ Sumcheck.cube logN := by
  induction logN with
  | zero => exact List.mem_singleton.mpr rfl
  | succ n ih =>
      rw [Sumcheck.cube, List.replicate_succ]
      exact List.mem_append_left _ (List.mem_map_of_mem ih)

/-- Without open rows, every row satisfies the relations and the lookups are balanced. -/
theorem satisfies_of_closed
    (closed : ∀ x ∈ Sumcheck.cube logN, ¬OpenRow tp logN entities x) :
    (∀ x ∈ Sumcheck.cube logN, Satisfies (fun wire => entities wire x) tp.relParams) ∧
      lookupSum tp logN entities = 0 := by
  have claim_eq {x : List Fr} (mem : x ∈ Sumcheck.cube logN) {i : Nat}
      (inside : i < NUMBER_OF_SUBRELATIONS) : (rowClaims tp logN entities x).getD i 0 = 0 := by
    by_contra claim_ne
    rw [← length_rowClaims tp logN entities x] at inside
    rw [List.getD_eq_getElem _ _ inside] at claim_ne
    exact closed x mem ⟨_, List.getElem_mem inside, claim_ne⟩
  constructor
  · intro x mem i inside other
    have claim := claim_eq mem inside
    rwa [rowClaims, List.getD_eq_getElem?_getD, List.getElem?_set_ne (Ne.symm other),
      ← List.getD_eq_getElem?_getD] at claim
  · have claim := claim_eq (origin_mem_cube logN) (i := LOOKUP_SUM) (by decide)
    rwa [rowClaims, List.getD_eq_getElem?_getD, List.getElem?_set_self
      (by rw [length_subrelations]; decide), Option.getD_some, if_pos rfl] at claim

/-- A sum of zero over the rows leaves no relation open on any of them. -/
theorem rows_of_cubeSum (small : logN ≤ CONST_PROOF_SIZE_LOG_N)
    (zero : Sumcheck.cubeSum logN (summand tp logN entities) = 0) :
    ((∀ x ∈ Sumcheck.cube logN, Satisfies (fun wire => entities wire x) tp.relParams) ∧
        lookupSum tp logN entities = 0) ∨
      Sumcheck.Collapsed (gatesOf tp logN) (batchedRow tp logN entities) ∨
      AlphasHit tp logN entities := by
  have width : (gatesOf tp logN).length = logN := by
    rw [gatesOf, List.length_map, length_roundsOf small]
  rw [cubeSum_summand width] at zero
  rcases Sumcheck.vanishes_or_collapsed zero with vanishes | collapsed
  · rw [width] at vanishes
    by_cases some_open : ∃ x ∈ Sumcheck.cube logN, OpenRow tp logN entities x
    · exact Or.inr (Or.inr ⟨some_open, fun x mem => hit_of_openRow (vanishes x mem)⟩)
    · left
      apply satisfies_of_closed
      intro x mem opened
      exact some_open ⟨x, mem, opened⟩
  · exact Or.inr (Or.inl collapsed)

end Rows

/-! ## From the call to the rows -/

/-- The tables behind a proof satisfy the circuit: every relation on every row, the lookups
in sum, and what is shifted starts with zero. -/
structure Satisfied (tp : Transcript) (logN : Nat) (polys : Committed) : Prop where
  rows : ∀ x ∈ Sumcheck.cube logN, Satisfies (fun wire => entityRows polys wire x) tp.relParams
  lookups : lookupSum tp logN (entityRows polys) = 0
  start : ∀ k < 5, (polys.entity (27 + k)).coeff 0 = 0

/-- How a proof is accepted about tables that do not satisfy the circuit: the openings are
false by accident, or a challenge hits what the rounds, the gates or the relations single
out before it is drawn. -/
inductive Mishap (τ : Fr) (proof : Proof) (vk : VerificationKey) (tp : Transcript)
    (polys : Committed) : Prop
  | opening (accident : Accident τ proof vk tp polys)
  | sumcheck (round : Fin CONST_PROOF_SIZE_LOG_N) (used : round.val < vk.logCircuitSize.val)
      (confused : tp.sumcheckUChallenges round ∈ Sumcheck.confused
        (Sumcheck.interpolant (proof.sumcheckUnivariates round))
        (honestUnivariate tp vk.logCircuitSize.val (entityRows polys) round))
  | gates (before after : List Fr) (gate : Fr)
      (split : gatesOf tp vk.logCircuitSize.val = before ++ gate :: after)
      (single : ∀ other, Sumcheck.Vanishes after.length (Sumcheck.collapse other
        (Sumcheck.collapseAll before
          (batchedRow tp vk.logCircuitSize.val (entityRows polys)))) ↔ other = gate)
  | alphas (hit : AlphasHit tp vk.logCircuitSize.val (entityRows polys))

section Calls

variable {G : Type*} [AddCommGroup G] [Module Fr G] {keccak : Keccak} {curve : Curve G} {g : G}
  {τ : Fr} {vk : VerificationKey} {proofBytes publicInputs : List UInt8} {proof : Proof}
  {tp : Transcript} {polys : Committed}

theorem Accepted.satisfied_or_mishap
    (accepted : Accepted keccak curve vk proofBytes publicInputs proof tp)
    (lawful : curve.Lawful g τ) (commits : Commits curve g τ proof vk polys) :
    Satisfied tp vk.logCircuitSize.val polys ∨ Mishap τ proof vk tp polys := by
  have checked := checked_of_accepted accepted.opening
  rcases opens_or_accident lawful.free checked
    (commits.accepts_of_accepted lawful accepted.opening) with ⟨opens, start⟩ | accident
  · by_cases zero : Sumcheck.cubeSum vk.logCircuitSize.val
        (summand tp vk.logCircuitSize.val (entityRows polys)) = 0
    · rcases rows_of_cubeSum checked.1.2 zero with ⟨rows, lookups⟩ | collapsed | hit
      · exact Or.inl ⟨rows, lookups, start⟩
      · rcases Sumcheck.exists_single_of_collapsed collapsed with
          ⟨before, gate, after, split, single⟩
        exact Or.inr (.gates before after gate split single)
      · exact Or.inr (.alphas hit)
    · rcases confused_of_accepted opens accepted.sumcheck zero with ⟨round, used, confused⟩
      exact Or.inr (.sumcheck round used confused)
  · exact Or.inr (.opening accident)

omit [AddCommGroup G] [Module Fr G] in
/-- The proof of an accepted call is the one that its bytes are. -/
theorem exists_accepted (loaded : loadProof proofBytes = .ok proof)
    (accepted : verify keccak curve vk proofBytes publicInputs = some (.ok ())) :
    ∃ tp, Accepted keccak curve vk proofBytes publicInputs proof tp := by
  rcases verify_eq_ok_iff.mp accepted with ⟨other, tp, accepted⟩
  have same := accepted.loaded
  rw [loaded, Except.ok.injEq] at same
  subst same
  exact ⟨tp, accepted⟩

/-- An accepted proof is about tables that satisfy the circuit, or a mishap made it pass. -/
theorem verify_sound (lawful : curve.Lawful g τ) (loaded : loadProof proofBytes = .ok proof)
    (commits : Commits curve g τ proof vk polys)
    (accepted : verify keccak curve vk proofBytes publicInputs = some (.ok ())) :
    ∃ tp, Accepted keccak curve vk proofBytes publicInputs proof tp ∧
      (Satisfied tp vk.logCircuitSize.val polys ∨ Mishap τ proof vk tp polys) := by
  rcases exists_accepted loaded accepted with ⟨tp, accepted⟩
  exact ⟨tp, accepted, accepted.satisfied_or_mishap lawful commits⟩

end Calls

/-! ## A surplus -/

/-- A hash that counts up from the state in front of a message. -/
def countingKeccak : Keccak := fun message =>
  frToBytes (frFromArray (message.take 32) + ((2 ^ 128 + 1 : Nat) : Fr))

theorem hashToFr_countingKeccak (state : Fr) (message : List UInt8) :
    hashToFr countingKeccak (frBytes state ++ message) = state + ((2 ^ 128 + 1 : Nat) : Fr) := by
  rw [hashToFr, countingKeccak, List.take_left' (frBytes_length state), frFromArray_frBytes,
    fromBeBytesModOrder_frToBytes]

theorem last_countingKeccak (state : Fr) (run : List (List UInt8)) :
    FiatShamir.last (hashToFr countingKeccak) frBytes state run =
      state + ((run.length * (2 ^ 128 + 1) : Nat) : Fr) := by
  induction run generalizing state with
  | nil => rw [FiatShamir.last_nil, List.length_nil, Nat.zero_mul, Nat.cast_zero, add_zero]
  | cons message run ih =>
      have step : FiatShamir.next (hashToFr countingKeccak) frBytes state message =
          state + ((2 ^ 128 + 1 : Nat) : Fr) := hashToFr_countingKeccak state message
      rw [FiatShamir.last_cons, step, ih, List.length_cons, add_assoc, ← Nat.cast_add]
      congr 2
      ring

/-- The states count up from the size of the circuit, whatever is proved. -/
def surplusState (k : Nat) : Fr :=
  ((32 + (min k 75 + 1) * (2 ^ 128 + 1) : Nat) : Fr)

theorem generateTranscript_counting (proof : Proof) {pre : Preamble}
    (size : pre.circuitSize = 32) :
    generateTranscript countingKeccak proof pre = challengesOf surplusState := by
  have first : hashToFr countingKeccak (preambleBytes proof pre) =
      ((32 + (2 ^ 128 + 1) : Nat) : Fr) := by
    simp only [hashToFr, countingKeccak, preambleBytes, List.append_assoc]
    rw [List.take_left' (u64ToBe32_length _), size]
    decide +kernel
  have count : (messages proof).length = 75 := by
    rw [messages, List.length_append, List.length_append, length_oinkMessages,
      length_sumcheckMessages]
    rfl
  rw [generateTranscript_eq]
  congr 1
  funext k
  rw [stateAt, first, last_countingKeccak, List.length_take, count, ← Nat.cast_add, surplusState]
  congr 1
  ring

/-- The columns of a circuit with the public inputs in the right wire from its second row on,
and a gate for the surplus in row 21. The gate takes the reserves and the liabilities from
the first and the third of them; a column that is not listed is zero. -/
def surplusColumns : List (Wire × (Nat → Int)) :=
  [(.wl, fun k => if k = 21 then 5 else 0),
    (.wr, fun k => if k = 21 then 4 else [0, 5, 9, 4, 5].getD k 0),
    (.wo, fun k => if k = 21 then 1 else 0),
    (.ql, fun k => if k = 21 then 1 else 0),
    (.qr, fun k => if k = 21 then -1 else 0),
    (.qo, fun k => if k = 21 then -1 else 0),
    (.qArith, fun k => if k = 21 then 1 else 0),
    (.id1, fun k => k),
    (.id2, fun k => k + 32),
    (.id3, fun k => k + 64),
    (.id4, fun k => k + 96),
    -- a public input goes to the gate, if that reads it, and then below all cells
    (.sigma1, fun k => if k = 21 then -2 else k),
    (.sigma2, fun k =>
      if k = 1 then 21
      else if k = 3 then 21 + 32
      else if k = 21 then -4
      else if 1 ≤ k ∧ k ≤ 20 then -(k + 1)
      else k + 32),
    (.sigma3, fun k => k + 64),
    (.sigma4, fun k => k + 96),
    (.lagrangeFirst, fun k => if k = 0 then 1 else 0),
    (.lagrangeLast, fun k => if k = 31 then 1 else 0)]

/-- An entry of the columns. -/
def surplusCell (i k : Nat) : Fr :=
  ((surplusColumns.find? fun column => column.1.index = i).elim (0 : Int) (·.2 k) : Int)

/-- The product of the factors of a row, with the labels of the given wires. -/
def surplusFactors (labels : List Wire) (k : Nat) : Fr :=
  let rp := (challengesOf surplusState).relParams
  (([Wire.wl, .wr, .wo, .w4].zip labels).map fun cell => Permutation.factor rp.beta rp.gamma
    (surplusCell cell.1.index k, surplusCell cell.2.index k)).prod

/-- The product of the fractions of the rows before. -/
def surplusProduct : Nat → Fr
  | 0 => 0
  | k + 1 => (surplusProduct k + surplusCell Wire.lagrangeFirst.index k) *
      surplusFactors [.id1, .id2, .id3, .id4] k *
      (surplusFactors [.sigma1, .sigma2, .sigma3, .sigma4] k)⁻¹

/-- An entry of the tables. -/
def surplusEntry (i k : Nat) : Fr :=
  if 32 ≤ k then 0
  else if i = Wire.zPerm.index then surplusProduct k
  else surplusCell i k

/-- A row with the next one. -/
def surplusRow (k : Nat) (wire : Wire) : Fr :=
  if wire.index.val < NUMBER_UNSHIFTED then surplusEntry wire.index k
  else surplusEntry (wire.index - 8) (k + 1)

noncomputable def surplusEntity (i : Nat) : Fr[X] :=
  ∑ k ∈ Finset.range 32, C (surplusEntry i k) * X ^ k

/-- The secret of the host. -/
def surplusSecret : Fr :=
  ((13 : Nat) : Fr)

noncomputable def surplusKey : VerificationKey where
  circuitSize := 32
  logCircuitSize := 5
  publicInputsSize := 20
  pubInputsOffset := 1
  points i := numeralCommitment surplusSecret (surplusEntity i)

def surplusInputs : Contract.PubInputs where
  reservesTotal := 5
  liabilitiesTotal := 4
  rootHash := BytesN.ofNat 32 9
  prevReserves := 5

/-- The public inputs of the call, and zeros for the pairing points. -/
def surplusWords : List Fr :=
  publicInputWords (Contract.encodePublicInputs surplusInputs) ++ List.replicate 16 0

noncomputable def surplusTranscript : Transcript :=
  let tp := challengesOf surplusState
  withDelta tp (((numeratorEntries surplusKey surplusWords).map
      (Permutation.factor tp.relParams.beta tp.relParams.gamma)).prod *
    ((denominatorEntries surplusKey surplusWords).map
      (Permutation.factor tp.relParams.beta tp.relParams.gamma)).prod⁻¹)

noncomputable def surplusPolys : Committed :=
  honestPolys surplusEntity surplusKey surplusTranscript

noncomputable def surplusProof : Proof :=
  honestProof surplusEntity surplusKey surplusTranscript (numeralCommitment surplusSecret)

theorem satisfies_surplusRow :
    ∀ k < 32, Satisfies (surplusRow k) surplusTranscript.relParams := by
  decide +kernel

theorem lookupTerm_surplusRow :
    ∀ k < 32, lookupTerm (surplusRow k) surplusTranscript.relParams = 0 := by
  decide +kernel

theorem coeff_surplusEntity (i k : Nat) : (surplusEntity i).coeff k = surplusEntry i k := by
  simp only [surplusEntity, finsetSum_coeff, coeff_C_mul_X_pow, Finset.sum_ite_eq,
    Finset.mem_range]
  by_cases inside : k < 32
  · rw [if_pos inside]
  · rw [if_neg inside, surplusEntry, if_pos (Nat.le_of_not_lt inside)]

theorem entityPolynomial_surplus (wire : Wire) (k : Nat) :
    (entityPolynomial surplusEntity wire.index).coeff k = surplusRow k wire := by
  rw [entityPolynomial, surplusRow]
  by_cases unshifted : wire.index.val < NUMBER_UNSHIFTED
  · rw [if_pos unshifted, if_pos unshifted, coeff_surplusEntity]
  · rw [if_neg unshifted, if_neg unshifted, coeff_divX, coeff_surplusEntity]

/-- On the point of a row stand the entries of the tables. -/
theorem entityRows_surplus {x : List Fr} (mem : x ∈ Sumcheck.cube 5) :
    ∃ k < 32, (fun wire => entityRows surplusPolys wire x) = surplusRow k := by
  rcases Opening.exists_point mem with ⟨bits, width, rfl⟩
  refine ⟨Opening.index bits, (Opening.index_lt bits).trans_eq (congrArg (2 ^ ·) width), ?_⟩
  funext wire
  exact (Opening.extend_point _ bits).trans (entityPolynomial_surplus wire _)

theorem shiftable_surplus : ∀ k < 5, (surplusEntity (27 + k)).coeff 0 = 0 := by
  intro k used
  rw [coeff_surplusEntity]
  exact (by decide +kernel : ∀ k < 5, surplusEntry (27 + k) 0 = 0) k used

/-- The reserves exceed the liabilities by the surplus, and the copies close the product. -/
theorem satisfied_surplus : Satisfied surplusTranscript 5 surplusPolys := by
  constructor
  · intro x mem
    rcases entityRows_surplus mem with ⟨k, inside, row⟩
    rw [row]
    exact satisfies_surplusRow k inside
  · rw [lookupSum, Sumcheck.cubeSum_eq_sum]
    apply List.sum_eq_zero
    intro term mem
    rcases List.mem_map.mp mem with ⟨x, x_mem, rfl⟩
    rcases entityRows_surplus x_mem with ⟨k, inside, row⟩
    rw [row]
    exact lookupTerm_surplusRow k inside
  · exact shiftable_surplus

theorem point_surplusKey (i : Fin NUM_POINTS) :
    (numeralCurve surplusSecret).point (surplusKey.points i) =
      some (Opening.commit (1 : Fr) surplusSecret (surplusEntity i)) :=
  point_numeralCommitment surplusSecret (surplusEntity i)

theorem commits_surplus :
    Commits (numeralCurve surplusSecret) 1 surplusSecret surplusProof surplusKey surplusPolys :=
  commits_honestProof (point_numeralCommitment surplusSecret) point_surplusKey

theorem verifySumcheck_surplus :
    verifySumcheck surplusProof surplusTranscript surplusKey = .ok () := by
  apply verifySumcheck_honestProof
  · decide
  · decide
  · exact satisfied_surplus.rows
  · rw [← Sumcheck.cubeSum_eq_sum]
    exact satisfied_surplus.lookups

theorem toInvert_withDelta (tp : Transcript) (delta : Fr) (logN : Nat) :
    toInvert (withDelta tp delta) logN = toInvert tp logN :=
  rfl

theorem verifyShplemini_surplus :
    verifyShplemini (numeralCurve surplusSecret) surplusProof surplusKey surplusTranscript =
      some (.ok ()) := by
  apply (verifyShplemini_honestProof (lawful_numeralCurve surplusSecret)
    (point_numeralCommitment surplusSecret) point_surplusKey (by decide) (by decide) ?_
    shiftable_surplus).mpr
  · rw [surplusTranscript, toInvert_withDelta]
    decide +kernel
  · intro i _ k large
    have beyond : 32 ≤ k := large
    rw [coeff_surplusEntity, surplusEntry, if_pos beyond]

theorem publicInputsOf_surplus :
    publicInputsOf surplusProof (Contract.encodePublicInputs surplusInputs) = surplusWords :=
  rfl

theorem accepted_surplus :
    verify countingKeccak (numeralCurve surplusSecret) surplusKey (encodeProof surplusProof)
      (Contract.encodePublicInputs surplusInputs) = some (.ok ()) := by
  refine verify_eq_ok_iff.mpr ⟨surplusProof, surplusTranscript, ?_⟩
  constructor
  case loaded => exact loadProof_encodeProof surplusProof
  case challenges => exact ⟨_, by rw [generateTranscript_counting _ rfl]; rfl⟩
  case delta => rw [publicInputsOf_surplus]; rfl
  case sumcheck => exact verifySumcheck_surplus
  case opening => exact verifyShplemini_surplus
  case denominator =>
    rw [publicInputsOf_surplus]
    decide +kernel
  all_goals decide +kernel

/-- An honest proof about the surplus is accepted, and its tables satisfy the circuit. -/
theorem verify_sound_surplus :
    Satisfied surplusTranscript 5 surplusPolys ∧
      ∃ tp, Accepted countingKeccak (numeralCurve surplusSecret) surplusKey
          (encodeProof surplusProof) (Contract.encodePublicInputs surplusInputs) surplusProof tp ∧
        (Satisfied tp 5 surplusPolys ∨
          Mishap surplusSecret surplusProof surplusKey tp surplusPolys) :=
  ⟨satisfied_surplus, verify_sound (lawful_numeralCurve surplusSecret)
    (loadProof_encodeProof surplusProof) commits_surplus accepted_surplus⟩

end Solva.Verifier
