import Solva.Sumcheck.Core
import Solva.Verifier.Field
import Solva.Verifier.Types

/-!
# The sumcheck of the verifier

`sumcheck.rs`. The univariate of a round is sent as its values at `0, …, 7` and evaluated
at the challenge by the barycentric formula. What the rounds come down to are those of the
sum of the batched relations over the rows of the circuit.
-/

namespace Solva.Verifier

open Bn254 Codec Polynomial

/-! ## `sumcheck.rs` -/

/-- `BARY_BYTES`. -/
def BARY_BYTES : Fin BATCHED_RELATION_PARTIAL_LENGTH → Bytes32 :=
  ![BytesN.ofNat 32 0x30644e72e131a029b85045b68181585d2833e84879b9709143e1f593efffec51,
    BytesN.ofNat 32 0x2d0,
    BytesN.ofNat 32 0x30644e72e131a029b85045b68181585d2833e84879b9709143e1f593efffff11,
    BytesN.ofNat 32 0x90,
    BytesN.ofNat 32 0x30644e72e131a029b85045b68181585d2833e84879b9709143e1f593efffff71,
    BytesN.ofNat 32 0xf0,
    BytesN.ofNat 32 0x30644e72e131a029b85045b68181585d2833e84879b9709143e1f593effffd31,
    BytesN.ofNat 32 0x13b0]

/-- `barycentric_weights`. -/
def barycentricWeights (i : Fin BATCHED_RELATION_PARTIAL_LENGTH) : Fr :=
  fromBeBytesModOrder (BARY_BYTES i)

/-- `point_indices`. -/
def pointIndices (i : Fin BATCHED_RELATION_PARTIAL_LENGTH) : Fr :=
  ((i : Nat) : Fr)

/-- `check_sum`. -/
def checkSum (roundUnivariate : Fin BATCHED_RELATION_PARTIAL_LENGTH → Fr) (roundTarget : Fr) :
    Bool :=
  roundUnivariate 0 + roundUnivariate 1 = roundTarget

/-- `compute_next_target_sum`. -/
def computeNextTargetSum (roundUnivariate : Fin BATCHED_RELATION_PARTIAL_LENGTH → Fr)
    (roundChallenge : Fr) : Except String Fr :=
  -- a challenge in the domain has its value there
  match (List.finRange BATCHED_RELATION_PARTIAL_LENGTH).find? (roundChallenge = pointIndices ·) with
  | some i => .ok (roundUnivariate i)
  | none =>
      let diff := fun i => roundChallenge - pointIndices i
      let bPoly := (List.finRange BATCHED_RELATION_PARTIAL_LENGTH).foldl (fun b i => b * diff i) 1
      let denoms := (List.finRange BATCHED_RELATION_PARTIAL_LENGTH).map fun i =>
        barycentricWeights i * diff i
      match batchInverse denoms with
      | .error _ => .error "sumcheck: barycentric denominator is zero"
      | .ok invDenoms =>
          .ok (bPoly * ((List.ofFn roundUnivariate).zip invDenoms).foldl
            (fun acc term => acc + term.1 * term.2) 0)

/-- `partially_evaluate_pow`. -/
def partiallyEvaluatePow (gateChallenge powPartialEvaluation roundChallenge : Fr) : Fr :=
  powPartialEvaluation * (1 + roundChallenge * (gateChallenge - 1))

/-- One round: the target and the gate separator before it and after it. -/
def sumcheckRound (proof : Proof) (tp : Transcript) (state : Fr × Fr)
    (round : Fin CONST_PROOF_SIZE_LOG_N) : Except String (Fr × Fr) :=
  if checkSum (proof.sumcheckUnivariates round) state.1 then
    match computeNextTargetSum (proof.sumcheckUnivariates round) (tp.sumcheckUChallenges round) with
    | .error message => .error message
    | .ok target =>
        .ok (target, partiallyEvaluatePow (tp.gateChallenges round) state.2
          (tp.sumcheckUChallenges round))
  else .error "round failed"

/-- The rounds `0..log_n`. -/
def roundsOf (logN : Nat) : List (Fin CONST_PROOF_SIZE_LOG_N) :=
  (List.finRange CONST_PROOF_SIZE_LOG_N).take logN

/-- `verify_sumcheck`. -/
def verifySumcheck (proof : Proof) (tp : Transcript) (vk : VerificationKey) : Except String Unit :=
  let logN := vk.logCircuitSize.val
  if logN = 0 ∨ logN > CONST_PROOF_SIZE_LOG_N then
    .error "sumcheck: log_circuit_size out of range"
  else
    match (roundsOf logN).foldlM (sumcheckRound proof tp) (0, 1) with
    | .error message => .error message
    | .ok state =>
        if accumulateRelationEvaluations (fun wire => proof.sumcheckEvaluations wire.index)
            tp.relParams tp.alphas state.2 = state.1 then .ok ()
        else .error "sumcheck final mismatch"

/-! ## The barycentric evaluation -/

theorem pointIndices_injective :
    Function.Injective fun i : Fin BATCHED_RELATION_PARTIAL_LENGTH => ((i : Nat) : Fr) := by
  decide +kernel

/-- The constants are the products of the differences of the domain. -/
theorem barycentricWeights_eq (i : Fin BATCHED_RELATION_PARTIAL_LENGTH) :
    barycentricWeights i = ∏ j ∈ Finset.univ.erase i, (pointIndices i - pointIndices j) := by
  revert i
  decide +kernel

theorem foldl_mul_eq {ι M : Type*} [CommMonoid M] (f : ι → M) (items : List ι) (start : M) :
    items.foldl (fun product i => product * f i) start = start * (items.map f).prod := by
  induction items generalizing start with
  | nil => rw [List.foldl_nil, List.map_nil, List.prod_nil, mul_one]
  | cons i items ih => rw [List.foldl_cons, ih, List.map_cons, List.prod_cons, mul_assoc]

theorem foldl_add_eq {ι M : Type*} [AddCommMonoid M] (f : ι → M) (items : List ι) (start : M) :
    items.foldl (fun sum i => sum + f i) start = start + (items.map f).sum := by
  induction items generalizing start with
  | nil => rw [List.foldl_nil, List.map_nil, List.sum_nil, add_zero]
  | cons i items ih => rw [List.foldl_cons, ih, List.map_cons, List.sum_cons, add_assoc]

/-- The next target is the value of the polynomial through the eight values. -/
theorem computeNextTargetSum_eq (roundUnivariate : Fin BATCHED_RELATION_PARTIAL_LENGTH → Fr)
    (roundChallenge : Fr) :
    computeNextTargetSum roundUnivariate roundChallenge =
      .ok ((Sumcheck.interpolant roundUnivariate).eval roundChallenge) := by
  rw [computeNextTargetSum]
  cases found : (List.finRange BATCHED_RELATION_PARTIAL_LENGTH).find?
      (roundChallenge = pointIndices ·) with
  | some i =>
      have at_i : roundChallenge = pointIndices i := by simpa using List.find?_some found
      rw [at_i]
      exact congrArg _ (Sumcheck.eval_interpolant pointIndices_injective roundUnivariate i).symm
  | none =>
      have apart (i : Fin BATCHED_RELATION_PARTIAL_LENGTH) : roundChallenge ≠ pointIndices i := by
        simpa using List.find?_eq_none.mp found i (List.mem_finRange i)
      have weight_ne (i : Fin BATCHED_RELATION_PARTIAL_LENGTH) : barycentricWeights i ≠ 0 := by
        rw [barycentricWeights_eq]
        apply Finset.prod_ne_zero_iff.mpr
        intro j mem
        exact sub_ne_zero.mpr fun same =>
          (Finset.ne_of_mem_erase mem) (pointIndices_injective same).symm
      have nonzero : (0 : Fr) ∉ (List.finRange BATCHED_RELATION_PARTIAL_LENGTH).map fun i =>
          barycentricWeights i * (roundChallenge - pointIndices i) := by
        intro mem
        rcases List.mem_map.mp mem with ⟨i, _, zero⟩
        exact mul_ne_zero (weight_ne i) (sub_ne_zero.mpr (apart i)) zero
      dsimp only
      rw [batchInverse_eq, if_neg nonzero]
      dsimp only
      rw [foldl_mul_eq, List.ofFn_eq_map, List.map_map, List.zip_map', foldl_add_eq, List.map_map,
        ← Fin.prod_univ_def, ← Fin.sum_univ_def, one_mul, zero_add,
        Sumcheck.eval_interpolant_of_apart apart]
      apply congrArg fun sum => Except.ok ((∏ i, (roundChallenge - pointIndices i)) * sum)
      apply Finset.sum_congr rfl
      intro i _
      show roundUnivariate i * (barycentricWeights i * (roundChallenge - pointIndices i))⁻¹ = _
      rw [barycentricWeights_eq]
      rfl

/-! ## The rounds -/

/-- The round of an index, as its polynomial and challenge. -/
noncomputable def roundAt (proof : Proof) (tp : Transcript) (round : Fin CONST_PROOF_SIZE_LOG_N) :
    Sumcheck.Round Fr :=
  ⟨Sumcheck.interpolant (proof.sumcheckUnivariates round), tp.sumcheckUChallenges round⟩

/-- The polynomial that separates the gates, at a point. -/
def gateSeparator (gates x : List Fr) : Fr :=
  (List.zipWith (fun gate u => 1 + u * (gate - 1)) gates x).prod

theorem checkSum_iff {roundUnivariate : Fin BATCHED_RELATION_PARTIAL_LENGTH → Fr} {target : Fr} :
    checkSum roundUnivariate target ↔
      (Sumcheck.interpolant roundUnivariate).eval 0 +
        (Sumcheck.interpolant roundUnivariate).eval 1 = target := by
  have zero := Sumcheck.eval_interpolant pointIndices_injective roundUnivariate 0
  have one := Sumcheck.eval_interpolant pointIndices_injective roundUnivariate 1
  rw [Fin.val_zero, Nat.cast_zero] at zero
  rw [Fin.val_one, Nat.cast_one] at one
  rw [checkSum, decide_eq_true_eq, zero, one]

/-- The loop passes when its rounds do, and collects the gate separator. -/
theorem foldlM_sumcheckRound_iff {proof : Proof} {tp : Transcript}
    {rounds : List (Fin CONST_PROOF_SIZE_LOG_N)} {target pow last separator : Fr} :
    rounds.foldlM (sumcheckRound proof tp) (target, pow) = .ok (last, separator) ↔
      Sumcheck.Passes target (rounds.map (roundAt proof tp)) last ∧
        separator = pow * gateSeparator (rounds.map tp.gateChallenges)
          (rounds.map tp.sumcheckUChallenges) := by
  induction rounds generalizing target pow with
  | nil =>
      rw [List.foldlM_nil, List.map_nil, List.map_nil, List.map_nil, gateSeparator,
        List.zipWith_nil_left, List.prod_nil, mul_one, Sumcheck.Passes]
      constructor
      · intro done
        cases done
        exact ⟨rfl, rfl⟩
      · rintro ⟨first, second⟩
        exact congrArg Except.ok (Prod.ext first.symm second.symm)
  | cons round rounds ih =>
      rw [List.foldlM_cons, List.map_cons, List.map_cons, List.map_cons, Sumcheck.Passes,
        gateSeparator, List.zipWith_cons_cons, List.prod_cons, ← gateSeparator, ← mul_assoc,
        sumcheckRound, computeNextTargetSum_eq]
      by_cases checked : checkSum (proof.sumcheckUnivariates round) target
      · rw [if_pos checked]
        constructor
        · intro rest
          rcases ih.mp rest with ⟨passes, separator⟩
          exact ⟨⟨checkSum_iff.mp checked, passes⟩, separator⟩
        · rintro ⟨⟨_, passes⟩, separator⟩
          exact ih.mpr ⟨passes, separator⟩
      · rw [if_neg checked]
        constructor
        · intro failed
          cases failed
        · rintro ⟨⟨passes, _⟩, _⟩
          exact absurd (checkSum_iff.mpr passes) checked

/-- The point of the first challenges. -/
def challengePoint (tp : Transcript) (logN : Nat) : List Fr :=
  (roundsOf logN).map tp.sumcheckUChallenges

/-- The gate challenges that are used. -/
def gatesOf (tp : Transcript) (logN : Nat) : List Fr :=
  (roundsOf logN).map tp.gateChallenges

theorem point_roundAt (proof : Proof) (tp : Transcript)
    (rounds : List (Fin CONST_PROOF_SIZE_LOG_N)) :
    Sumcheck.point (rounds.map (roundAt proof tp)) = rounds.map tp.sumcheckUChallenges := by
  rw [Sumcheck.point, List.map_map]
  rfl

theorem verifySumcheck_eq_ok_iff {proof : Proof} {tp : Transcript} {vk : VerificationKey} :
    verifySumcheck proof tp vk = .ok () ↔
      (0 < vk.logCircuitSize.val ∧ vk.logCircuitSize.val ≤ CONST_PROOF_SIZE_LOG_N) ∧
        Sumcheck.Passes 0 ((roundsOf vk.logCircuitSize.val).map (roundAt proof tp))
          (accumulateRelationEvaluations (fun wire => proof.sumcheckEvaluations wire.index)
            tp.relParams tp.alphas (gateSeparator (gatesOf tp vk.logCircuitSize.val)
              (challengePoint tp vk.logCircuitSize.val))) := by
  rw [verifySumcheck]
  by_cases bounds : vk.logCircuitSize.val = 0 ∨ vk.logCircuitSize.val > CONST_PROOF_SIZE_LOG_N
  · rw [if_pos bounds]
    constructor
    · intro failed
      cases failed
    · rintro ⟨⟨positive, small⟩, _⟩
      omega
  · rw [if_neg bounds]
    constructor
    · intro ok
      cases looped : (roundsOf vk.logCircuitSize.val).foldlM (sumcheckRound proof tp) (0, 1) with
      | error message =>
          rw [looped] at ok
          cases ok
      | ok state =>
          rw [looped] at ok
          dsimp only at ok
          rcases state with ⟨last, separator⟩
          rcases foldlM_sumcheckRound_iff.mp looped with ⟨passes, collected⟩
          rw [one_mul] at collected
          refine ⟨by omega, ?_⟩
          by_cases final : accumulateRelationEvaluations
              (fun wire => proof.sumcheckEvaluations wire.index) tp.relParams tp.alphas separator =
                last
          · rw [← final, collected] at passes
            exact passes
          · rw [if_neg final] at ok
            cases ok
    · rintro ⟨_, passes⟩
      rw [foldlM_sumcheckRound_iff.mpr ⟨passes, (one_mul _).symm⟩]
      exact if_pos rfl

/-! ## What is summed -/

/-- The batched relations of the entities at a point. At points of zeros and ones the
entities take the values of a row of the circuit. -/
def summand (tp : Transcript) (logN : Nat) (entities : Wire → List Fr → Fr) (x : List Fr) : Fr :=
  accumulateRelationEvaluations (fun wire => entities wire x) tp.relParams tp.alphas
    (gateSeparator (gatesOf tp logN) x)

theorem multilinear_gateSeparator (gates : List Fr) (n : Nat) :
    Sumcheck.Multilinear n (gateSeparator gates) := by
  intro before after t width
  clear width
  induction before generalizing gates with
  | nil =>
      cases gates with
      | nil =>
          rw [gateSeparator, gateSeparator, gateSeparator, List.zipWith_nil_left,
            List.zipWith_nil_left, List.zipWith_nil_left]
          ring
      | cons gate gates =>
          rw [List.nil_append, List.nil_append, List.nil_append, gateSeparator, gateSeparator,
            gateSeparator, List.zipWith_cons_cons, List.zipWith_cons_cons, List.zipWith_cons_cons,
            List.prod_cons, List.prod_cons, List.prod_cons]
          ring
  | cons u before ih =>
      cases gates with
      | nil =>
          rw [gateSeparator, gateSeparator, gateSeparator, List.zipWith_nil_left,
            List.zipWith_nil_left, List.zipWith_nil_left]
          ring
      | cons gate gates =>
          have rest := ih gates
          rw [gateSeparator, gateSeparator, gateSeparator] at rest
          rw [List.cons_append, List.cons_append, List.cons_append, gateSeparator, gateSeparator,
            gateSeparator, List.zipWith_cons_cons, List.zipWith_cons_cons, List.zipWith_cons_cons,
            List.prod_cons, List.prod_cons, List.prod_cons, rest]
          ring

/-- Eight values determine the batched relations in each coordinate. -/
theorem lowDegree_summand (tp : Transcript) (logN : Nat) {n : Nat} {entities : Wire → List Fr → Fr}
    (multilinear : ∀ wire, Sumcheck.Multilinear n (entities wire)) :
    Sumcheck.LowDegree BATCHED_RELATION_PARTIAL_LENGTH n (summand tp logN entities) := by
  intro before after width
  have separator := multilinear_gateSeparator (gatesOf tp logN) n
  let p : Wire → Fr[X] := fun wire => Sumcheck.line (entities wire) before after
  let sep : Fr[X] := Sumcheck.line (gateSeparator (gatesOf tp logN)) before after
  refine ⟨accumulateRelationEvaluations p (tp.relParams.map C) (fun i => C (tp.alphas i)) sep,
    ?_, fun t => ?_⟩
  · have bounded : ∃ d ≤ 7, (accumulateRelationEvaluations p (tp.relParams.map C)
        (fun i => C (tp.alphas i)) sep).natDegree ≤ d :=
      degreeBound_natDegree.accumulateRelationEvaluations
        (fun wire => Sumcheck.natDegree_line _ _ _) (natDegree_C _).le (natDegree_C _).le
        (natDegree_C _).le (natDegree_C _).le (natDegree_C _).le (natDegree_C _).le
        (fun i => (natDegree_C _).le) (Sumcheck.natDegree_line _ _ _)
    rcases bounded with ⟨d, small, bound⟩
    exact (degree_le_of_natDegree_le (bound.trans small)).trans_lt (by decide)
  · have at_t := map_accumulateRelationEvaluations (evalRingHom t) p (tp.relParams.map C)
      (fun i => C (tp.alphas i)) sep
    simp only [coe_evalRingHom, p, sep, (multilinear _).eval_line width,
      separator.eval_line width, RelationParameters.map, eval_C] at at_t
    exact at_t

/-! ## Soundness and completeness -/

theorem length_roundsOf {logN : Nat} (small : logN ≤ CONST_PROOF_SIZE_LOG_N) :
    (roundsOf logN).length = logN := by
  rw [roundsOf, List.length_take, List.length_finRange, Nat.min_eq_left small]

/-- The rounds around one of them. -/
theorem split_roundsOf {logN : Nat} {before after : List (Fin CONST_PROOF_SIZE_LOG_N)}
    {round : Fin CONST_PROOF_SIZE_LOG_N} (split : roundsOf logN = before ++ round :: after) :
    before = roundsOf round.val ∧ round.val + 1 + after.length = (roundsOf logN).length := by
  have at_round : (roundsOf logN)[before.length]? = some round := by
    rw [split, List.getElem?_append_right (Nat.le_refl _), Nat.sub_self]
    rfl
  rw [roundsOf, List.getElem?_take] at at_round
  by_cases used : before.length < logN
  · rw [if_pos used] at at_round
    have index : before.length = round.val := by
      rcases List.getElem?_eq_some_iff.mp at_round with ⟨_, found⟩
      rw [← found, List.getElem_finRange]
      rfl
    constructor
    · have front : before = (roundsOf logN).take before.length := by
        rw [split, List.take_left]
      rw [front, index, roundsOf, List.take_take, Nat.min_eq_left (index ▸ used.le), roundsOf]
    · rw [split, List.length_append, List.length_cons, index]
      omega
  · rw [if_neg used] at at_round
    cases at_round

/-- The polynomial that an honest prover sends in a round, given the challenges before it. -/
noncomputable def honestUnivariate (tp : Transcript) (logN : Nat) (entities : Wire → List Fr → Fr)
    (round : Fin CONST_PROOF_SIZE_LOG_N) : Fr[X] :=
  Sumcheck.roundPolynomial BATCHED_RELATION_PARTIAL_LENGTH (logN - round.val - 1) fun x =>
    summand tp logN entities (challengePoint tp round.val ++ x)

section Openings

variable {proof : Proof} {tp : Transcript} {vk : VerificationKey}
  {entities : Wire → List Fr → Fr}

/-- The evaluations that the proof claims are those of multilinear entities. -/
structure Opens (proof : Proof) (tp : Transcript) (logN : Nat) (entities : Wire → List Fr → Fr) :
    Prop where
  multilinear : ∀ wire, Sumcheck.Multilinear logN (entities wire)
  claimed : ∀ wire, proof.sumcheckEvaluations wire.index = entities wire (challengePoint tp logN)

theorem Opens.passes_iff (opens : Opens proof tp vk.logCircuitSize.val entities)
    (positive : 0 < vk.logCircuitSize.val)
    (small : vk.logCircuitSize.val ≤ CONST_PROOF_SIZE_LOG_N) :
    verifySumcheck proof tp vk = .ok () ↔
      Sumcheck.Passes 0 ((roundsOf vk.logCircuitSize.val).map (roundAt proof tp))
        (summand tp vk.logCircuitSize.val entities
          (Sumcheck.point ((roundsOf vk.logCircuitSize.val).map (roundAt proof tp)))) := by
  rw [verifySumcheck_eq_ok_iff, and_iff_right ⟨positive, small⟩, point_roundAt, ← challengePoint,
    summand, funext opens.claimed]

/-- Rows that satisfy the relations sum to zero. -/
theorem cubeSum_summand_of_satisfies {logN : Nat}
    (satisfied : ∀ row ∈ Sumcheck.cube logN,
      Satisfies (fun wire => entities wire row) tp.relParams)
    (balanced : ((Sumcheck.cube logN).map fun row =>
      lookupTerm (fun wire => entities wire row) tp.relParams).sum = 0) :
    Sumcheck.cubeSum logN (summand tp logN entities) = 0 := by
  have rows : (Sumcheck.cube logN).map (summand tp logN entities) =
      (Sumcheck.cube logN).map fun row =>
        lookupTerm (fun wire => entities wire row) tp.relParams *
          (List.ofFn tp.alphas).getD (LOOKUP_SUM - 1) 0 := by
    apply List.map_congr_left
    intro row mem
    exact (satisfied row mem).accumulate tp.alphas _
  rw [Sumcheck.cubeSum_eq_sum, rows, List.sum_map_mul_right, balanced, zero_mul]

/-- A sum that is not zero is accepted where some round did not tell. -/
theorem confused_of_accepted (opens : Opens proof tp vk.logCircuitSize.val entities)
    (accepted : verifySumcheck proof tp vk = .ok ())
    (unsatisfied : Sumcheck.cubeSum vk.logCircuitSize.val
      (summand tp vk.logCircuitSize.val entities) ≠ 0) :
    ∃ round : Fin CONST_PROOF_SIZE_LOG_N, round.val < vk.logCircuitSize.val ∧
      tp.sumcheckUChallenges round ∈ Sumcheck.confused
        (Sumcheck.interpolant (proof.sumcheckUnivariates round))
        (honestUnivariate tp vk.logCircuitSize.val entities round) := by
  rcases (verifySumcheck_eq_ok_iff.mp accepted).1 with ⟨positive, small⟩
  have width : ((roundsOf vk.logCircuitSize.val).map (roundAt proof tp)).length =
      vk.logCircuitSize.val := by
    rw [List.length_map, length_roundsOf small]
  have low := lowDegree_summand tp vk.logCircuitSize.val opens.multilinear
  have passes := (opens.passes_iff positive small).mp accepted
  have fooled : Sumcheck.Fooled BATCHED_RELATION_PARTIAL_LENGTH
      (summand tp vk.logCircuitSize.val entities)
      ((roundsOf vk.logCircuitSize.val).map (roundAt proof tp)) := by
    apply Sumcheck.fooled_of_passes pointIndices_injective _ passes
    · rw [width]
      exact Ne.symm unsatisfied
    · rw [width]
      exact low
  rcases Sumcheck.fooled_iff.mp fooled with ⟨before, sent, after, split, confused⟩
  rcases List.map_eq_append_iff.mp split with ⟨rounds, rest, rounds_eq, rfl, tail⟩
  rcases List.map_eq_cons_iff.mp tail with ⟨round, later, rfl, rfl, rfl⟩
  rcases split_roundsOf rounds_eq with ⟨rfl, count⟩
  rw [length_roundsOf small] at count
  have honest : Sumcheck.roundPolynomial BATCHED_RELATION_PARTIAL_LENGTH
      (later.map (roundAt proof tp)).length (fun x => summand tp vk.logCircuitSize.val entities
        (Sumcheck.point ((roundsOf round.val).map (roundAt proof tp)) ++ x)) =
      honestUnivariate tp vk.logCircuitSize.val entities round := by
    have left : later.length = vk.logCircuitSize.val - round.val - 1 := by omega
    rw [List.length_map, left, point_roundAt, honestUnivariate, challengePoint]
  rw [honest] at confused
  exact ⟨round, by omega, confused⟩

/-- An accepted proof about rows that do not satisfy the relations, in sum, was accepted by
accident: in some round the challenge is one of fewer than eight that what was sent before
singles out. -/
theorem verifySumcheck_sound (opens : Opens proof tp vk.logCircuitSize.val entities)
    (accepted : verifySumcheck proof tp vk = .ok ())
    (unsatisfied : Sumcheck.cubeSum vk.logCircuitSize.val
      (summand tp vk.logCircuitSize.val entities) ≠ 0) :
    ∃ round : Fin CONST_PROOF_SIZE_LOG_N, round.val < vk.logCircuitSize.val ∧
      tp.sumcheckUChallenges round ∈ Sumcheck.confused
        (Sumcheck.interpolant (proof.sumcheckUnivariates round))
        (honestUnivariate tp vk.logCircuitSize.val entities round) ∧
      (Sumcheck.confused (Sumcheck.interpolant (proof.sumcheckUnivariates round))
        (honestUnivariate tp vk.logCircuitSize.val entities round)).encard <
          BATCHED_RELATION_PARTIAL_LENGTH := by
  rcases confused_of_accepted opens accepted unsatisfied with ⟨round, used, confused⟩
  refine ⟨round, used, confused, Sumcheck.encard_confused_lt (by decide) ?_ ?_⟩
  · exact Sumcheck.degree_interpolant pointIndices_injective _
  · exact Sumcheck.degree_roundPolynomial pointIndices_injective

/-- With the polynomials of the sum in every round, acceptance is a matter of the sum. -/
theorem Opens.accepts_iff (opens : Opens proof tp vk.logCircuitSize.val entities)
    (positive : 0 < vk.logCircuitSize.val)
    (small : vk.logCircuitSize.val ≤ CONST_PROOF_SIZE_LOG_N)
    (honest : ∀ round : Fin CONST_PROOF_SIZE_LOG_N, round.val < vk.logCircuitSize.val →
      ∀ k : Fin BATCHED_RELATION_PARTIAL_LENGTH, proof.sumcheckUnivariates round k =
        Sumcheck.cubeSum (vk.logCircuitSize.val - round.val - 1) fun x =>
          summand tp vk.logCircuitSize.val entities
            (challengePoint tp round.val ++ ((k : Nat) : Fr) :: x)) :
    verifySumcheck proof tp vk = .ok () ↔
      Sumcheck.cubeSum vk.logCircuitSize.val (summand tp vk.logCircuitSize.val entities) = 0 := by
  have width : ((roundsOf vk.logCircuitSize.val).map (roundAt proof tp)).length =
      vk.logCircuitSize.val := by
    rw [List.length_map, length_roundsOf small]
  have low : Sumcheck.LowDegree BATCHED_RELATION_PARTIAL_LENGTH
      ((roundsOf vk.logCircuitSize.val).map (roundAt proof tp)).length
      (summand tp vk.logCircuitSize.val entities) := by
    rw [width]
    exact lowDegree_summand tp vk.logCircuitSize.val opens.multilinear
  rw [opens.passes_iff positive small,
    Sumcheck.passes_iff_of_honest pointIndices_injective low ?_, width, eq_comm]
  apply Sumcheck.honest_iff.mpr
  intro before sent after split
  rcases List.map_eq_append_iff.mp split with ⟨rounds, rest, rounds_eq, rfl, tail⟩
  rcases List.map_eq_cons_iff.mp tail with ⟨round, later, rfl, rfl, rfl⟩
  rcases split_roundsOf rounds_eq with ⟨rfl, count⟩
  rw [length_roundsOf small] at count
  have left : later.length = vk.logCircuitSize.val - round.val - 1 := by omega
  have used : round.val < vk.logCircuitSize.val := by omega
  rw [List.length_map, left, point_roundAt, Sumcheck.roundPolynomial, roundAt,
    funext (honest round used), challengePoint]

/-- An honest prover is accepted exactly when the relations sum to zero over the rows. So
the honest proof of a circuit that is satisfied on every row passes, whatever the
challenges. -/
theorem verifySumcheck_complete (opens : Opens proof tp vk.logCircuitSize.val entities)
    (positive : 0 < vk.logCircuitSize.val)
    (small : vk.logCircuitSize.val ≤ CONST_PROOF_SIZE_LOG_N)
    (honest : ∀ round : Fin CONST_PROOF_SIZE_LOG_N, round.val < vk.logCircuitSize.val →
      ∀ k : Fin BATCHED_RELATION_PARTIAL_LENGTH, proof.sumcheckUnivariates round k =
        Sumcheck.cubeSum (vk.logCircuitSize.val - round.val - 1) fun x =>
          summand tp vk.logCircuitSize.val entities
            (challengePoint tp round.val ++ ((k : Nat) : Fr) :: x)) :
    (verifySumcheck proof tp vk = .ok () ↔
      ((Sumcheck.cube vk.logCircuitSize.val).map
        (summand tp vk.logCircuitSize.val entities)).sum = 0) ∧
    ((∀ row ∈ Sumcheck.cube vk.logCircuitSize.val,
        Satisfies (fun wire => entities wire row) tp.relParams) →
      ((Sumcheck.cube vk.logCircuitSize.val).map fun row =>
        lookupTerm (fun wire => entities wire row) tp.relParams).sum = 0 →
      verifySumcheck proof tp vk = .ok ()) := by
  have accepts := opens.accepts_iff positive small honest
  constructor
  · rw [accepts, Sumcheck.cubeSum_eq_sum]
  · intro satisfied balanced
    exact accepts.mpr (cubeSum_summand_of_satisfies satisfied balanced)

end Openings

/-! ## A circuit of two equal rows -/

/-- The claimed evaluations of a circuit whose rows are all `wl + qc = 0`. -/
def constantRow (wl qc : Fr) (i : Fin NUMBER_OF_ENTITIES) : Fr :=
  if i = Wire.index .qArith ∨ i = Wire.index .ql then 1
  else if i = Wire.index .wl then wl
  else if i = Wire.index .qc then qc
  else 0

def sampleKey : VerificationKey where
  circuitSize := 2
  logCircuitSize := 1
  publicInputsSize := 16
  pubInputsOffset := 0
  points _ := default

def sampleTranscript (challenge : Fr) : Transcript where
  relParams := ⟨0, 0, 0, 0, 0, 0⟩
  alphas _ := 0
  gateChallenges _ := 1
  sumcheckUChallenges _ := challenge
  rho := 0
  geminiR := 0
  shplonkNu := 0
  shplonkZ := 0

def sampleProof (univariate : Fin BATCHED_RELATION_PARTIAL_LENGTH → Fr)
    (evaluations : Fin NUMBER_OF_ENTITIES → Fr) : Proof where
  pairingPointObject _ := 0
  w1 := default
  w2 := default
  w3 := default
  w4 := default
  lookupReadCounts := default
  lookupReadTags := default
  lookupInverses := default
  zPerm := default
  sumcheckUnivariates _ := univariate
  sumcheckEvaluations := evaluations
  geminiFoldComms _ := default
  geminiAEvaluations _ := 0
  shplonkQ := default
  kzgQuotient := default

theorem opens_constant (univariate : Fin BATCHED_RELATION_PARTIAL_LENGTH → Fr)
    (evaluations : Fin NUMBER_OF_ENTITIES → Fr) (tp : Transcript) (logN : Nat) :
    Opens (sampleProof univariate evaluations) tp logN
      fun wire _ => evaluations wire.index where
  multilinear _ before after t _ := by ring
  claimed _ := rfl

/-- A false sum passes where the challenge is one that the univariate was made for. -/
theorem verifySumcheck_sound_fooled :
    ∃ round : Fin CONST_PROOF_SIZE_LOG_N, round.val < 1 ∧
      2 ∈ Sumcheck.confused (Sumcheck.interpolant ![0, 0, 1, 0, 0, 0, 0, 0])
        (honestUnivariate (sampleTranscript 2) 1
          (fun wire _ => constantRow 0 1 wire.index) round) ∧
      (Sumcheck.confused (Sumcheck.interpolant ![0, 0, 1, 0, 0, 0, 0, 0])
        (honestUnivariate (sampleTranscript 2) 1
          (fun wire _ => constantRow 0 1 wire.index) round)).encard <
          BATCHED_RELATION_PARTIAL_LENGTH := by
  have accepted : verifySumcheck (sampleProof ![0, 0, 1, 0, 0, 0, 0, 0] (constantRow 0 1))
      (sampleTranscript 2) sampleKey = .ok () := by
    decide +kernel
  exact verifySumcheck_sound (opens_constant _ _ _ _) accepted (by decide +kernel)

/-- The rows `5 - 5 = 0` pass. -/
theorem verifySumcheck_complete_sample :
    verifySumcheck (sampleProof (fun _ => 0) (constantRow 5 (-5))) (sampleTranscript 2) sampleKey =
      .ok () := by
  have opens : Opens (sampleProof (fun _ => 0) (constantRow 5 (-5))) (sampleTranscript 2)
      sampleKey.logCircuitSize.val fun wire _ => constantRow 5 (-5) wire.index :=
    opens_constant _ _ _ _
  have complete := verifySumcheck_complete opens (by decide) (by decide) (by decide +kernel)
  exact complete.2 (by decide +kernel) (by decide +kernel)

end Solva.Verifier
