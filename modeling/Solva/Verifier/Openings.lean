import Mathlib.Algebra.BigOperators.Intervals
import Solva.Verifier.Shplemini
import Solva.Verifier.Sumcheck

/-!
# What an accepted opening says

A prover that knows polynomials for its commitments is held to them: an accepted opening
makes the claimed evaluations those of the multilinear functions whose tables are the
coefficients, or a challenge has hit a root of a polynomial that was fixed before it was
drawn. In the shifts the rows move up by one.
-/

namespace Solva.Verifier

open Bn254 Codec Polynomial

/-! ## Polynomials -/

/-- The polynomials behind the commitments of a key and a proof. -/
structure Committed where
  entity : Nat → Fr[X]
  fold : Nat → Fr[X]
  shplonkQ : Fr[X]
  kzgQuotient : Fr[X]

variable {G : Type*} [AddCommGroup G] [Module Fr G]

/-- The host reads each commitment as that of the polynomial. -/
structure Commits (curve : Curve G) (g : G) (τ : Fr) (proof : Proof) (vk : VerificationKey)
    (polys : Committed) : Prop where
  entities : (unshiftedComs proof vk).map curve.point =
    (List.range NUMBER_UNSHIFTED).map fun i => some (Opening.commit g τ (polys.entity i))
  folds : (List.ofFn proof.geminiFoldComms).map curve.point =
    (List.range (CONST_PROOF_SIZE_LOG_N - 1)).map fun j => some (Opening.commit g τ (polys.fold j))
  shplonkQ : curve.point proof.shplonkQ = some (Opening.commit g τ polys.shplonkQ)
  kzgQuotient : curve.point proof.kzgQuotient = some (Opening.commit g τ polys.kzgQuotient)

/-- The polynomial of an entity. A shift leaves the first row out. -/
noncomputable def entityPolynomial (entity : Nat → Fr[X]) (i : Nat) : Fr[X] :=
  if i < NUMBER_UNSHIFTED then entity i else divX (entity (i - 8))

/-- The multilinear function of an entity, with the coefficients as its rows. -/
noncomputable def entityRows (polys : Committed) (wire : Wire) : List Fr → Fr :=
  Sumcheck.extend fun bits =>
    (entityPolynomial polys.entity wire.index).coeff (Opening.index bits)

section Batches

variable (entity : Nat → Fr[X]) (rho : Fr)

noncomputable def unshiftedPolynomial : Fr[X] :=
  ∑ i ∈ Finset.range NUMBER_UNSHIFTED, C (rho ^ i) * entity i

noncomputable def shiftedPolynomial : Fr[X] :=
  ∑ k ∈ Finset.range 5, C (rho ^ (NUMBER_UNSHIFTED + k)) * entity (27 + k)

/-- The batch of all entities. -/
noncomputable def batchPolynomial : Fr[X] :=
  ∑ i ∈ Finset.range NUMBER_OF_ENTITIES, C (rho ^ i) * entityPolynomial entity i

theorem batchPolynomial_eq :
    batchPolynomial entity rho =
      unshiftedPolynomial entity rho + divX (shiftedPolynomial entity rho) := by
  have count : NUMBER_OF_ENTITIES = NUMBER_UNSHIFTED + 5 := rfl
  rw [batchPolynomial, count, Finset.sum_range_add, unshiftedPolynomial, shiftedPolynomial]
  apply congrArg₂ (· + ·)
  · apply Finset.sum_congr rfl
    intro i mem
    rw [entityPolynomial, if_pos (Finset.mem_range.mp mem)]
  · have divided := map_sum divX_hom (fun k => C (rho ^ (NUMBER_UNSHIFTED + k)) * entity (27 + k))
      (Finset.range 5)
    simp only [divX_hom_toFun] at divided
    rw [divided]
    apply Finset.sum_congr rfl
    intro k mem
    have place : NUMBER_UNSHIFTED + k - 8 = 27 + k := by
      unfold NUMBER_UNSHIFTED
      omega
    rw [entityPolynomial, if_neg (Nat.not_lt.mpr (Nat.le_add_right _ k)), place, divX_C_mul]

/-- The coefficients of a polynomial without its constant. -/
theorem eval_divX (f : Fr[X]) (x : Fr) : f.eval x = f.coeff 0 + x * (divX f).eval x := by
  have whole := congrArg (eval x) (divX_mul_X_add f)
  rw [eval_add, eval_mul, eval_X, eval_C] at whole
  rw [← whole]
  ring

end Batches

/-! ## Commitments -/

/-- What the host reads, with the point at infinity for what it does not. -/
def pointOf (curve : Curve G) (com : G1Point) : G :=
  (curve.point com).getD 0

section Commitments

variable {curve : Curve G} {g : G} {τ : Fr} {proof : Proof} {vk : VerificationKey}
  {polys : Committed}

omit [Module Fr G] in
/-- Commitments that are read are those of the points. -/
theorem map_pointOf {coms : List G1Point} {ι : Type*} {items : List ι} {f : ι → G}
    (read : coms.map curve.point = items.map fun i => some (f i)) :
    coms.map (pointOf curve) = items.map f := by
  have points := congrArg (List.map (·.getD (0 : G))) read
  rwa [List.map_map, List.map_map] at points

omit [Module Fr G] in
theorem point_eq_of_mem {coms : List G1Point} {ι : Type*} {items : List ι} {f : ι → G}
    (read : coms.map curve.point = items.map fun i => some (f i)) {com : G1Point}
    (mem : com ∈ coms) : curve.point com = some (pointOf curve com) := by
  have read_mem := List.mem_map_of_mem (f := curve.point) mem
  rw [read] at read_mem
  rcases List.mem_map.mp read_mem with ⟨i, _, found⟩
  rw [pointOf, ← found, Option.getD_some]

theorem Commits.decoded (commits : Commits curve g τ proof vk polys) (lawful : curve.Lawful g τ) :
    ∀ com ∈ msmComs proof vk, curve.point com = some (pointOf curve com) := by
  intro com mem
  rw [msmComs] at mem
  simp only [List.mem_append, List.mem_cons, List.not_mem_nil, or_false] at mem
  rcases mem with ((rfl | entity) | fold) | rfl | rfl
  · rw [pointOf, commits.shplonkQ, Option.getD_some]
  · exact point_eq_of_mem commits.entities entity
  · exact point_eq_of_mem commits.folds fold
  · rw [pointOf, lawful.generator, Option.getD_some]
  · rw [pointOf, commits.kzgQuotient, Option.getD_some]

/-- A batch of commitments is the commitment of the batch. -/
theorem weighted_commit (count : Nat) (f : Nat → Fr[X]) (scalar : Nat → Fr) :
    weighted ((List.range count).map fun i => Opening.commit g τ (f i))
        ((List.range count).map scalar) =
      Opening.commit g τ (∑ i ∈ Finset.range count, C (scalar i) * f i) := by
  induction count with
  | zero => rw [Finset.range_zero, Finset.sum_empty, Opening.commit, eval_zero, zero_smul]; rfl
  | succ count ih =>
      rw [List.range_succ, List.map_append, List.map_append, weighted_append (by simp), ih,
        Finset.sum_range_succ, Opening.commit, Opening.commit, eval_add, add_smul, eval_mul, eval_C,
        mul_smul]
      congr 1
      exact add_zero _

theorem Commits.unshiftedBatch (commits : Commits curve g τ proof vk polys) (tp : Transcript) :
    unshiftedBatch proof vk tp (pointOf curve) =
      Opening.commit g τ (unshiftedPolynomial polys.entity tp.rho) := by
  rw [Verifier.unshiftedBatch, map_pointOf commits.entities, weighted_commit, unshiftedPolynomial]

theorem Commits.shiftedBatch (commits : Commits curve g τ proof vk polys) (tp : Transcript) :
    shiftedBatch proof tp (pointOf curve) =
      Opening.commit g τ (shiftedPolynomial polys.entity tp.rho) := by
  have slice : shiftedComs proof = ((unshiftedComs proof vk).drop 27).take 5 := by
    rw [unshiftedComs, List.drop_left' (List.length_ofFn)]
    rfl
  have points : (shiftedComs proof).map (pointOf curve) =
      (List.range 5).map fun k => Opening.commit g τ (polys.entity (27 + k)) := by
    rw [slice, List.map_take, List.map_drop, map_pointOf commits.entities]
    rfl
  have powers : (List.range' NUMBER_UNSHIFTED 5).map (tp.rho ^ ·) =
      (List.range 5).map fun k => tp.rho ^ (NUMBER_UNSHIFTED + k) :=
    rfl
  rw [Verifier.shiftedBatch, points, powers, weighted_commit, shiftedPolynomial]

/-- All claims about openings, of polynomials. -/
noncomputable def openedClaims (proof : Proof) (vk : VerificationKey) (tp : Transcript)
    (polys : Committed) : List (Opening.Opened Fr) :=
  let logN := vk.logCircuitSize.val
  let positives := claimedPositives proof tp logN
  let unshifted := unshiftedPolynomial polys.entity tp.rho
  let shifted := C tp.geminiR⁻¹ * shiftedPolynomial polys.entity tp.rho
  [⟨unshifted + shifted, tp.geminiR, positives.getD 0 0⟩,
    ⟨unshifted - shifted, -tp.geminiR, aEvaluation proof 0⟩] ++
    (List.range (logN - 1)).flatMap fun j =>
      [⟨polys.fold j, tp.geminiR ^ 2 ^ (j + 1), positives.getD (j + 1) 0⟩,
        ⟨polys.fold j, -(tp.geminiR ^ 2 ^ (j + 1)), aEvaluation proof (j + 1)⟩]

theorem Commits.openingClaims (commits : Commits curve g τ proof vk polys) (tp : Transcript)
    (small : vk.logCircuitSize.val ≤ CONST_PROOF_SIZE_LOG_N) :
    openingClaims proof vk tp (pointOf curve) =
      (openedClaims proof vk tp polys).map (Opening.Opened.claim g τ) := by
  have scaled : tp.geminiR⁻¹ • Opening.commit g τ (shiftedPolynomial polys.entity tp.rho) =
      Opening.commit g τ (C tp.geminiR⁻¹ * shiftedPolynomial polys.entity tp.rho) := by
    rw [Opening.commit, Opening.commit, eval_mul, eval_C, mul_smul]
  rw [Verifier.openingClaims, openedClaims, commits.unshiftedBatch, commits.shiftedBatch,
    map_pointOf commits.folds, scaled, List.map_append, List.map_flatMap, pairClaims, List.map_cons,
    List.map_cons, List.map_nil, Opening.Opened.claim, Opening.Opened.claim]
  apply congrArg₂ (· ++ ·)
  · rw [Opening.commit, Opening.commit, Opening.commit, Opening.commit, ← add_smul, ← sub_smul,
      eval_add, eval_sub]
  · apply List.flatMap_congr
    intro j mem
    have used : j < CONST_PROOF_SIZE_LOG_N - 1 :=
      (List.mem_range.mp mem).trans_le (Nat.sub_le_sub_right small 1)
    have at_j : ((List.range (CONST_PROOF_SIZE_LOG_N - 1)).map fun j =>
        Opening.commit g τ (polys.fold j)).getD j 0 = Opening.commit g τ (polys.fold j) := by
      rw [List.getD_eq_getElem?_getD, List.getElem?_map, List.getElem?_range used]
      rfl
    rw [at_j]
    rfl

end Commitments

/-! ## What acceptance leaves open -/

/-- What the folds and the claimed evaluation do not satisfy, for each square of `r`. The
first layer has a pole where a shifted polynomial has a constant. -/
noncomputable def foldDefects (entity fold : Nat → Fr[X]) (rho final : Fr) : List Fr → List Fr[X]
  | [] => []
  | u :: us =>
      let folds := (List.range us.length).map fold
      Opening.poleDefect u ((shiftedPolynomial entity rho).coeff 0) (batchPolynomial entity rho)
        (folds.headD (C final)) :: Opening.defects us folds final

/-- What the claimed evaluations differ by, in the powers of `rho`. -/
noncomputable def evaluationDefect (entity : Nat → Fr[X])
    (evaluations : Fin NUMBER_OF_ENTITIES → Fr) (us : List Fr) : Fr[X] :=
  ∑ i, C (evaluations i - Sumcheck.extend
    (fun bits => (entityPolynomial entity i).coeff (Opening.index bits)) us) * X ^ i.val

/-- The constants of the shifted polynomials, in the powers of `rho`. -/
noncomputable def shiftDefect (entity : Nat → Fr[X]) : Fr[X] :=
  ∑ k ∈ Finset.range 5, C ((entity (27 + k)).coeff 0) * X ^ (NUMBER_UNSHIFTED + k)

/-- The challenges of the sumcheck, by number. -/
def uChallenges (tp : Transcript) (logN : Nat) : List Fr :=
  (List.range logN).map (uChallenge tp)

theorem uChallenges_succ (tp : Transcript) (m : Nat) :
    uChallenges tp (m + 1) =
      uChallenge tp 0 :: (List.range m).map fun j => uChallenge tp (j + 1) := by
  rw [uChallenges, List.range_succ_eq_map, List.map_cons, List.map_map]
  rfl

theorem challengePoint_eq (tp : Transcript) {logN : Nat}
    (small : logN ≤ CONST_PROOF_SIZE_LOG_N) : challengePoint tp logN = uChallenges tp logN := by
  apply List.ext_getElem
  · rw [challengePoint, List.length_map, length_roundsOf small, uChallenges, List.length_map,
      List.length_range]
  · intro i _ used
    rw [uChallenges, List.length_map, List.length_range] at used
    simp only [challengePoint, uChallenges, roundsOf, List.getElem_map, List.getElem_take,
      List.getElem_finRange, List.getElem_range]
    exact (uChallenge_eq ⟨i, used.trans_le small⟩).symm

/-- How a false evaluation is accepted: the secret or a challenge hits a root of what was
fixed before it was drawn, or the challenges make two claims one. -/
inductive Accident (τ : Fr) (proof : Proof) (vk : VerificationKey) (tp : Transcript)
    (polys : Committed) : Prop
  | secret
      (nonzero : polys.shplonkQ - Opening.leftover tp.shplonkNu tp.shplonkZ
        (openedClaims proof vk tp polys) - (X - C tp.shplonkZ) * polys.kzgQuotient ≠ 0)
      (root : (polys.shplonkQ - Opening.leftover tp.shplonkNu tp.shplonkZ
        (openedClaims proof vk tp polys) - (X - C tp.shplonkZ) * polys.kzgQuotient).eval τ = 0)
  | shplonkZ
      (nonzero : Opening.falsity tp.shplonkNu polys.shplonkQ (openedClaims proof vk tp polys) ≠ 0)
      (root : (Opening.falsity tp.shplonkNu polys.shplonkQ
        (openedClaims proof vk tp polys)).eval tp.shplonkZ = 0)
  | shplonkNu (zero : tp.shplonkNu = 0)
  | points (repeated : ¬((openedClaims proof vk tp polys).map Opening.Opened.point).Nodup)
  | geminiR (j : Nat) (defect : Fr[X])
      (at_j : (foldDefects polys.entity polys.fold tp.rho (batchedEvaluation proof tp)
        (uChallenges tp vk.logCircuitSize.val))[j]? = some defect)
      (nonzero : defect ≠ 0) (root : defect.eval (tp.geminiR ^ 2 ^ (j + 1)) = 0)
  | rho
      (nonzero : evaluationDefect polys.entity proof.sumcheckEvaluations
        (uChallenges tp vk.logCircuitSize.val) ≠ 0)
      (root : (evaluationDefect polys.entity proof.sumcheckEvaluations
        (uChallenges tp vk.logCircuitSize.val)).eval tp.rho = 0)
  | shift (nonzero : shiftDefect polys.entity ≠ 0)
      (root : (shiftDefect polys.entity).eval tp.rho = 0)
  | first (zero : uChallenge tp 0 = 0)

/-! ## The denominators -/

section Denominators

variable {proof : Proof} {vk : VerificationKey} {tp : Transcript} {polys : Committed} {logN : Nat}

theorem mem_toInvert_round {j : Nat} (used : j < logN) :
    tp.geminiR ^ 2 ^ j * (1 - uChallenge tp j) + uChallenge tp j ∈ toInvert tp logN := by
  rw [← rPow_eq used]
  apply List.mem_append_left
  apply List.mem_append_right
  exact List.mem_map_of_mem (List.mem_reverse.mpr (List.mem_range.mpr used))

theorem mem_toInvert_point (tp : Transcript) {j : Nat} (used : j < logN) :
    tp.shplonkZ - tp.geminiR ^ 2 ^ j ∈ toInvert tp logN ∧
      tp.shplonkZ + tp.geminiR ^ 2 ^ j ∈ toInvert tp logN := by
  rw [← rPow_eq used]
  cases j with
  | zero => exact ⟨List.mem_cons_self, List.mem_cons_of_mem _ List.mem_cons_self⟩
  | succ j =>
      have mem : j ∈ List.range (logN - 1) := List.mem_range.mpr (by omega)
      constructor
      · exact List.mem_append_right _ (List.mem_flatMap.mpr ⟨j, mem, List.mem_cons_self⟩)
      · exact List.mem_append_right _ (List.mem_flatMap.mpr
          ⟨j, mem, List.mem_cons_of_mem _ List.mem_cons_self⟩)

variable (nonzero : 0 ∉ toInvert tp logN)

include nonzero

theorem geminiR_ne_zero : tp.geminiR ≠ 0 := by
  intro zero
  apply nonzero
  rw [← zero]
  exact List.mem_append_left _ (List.mem_append_left _
    (List.mem_cons_of_mem _ (List.mem_cons_of_mem _ List.mem_cons_self)))

theorem denominators_ne_zero :
    ∀ d ∈ Opening.denominators tp.geminiR (uChallenges tp logN), d ≠ 0 := by
  intro d mem zero
  rw [uChallenges, Opening.denominators_range] at mem
  rcases List.mem_map.mp mem with ⟨j, used, rfl⟩
  rw [← zero] at nonzero
  exact nonzero (mem_toInvert_round (List.mem_range.mp used))

theorem shplonkZ_ne {j : Nat} (used : j < logN) :
    tp.shplonkZ ≠ tp.geminiR ^ 2 ^ j ∧ tp.shplonkZ ≠ -(tp.geminiR ^ 2 ^ j) := by
  have points := mem_toInvert_point tp used
  constructor
  · intro same
    rw [sub_eq_zero.mpr same] at points
    exact nonzero points.1
  · intro same
    rw [same, neg_add_cancel] at points
    exact nonzero points.2

end Denominators

theorem apart_openedClaims {proof : Proof} {vk : VerificationKey} {tp : Transcript}
    {polys : Committed} (positive : 0 < vk.logCircuitSize.val)
    (nonzero : 0 ∉ toInvert tp vk.logCircuitSize.val) :
    ∀ opened ∈ openedClaims proof vk tp polys, tp.shplonkZ ≠ opened.point := by
  have first := shplonkZ_ne nonzero positive
  rw [pow_zero, pow_one] at first
  intro opened mem
  rw [openedClaims] at mem
  rcases List.mem_append.mp mem with whole | fold
  · rw [List.mem_cons, List.mem_singleton] at whole
    rcases whole with rfl | rfl
    · exact first.1
    · exact first.2
  · rcases List.mem_flatMap.mp fold with ⟨j, used, pair⟩
    have later := shplonkZ_ne nonzero (Nat.add_lt_of_lt_sub (List.mem_range.mp used))
    rw [List.mem_cons, List.mem_singleton] at pair
    rcases pair with rfl | rfl
    · exact later.1
    · exact later.2

/-! ## From claims to folds -/

section Claims

variable {proof : Proof} {vk : VerificationKey} {tp : Transcript} {polys : Committed}

theorem eval_batchPolynomial {entity : Nat → Fr[X]} {rho x : Fr} (x_ne : x ≠ 0) :
    (batchPolynomial entity rho).eval x + x⁻¹ * (shiftedPolynomial entity rho).coeff 0 =
      (unshiftedPolynomial entity rho + C x⁻¹ * shiftedPolynomial entity rho).eval x := by
  rw [batchPolynomial_eq, eval_add, eval_add, eval_mul, eval_C, eval_divX (shiftedPolynomial _ _)]
  field_simp
  ring

theorem claimedPositives_succ (proof : Proof) (tp : Transcript) (m : Nat) :
    claimedPositives proof tp (m + 1) =
      Opening.positive tp.geminiR (uChallenge tp 0) (aEvaluation proof 0)
        ((Opening.positives (tp.geminiR ^ 2) ((List.range m).map fun j =>
          (uChallenge tp (j + 1), aEvaluation proof (j + 1)))
          (batchedEvaluation proof tp)).headD (batchedEvaluation proof tp)) ::
        Opening.positives (tp.geminiR ^ 2) ((List.range m).map fun j =>
          (uChallenge tp (j + 1), aEvaluation proof (j + 1))) (batchedEvaluation proof tp) := by
  rw [claimedPositives, List.range_succ_eq_map, List.map_cons, List.map_map]
  rfl

/-- The values at the squares beyond the first, when the claims about the folds are true. -/
theorem values_of_true {m : Nat} (count : vk.logCircuitSize.val = m + 1)
    (true_ : ∀ opened ∈ openedClaims proof vk tp polys,
      opened.poly.eval opened.point = opened.value) :
    let later := (List.range m).map fun j => (uChallenge tp (j + 1), aEvaluation proof (j + 1))
    let folds := (List.range m).map polys.fold
    later = ((List.range m).map fun j => uChallenge tp (j + 1)).zip
        (Opening.negatives (tp.geminiR ^ 2) folds) ∧
      Opening.positives (tp.geminiR ^ 2) later (batchedEvaluation proof tp) =
        Opening.values (tp.geminiR ^ 2) folds := by
  have square (j : Nat) : (tp.geminiR ^ 2) ^ 2 ^ j = tp.geminiR ^ 2 ^ (j + 1) := by
    rw [← pow_mul, pow_succ' 2 j]
  have fold_mem {j : Nat} (used : j < m) {opened : Opening.Opened Fr}
      (mem : opened ∈ [(⟨polys.fold j, tp.geminiR ^ 2 ^ (j + 1),
          (claimedPositives proof tp vk.logCircuitSize.val).getD (j + 1) 0⟩ : Opening.Opened Fr),
        ⟨polys.fold j, -(tp.geminiR ^ 2 ^ (j + 1)), aEvaluation proof (j + 1)⟩]) :
      opened.poly.eval opened.point = opened.value := by
    apply true_
    apply List.mem_append_right
    refine List.mem_flatMap.mpr ⟨j, List.mem_range.mpr ?_, mem⟩
    rwa [count, Nat.add_sub_cancel]
  dsimp only
  constructor
  · have negatives : Opening.negatives (tp.geminiR ^ 2) ((List.range m).map polys.fold) =
        (List.range m).map fun j => aEvaluation proof (j + 1) := by
      apply List.ext_getElem?
      intro j
      rw [Opening.getElem?_negatives, List.getElem?_map, List.getElem?_map, Option.map_map, square]
      by_cases used : j < m
      · rw [List.getElem?_range used]
        exact congrArg some (fold_mem used (List.mem_cons_of_mem _ List.mem_cons_self))
      · rw [List.getElem?_eq_none (by rw [List.length_range]; omega)]
        rfl
    rw [negatives, List.zip_map']
  · apply List.ext_getElem?
    intro j
    rw [Opening.getElem?_values, List.getElem?_map, Option.map_map, square]
    by_cases used : j < m
    · have value := fold_mem used List.mem_cons_self
      rw [count, claimedPositives_succ, List.getD_cons_succ, List.getD_eq_getElem?_getD] at value
      have inside : j < (Opening.positives (tp.geminiR ^ 2) ((List.range m).map fun j =>
          (uChallenge tp (j + 1), aEvaluation proof (j + 1)))
          (batchedEvaluation proof tp)).length := by
        rwa [Opening.length_positives, List.length_map, List.length_range]
      rw [List.getElem?_range used]
      rw [List.getElem?_eq_getElem inside, Option.getD_some] at value
      rw [List.getElem?_eq_getElem inside]
      exact congrArg some value.symm
    · rw [List.getElem?_eq_none, List.getElem?_eq_none (by rw [List.length_range]; omega)]
      · rfl
      · rw [Opening.length_positives, List.length_map, List.length_range]
        omega

/-- With all claims true, each defect has its square as a root. -/
theorem foldDefects_roots (positive : 0 < vk.logCircuitSize.val)
    (nonzero : 0 ∉ toInvert tp vk.logCircuitSize.val)
    (true_ : ∀ opened ∈ openedClaims proof vk tp polys,
      opened.poly.eval opened.point = opened.value) {j : Nat} {defect : Fr[X]}
    (at_j : (foldDefects polys.entity polys.fold tp.rho (batchedEvaluation proof tp)
      (uChallenges tp vk.logCircuitSize.val))[j]? = some defect) :
    defect.eval (tp.geminiR ^ 2 ^ (j + 1)) = 0 := by
  rcases Nat.exists_eq_succ_of_ne_zero positive.ne' with ⟨m, count⟩
  have two_ne : (2 : Fr) ≠ 0 := by decide +kernel
  have r_ne := geminiR_ne_zero nonzero
  have denominators := denominators_ne_zero nonzero
  rcases values_of_true count true_ with ⟨zipped, values⟩
  have first := true_ _ (List.mem_append_left _ List.mem_cons_self)
  have other := true_ _ (List.mem_append_left _ (List.mem_cons_of_mem _ List.mem_cons_self))
  have minus : unshiftedPolynomial polys.entity tp.rho -
        C tp.geminiR⁻¹ * shiftedPolynomial polys.entity tp.rho =
      unshiftedPolynomial polys.entity tp.rho +
        C (-tp.geminiR)⁻¹ * shiftedPolynomial polys.entity tp.rho := by
    rw [inv_neg, C_neg, neg_mul, sub_eq_add_neg]
  dsimp only at first other
  rw [minus, ← eval_batchPolynomial (neg_ne_zero.mpr r_ne), inv_neg, neg_mul,
    ← sub_eq_add_neg] at other
  rw [count, uChallenges_succ, Opening.denominators, List.forall_mem_cons] at denominators
  rw [← eval_batchPolynomial r_ne, count, claimedPositives_succ, List.getD_cons_zero, zipped]
    at first
  rw [zipped] at values
  rw [Opening.headD_positives values] at first
  rw [count, uChallenges_succ, foldDefects, List.length_map, List.length_range] at at_j
  cases j with
  | zero =>
      rw [List.getElem?_cons_zero, Option.some.injEq] at at_j
      rw [← at_j, Nat.zero_add, pow_one]
      apply Opening.eval_poleDefect two_ne r_ne denominators.1
      rw [other]
      exact first.symm
  | succ j =>
      rw [List.getElem?_cons_succ] at at_j
      have roots := Opening.defects_roots two_ne (pow_ne_zero 2 r_ne) denominators.2 values
      have value : (Opening.values ((tp.geminiR ^ 2) ^ 2) (Opening.defects
          ((List.range m).map fun j => uChallenge tp (j + 1)) ((List.range m).map polys.fold)
          (batchedEvaluation proof tp)))[j]? =
            some (defect.eval (((tp.geminiR ^ 2) ^ 2) ^ 2 ^ j)) := by
        rw [Opening.getElem?_values, at_j]
        rfl
      have square : ((tp.geminiR ^ 2) ^ 2) ^ 2 ^ j = tp.geminiR ^ 2 ^ (j + 1 + 1) := by
        rw [← pow_mul, ← pow_mul, pow_succ' 2 (j + 1), pow_succ' 2 j]
      rw [square] at value
      exact roots _ (List.mem_of_getElem? value)

/-- Without defects, the batched evaluation is that of the multilinear functions. -/
theorem batchedEvaluation_of_foldDefects (positive : 0 < vk.logCircuitSize.val)
    (none : ∀ defect ∈ foldDefects polys.entity polys.fold tp.rho (batchedEvaluation proof tp)
      (uChallenges tp vk.logCircuitSize.val), defect = 0) :
    (evaluationDefect polys.entity proof.sumcheckEvaluations
      (uChallenges tp vk.logCircuitSize.val)).eval tp.rho = 0 := by
  rcases Nat.exists_eq_succ_of_ne_zero positive.ne' with ⟨m, count⟩
  have folded : Opening.foldAll (uChallenges tp vk.logCircuitSize.val)
      (batchPolynomial polys.entity tp.rho) = C (batchedEvaluation proof tp) := by
    rw [count, uChallenges_succ, foldDefects, List.length_map, List.length_range,
      List.forall_mem_cons] at none
    rw [count, uChallenges_succ, Opening.foldAll, ← (Opening.eq_fold_of_poleDefect none.1).1]
    apply Opening.foldAll_of_defects _ none.2
    rw [List.length_map, List.length_map]
  have constant := congrArg (coeff · 0) folded
  rw [Opening.coeff_foldAll, coeff_C_zero] at constant
  simp only [Nat.mul_zero, Nat.add_zero, batchPolynomial, finsetSum_coeff, coeff_C_mul] at constant
  rw [Opening.extend_sum, Finset.sum_range, batchedEvaluation] at constant
  simp only [evaluationDefect, eval_finsetSum, eval_mul, eval_C, eval_pow, eval_X, sub_mul,
    Finset.sum_sub_distrib]
  rw [sub_eq_zero, ← constant]
  apply Finset.sum_congr rfl
  intro i _
  exact mul_comm _ _

theorem eval_shiftDefect (entity : Nat → Fr[X]) (rho : Fr) :
    (shiftDefect entity).eval rho = (shiftedPolynomial entity rho).coeff 0 := by
  simp only [shiftDefect, shiftedPolynomial, eval_finsetSum, finsetSum_coeff, eval_mul, eval_C,
    eval_pow, eval_X, coeff_C_mul]
  apply Finset.sum_congr rfl
  intro k _
  exact mul_comm _ _

theorem shiftable_of_shiftDefect {entity : Nat → Fr[X]} (none : shiftDefect entity = 0) {k : Nat}
    (used : k < 5) : (entity (27 + k)).coeff 0 = 0 := by
  have at_k := congrArg (coeff · (NUMBER_UNSHIFTED + k)) none
  simp only [shiftDefect, finsetSum_coeff, coeff_C_mul_X_pow, coeff_zero,
    Nat.add_left_cancel_iff] at at_k
  rwa [Finset.sum_ite_eq, if_pos (Finset.mem_range.mpr used)] at at_k

/-- Without defects, what is shifted starts with zero, but for challenges that hide it. -/
theorem shift_of_foldDefects (positive : 0 < vk.logCircuitSize.val)
    (none : ∀ defect ∈ foldDefects polys.entity polys.fold tp.rho (batchedEvaluation proof tp)
      (uChallenges tp vk.logCircuitSize.val), defect = 0) :
    uChallenge tp 0 = 0 ∨ (shiftDefect polys.entity).eval tp.rho = 0 := by
  rcases Nat.exists_eq_succ_of_ne_zero positive.ne' with ⟨m, count⟩
  rw [count, uChallenges_succ, foldDefects, List.forall_mem_cons] at none
  rw [eval_shiftDefect]
  exact mul_eq_zero.mp (Opening.eq_fold_of_poleDefect none.1).2

/-- A difference of evaluations shows in its coefficient. -/
theorem evaluation_of_evaluationDefect {entity : Nat → Fr[X]}
    {evaluations : Fin NUMBER_OF_ENTITIES → Fr} {us : List Fr}
    (none : evaluationDefect entity evaluations us = 0) (i : Fin NUMBER_OF_ENTITIES) :
    evaluations i = Sumcheck.extend
      (fun bits => (entityPolynomial entity i).coeff (Opening.index bits)) us := by
  have at_i := congrArg (coeff · i.val) none
  simp only [evaluationDefect, finsetSum_coeff, coeff_C_mul_X_pow, coeff_zero, Fin.val_inj] at at_i
  rw [Finset.sum_ite_eq, if_pos (Finset.mem_univ i)] at at_i
  exact sub_eq_zero.mp at_i

end Claims

/-! ## Soundness -/

/-- Claims that are accepted in one are about multilinear functions with the claimed
evaluations, or an accident made them pass. -/
theorem opens_or_accident {τ : Fr} {proof : Proof} {vk : VerificationKey} {tp : Transcript}
    {polys : Committed} {g : G} (free : ∀ x : Fr, x • g = 0 → x = 0)
    (checked : Checked tp vk.logCircuitSize.val)
    (accepts : Opening.Accepts g τ tp.shplonkNu tp.shplonkZ
      ((openedClaims proof vk tp polys).map (Opening.Opened.claim g τ))
      (Opening.commit g τ polys.shplonkQ) (Opening.commit g τ polys.kzgQuotient)) :
    (Opens proof tp vk.logCircuitSize.val (entityRows polys) ∧
        ∀ k < 5, (polys.entity (27 + k)).coeff 0 = 0) ∨
      Accident τ proof vk tp polys := by
  rcases checked with ⟨⟨positive, small⟩, nonzero⟩
  by_cases ν_zero : tp.shplonkNu = 0
  · exact Or.inr (.shplonkNu ν_zero)
  by_cases distinct : ((openedClaims proof vk tp polys).map Opening.Opened.point).Nodup
  swap
  · exact Or.inr (.points distinct)
  rcases Opening.true_of_accepts free ν_zero distinct
    (apart_openedClaims positive nonzero) accepts with true_ | secret | last
  · by_cases folded : ∀ defect ∈ foldDefects polys.entity polys.fold tp.rho
        (batchedEvaluation proof tp) (uChallenges tp vk.logCircuitSize.val), defect = 0
    · have root := batchedEvaluation_of_foldDefects positive folded
      by_cases same : evaluationDefect polys.entity proof.sumcheckEvaluations
          (uChallenges tp vk.logCircuitSize.val) = 0
      swap
      · exact Or.inr (.rho same root)
      by_cases shifted : shiftDefect polys.entity = 0
      · have opens : Opens proof tp vk.logCircuitSize.val (entityRows polys) := by
          constructor
          · intro wire
            exact Sumcheck.multilinear_extend _ _
          · intro wire
            rw [challengePoint_eq tp small]
            exact evaluation_of_evaluationDefect same wire.index
        exact Or.inl ⟨opens, fun k used => shiftable_of_shiftDefect shifted used⟩
      · rcases shift_of_foldDefects positive folded with zero | hidden
        · exact Or.inr (.first zero)
        · exact Or.inr (.shift shifted hidden)
    · push Not at folded
      rcases folded with ⟨defect, mem, defect_ne⟩
      rcases List.mem_iff_getElem?.mp mem with ⟨j, at_j⟩
      exact Or.inr
        (.geminiR j defect at_j defect_ne (foldDefects_roots positive nonzero true_ at_j))
  · exact Or.inr (.secret secret.1 secret.2)
  · exact Or.inr (.shplonkZ last.1 last.2)

theorem Commits.accepts_of_accepted {curve : Curve G} {g : G} {τ : Fr} {proof : Proof}
    {vk : VerificationKey} {tp : Transcript} {polys : Committed}
    (commits : Commits curve g τ proof vk polys) (lawful : curve.Lawful g τ)
    (accepted : verifyShplemini curve proof vk tp = some (.ok ())) :
    Opening.Accepts g τ tp.shplonkNu tp.shplonkZ
      ((openedClaims proof vk tp polys).map (Opening.Opened.claim g τ))
      (Opening.commit g τ polys.shplonkQ) (Opening.commit g τ polys.kzgQuotient) := by
  have checked := checked_of_accepted accepted
  have accepts := (accepts_iff_of_checked lawful (commits.decoded lawful) checked).mp accepted
  rwa [commits.openingClaims tp checked.1.2, pointOf, commits.shplonkQ, Option.getD_some, pointOf,
    commits.kzgQuotient, Option.getD_some] at accepts

/-- Behind an accepted opening stand multilinear functions with the claimed evaluations: the
tables of the prover's polynomials, row by row. Those that are shifted start with zero. -/
theorem verifyShplemini_sound {curve : Curve G} {g : G} {τ : Fr} {proof : Proof}
    {vk : VerificationKey} {tp : Transcript} {polys : Committed} (lawful : curve.Lawful g τ)
    (commits : Commits curve g τ proof vk polys)
    (accepted : verifyShplemini curve proof vk tp = some (.ok ())) :
    (Opens proof tp vk.logCircuitSize.val (entityRows polys) ∧
        ∀ k < 5, (polys.entity (27 + k)).coeff 0 = 0) ∨
      Accident τ proof vk tp polys := by
  exact opens_or_accident lawful.free (checked_of_accepted accepted)
    (commits.accepts_of_accepted lawful accepted)

/-! ## Completeness -/

/-- What an honest prover sends: the evaluations of its tables, the layers of the folds with
their values, and the two quotients. The tables fill the cube, and those that are shifted
start with zero. -/
structure HonestOpening (proof : Proof) (vk : VerificationKey) (tp : Transcript)
    (polys : Committed) : Prop where
  low : ∀ i < NUMBER_UNSHIFTED, ∀ k ≥ 2 ^ vk.logCircuitSize.val, (polys.entity i).coeff k = 0
  shiftable : ∀ k < 5, (polys.entity (27 + k)).coeff 0 = 0
  evaluations : ∀ i : Fin NUMBER_OF_ENTITIES, proof.sumcheckEvaluations i = Sumcheck.extend
    (fun bits => (entityPolynomial polys.entity i).coeff (Opening.index bits))
    (uChallenges tp vk.logCircuitSize.val)
  folds : batchPolynomial polys.entity tp.rho :: (List.range (vk.logCircuitSize.val - 1)).map
      polys.fold =
    Opening.layers (uChallenges tp vk.logCircuitSize.val) (batchPolynomial polys.entity tp.rho)
  values : (List.range vk.logCircuitSize.val).map (aEvaluation proof) =
    Opening.negatives tp.geminiR (Opening.layers (uChallenges tp vk.logCircuitSize.val)
      (batchPolynomial polys.entity tp.rho))
  shplonkQ : polys.shplonkQ = Opening.quotient tp.shplonkNu (openedClaims proof vk tp polys)
  kzgQuotient : polys.kzgQuotient =
    Opening.opening tp.shplonkNu tp.shplonkZ (openedClaims proof vk tp polys)

section Honest

variable {proof : Proof} {vk : VerificationKey} {tp : Transcript} {polys : Committed}

/-- The table of the batch fills the cube. -/
theorem HonestOpening.coeff_batchPolynomial (honest : HonestOpening proof vk tp polys) {k : Nat}
    (large : 2 ^ vk.logCircuitSize.val ≤ k) :
    (batchPolynomial polys.entity tp.rho).coeff k = 0 := by
  rw [batchPolynomial, finsetSum_coeff]
  apply Finset.sum_eq_zero
  intro i mem
  rw [coeff_C_mul, entityPolynomial]
  by_cases small : i < NUMBER_UNSHIFTED
  · rw [if_pos small, honest.low i small k large, mul_zero]
  · have shifted : i - 8 < NUMBER_UNSHIFTED := by
      have range := Finset.mem_range.mp mem
      unfold NUMBER_UNSHIFTED NUMBER_OF_ENTITIES at *
      omega
    rw [if_neg small, coeff_divX, honest.low _ shifted (k + 1) (large.trans (Nat.le_succ k)),
      mul_zero]

theorem HonestOpening.foldAll (honest : HonestOpening proof vk tp polys) :
    Opening.foldAll (uChallenges tp vk.logCircuitSize.val) (batchPolynomial polys.entity tp.rho) =
      C (batchedEvaluation proof tp) := by
  have width : (uChallenges tp vk.logCircuitSize.val).length = vk.logCircuitSize.val := by
    rw [uChallenges, List.length_map, List.length_range]
  ext k
  rw [Opening.coeff_foldAll, width, coeff_C]
  by_cases zero : k = 0
  · rw [if_pos zero, zero]
    simp only [Nat.mul_zero, Nat.add_zero, batchPolynomial, finsetSum_coeff, coeff_C_mul]
    rw [Opening.extend_sum, Finset.sum_range, batchedEvaluation]
    apply Finset.sum_congr rfl
    intro i _
    rw [honest.evaluations]
    exact mul_comm _ _
  · rw [if_neg zero]
    have none : (fun bits => (batchPolynomial polys.entity tp.rho).coeff
        (Opening.index bits + 2 ^ vk.logCircuitSize.val * k)) = fun _ => 0 := by
      funext bits
      apply honest.coeff_batchPolynomial
      exact (Nat.le_mul_of_pos_right _ (Nat.pos_of_ne_zero zero)).trans (Nat.le_add_left _ _)
    rw [none, Opening.extend_zero]

/-- The values at the squares are those of the layers. -/
theorem HonestOpening.claimedPositives (honest : HonestOpening proof vk tp polys)
    (nonzero : 0 ∉ toInvert tp vk.logCircuitSize.val) :
    claimedPositives proof tp vk.logCircuitSize.val =
      Opening.values tp.geminiR (batchPolynomial polys.entity tp.rho ::
        (List.range (vk.logCircuitSize.val - 1)).map polys.fold) := by
  have pairs : (List.range vk.logCircuitSize.val).map
        (fun j => (uChallenge tp j, aEvaluation proof j)) =
      (uChallenges tp vk.logCircuitSize.val).zip (Opening.negatives tp.geminiR
        (Opening.layers (uChallenges tp vk.logCircuitSize.val)
          (batchPolynomial polys.entity tp.rho))) := by
    rw [← honest.values, uChallenges, List.zip_map']
  rw [Verifier.claimedPositives, pairs, honest.folds]
  exact Opening.positives_layers (denominators_ne_zero nonzero) honest.foldAll

theorem HonestOpening.aEvaluation (honest : HonestOpening proof vk tp polys) {j : Nat}
    (used : j < vk.logCircuitSize.val) :
    (batchPolynomial polys.entity tp.rho :: (List.range (vk.logCircuitSize.val - 1)).map
        polys.fold)[j]?.map (eval (-(tp.geminiR ^ 2 ^ j))) = some (aEvaluation proof j) := by
  have at_j := congrArg (·[j]?) honest.values
  rw [honest.folds, ← Opening.getElem?_negatives]
  rw [← at_j, List.getElem?_map, List.getElem?_range used]
  rfl

/-- All claims of an honest prover are true. -/
theorem HonestOpening.claims_true (honest : HonestOpening proof vk tp polys)
    (positive : 0 < vk.logCircuitSize.val) (nonzero : 0 ∉ toInvert tp vk.logCircuitSize.val) :
    ∀ opened ∈ openedClaims proof vk tp polys, opened.poly.eval opened.point = opened.value := by
  have r_ne := geminiR_ne_zero nonzero
  have constant : (shiftedPolynomial polys.entity tp.rho).coeff 0 = 0 := by
    rw [shiftedPolynomial, finsetSum_coeff]
    apply Finset.sum_eq_zero
    intro k mem
    rw [coeff_C_mul, honest.shiftable k (Finset.mem_range.mp mem), mul_zero]
  have whole {x : Fr} (x_ne : x ≠ 0) : (unshiftedPolynomial polys.entity tp.rho +
      C x⁻¹ * shiftedPolynomial polys.entity tp.rho).eval x =
        (batchPolynomial polys.entity tp.rho).eval x := by
    rw [← eval_batchPolynomial x_ne, constant, mul_zero, add_zero]
  intro opened mem
  rw [openedClaims, honest.claimedPositives nonzero] at mem
  rcases List.mem_append.mp mem with first | fold
  · have other := honest.aEvaluation positive
    rw [List.getElem?_cons_zero, Option.map_some, Option.some.injEq, pow_zero, pow_one,
      ← whole (neg_ne_zero.mpr r_ne), inv_neg, C_neg, neg_mul, ← sub_eq_add_neg] at other
    rw [List.mem_cons, List.mem_singleton] at first
    rcases first with rfl | rfl
    · exact whole r_ne
    · exact other
  · rcases List.mem_flatMap.mp fold with ⟨j, used, pair⟩
    have at_j : ((List.range (vk.logCircuitSize.val - 1)).map polys.fold)[j]? =
        some (polys.fold j) := by
      rw [List.getElem?_map, List.getElem?_range (List.mem_range.mp used)]
      rfl
    have other := honest.aEvaluation (Nat.add_lt_of_lt_sub (List.mem_range.mp used))
    rw [List.getElem?_cons_succ, at_j, Option.map_some, Option.some.injEq] at other
    rw [List.mem_cons, List.mem_singleton, List.getD_eq_getElem?_getD, Opening.getElem?_values,
      List.getElem?_cons_succ, at_j] at pair
    rcases pair with rfl | rfl
    · rfl
    · exact other

end Honest

theorem HonestOpening.accepts_iff {curve : Curve G} {g : G} {τ : Fr} {proof : Proof}
    {vk : VerificationKey} {tp : Transcript} {polys : Committed}
    (honest : HonestOpening proof vk tp polys) (lawful : curve.Lawful g τ)
    (commits : Commits curve g τ proof vk polys) (positive : 0 < vk.logCircuitSize.val)
    (small : vk.logCircuitSize.val ≤ CONST_PROOF_SIZE_LOG_N) :
    verifyShplemini curve proof vk tp = some (.ok ()) ↔
      0 ∉ toInvert tp vk.logCircuitSize.val := by
  constructor
  · intro accepted
    exact (checked_of_accepted accepted).2
  intro nonzero
  rw [accepts_iff_of_checked lawful (commits.decoded lawful) ⟨⟨positive, small⟩, nonzero⟩,
    commits.openingClaims tp small, pointOf, commits.shplonkQ, Option.getD_some, pointOf,
    commits.kzgQuotient, Option.getD_some, honest.shplonkQ, honest.kzgQuotient]
  exact Opening.accepts_of_true (honest.claims_true positive nonzero)
    (apart_openedClaims positive nonzero)

/-- An honest prover is accepted, unless a challenge makes a denominator zero. -/
theorem verifyShplemini_complete {curve : Curve G} {g : G} {τ : Fr} {proof : Proof}
    {vk : VerificationKey} {tp : Transcript} {polys : Committed} (lawful : curve.Lawful g τ)
    (commits : Commits curve g τ proof vk polys) (honest : HonestOpening proof vk tp polys)
    (positive : 0 < vk.logCircuitSize.val)
    (small : vk.logCircuitSize.val ≤ CONST_PROOF_SIZE_LOG_N) :
    verifyShplemini curve proof vk tp = some (.ok ()) ↔
      0 ∉ toInvert tp vk.logCircuitSize.val :=
  honest.accepts_iff lawful commits positive small

/-! ## An honest prover -/

section Prover

variable (entity : Nat → Fr[X]) (vk : VerificationKey) (tp : Transcript)

/-- The batch of the tables with its folds. -/
noncomputable def honestLayers : List Fr[X] :=
  Opening.layers (uChallenges tp vk.logCircuitSize.val) (batchPolynomial entity tp.rho)

/-- The tables with the folds of their batch. -/
noncomputable def honestTables : Committed where
  entity := entity
  fold j := (honestLayers entity vk tp).getD (j + 1) 0
  shplonkQ := 0
  kzgQuotient := 0

/-- The values that an honest prover answers the challenges with. -/
noncomputable def honestValues : Proof where
  pairingPointObject _ := 0
  w1 := default
  w2 := default
  w3 := default
  w4 := default
  lookupReadCounts := default
  lookupReadTags := default
  lookupInverses := default
  zPerm := default
  sumcheckUnivariates round k :=
    Sumcheck.cubeSum (vk.logCircuitSize.val - round.val - 1) fun x =>
      summand tp vk.logCircuitSize.val (entityRows (honestTables entity vk tp))
        (challengePoint tp round.val ++ ((k : Nat) : Fr) :: x)
  sumcheckEvaluations i := Sumcheck.extend
    (fun bits => (entityPolynomial entity i).coeff (Opening.index bits))
    (uChallenges tp vk.logCircuitSize.val)
  geminiFoldComms _ := default
  geminiAEvaluations i :=
    (Opening.negatives tp.geminiR (honestLayers entity vk tp)).getD i 0
  shplonkQ := default
  kzgQuotient := default

/-- The tables and their folds, with the two quotients of what is opened. -/
noncomputable def honestPolys : Committed :=
  let opened := openedClaims (honestValues entity vk tp) vk tp (honestTables entity vk tp)
  { honestTables entity vk tp with
    shplonkQ := Opening.quotient tp.shplonkNu opened
    kzgQuotient := Opening.opening tp.shplonkNu tp.shplonkZ opened }

/-- The values, with a point for each polynomial. -/
noncomputable def honestProof (com : Fr[X] → G1Point) : Proof :=
  { honestValues entity vk tp with
    w1 := com (entity 27)
    w2 := com (entity 28)
    w3 := com (entity 29)
    w4 := com (entity 30)
    zPerm := com (entity 31)
    lookupInverses := com (entity 32)
    lookupReadCounts := com (entity 33)
    lookupReadTags := com (entity 34)
    geminiFoldComms := fun j => com ((honestPolys entity vk tp).fold j.val)
    shplonkQ := com (honestPolys entity vk tp).shplonkQ
    kzgQuotient := com (honestPolys entity vk tp).kzgQuotient }

variable {entity vk tp} {com : Fr[X] → G1Point}

theorem commits_honestProof {curve : Curve G} {g : G} {τ : Fr}
    (read : ∀ f, curve.point (com f) = some (Opening.commit g τ f))
    (key : ∀ i, curve.point (vk.points i) = some (Opening.commit g τ (entity i))) :
    Commits curve g τ (honestProof entity vk tp com) vk (honestPolys entity vk tp) := by
  constructor
  · have split : List.range NUMBER_UNSHIFTED =
        List.range NUM_POINTS ++ [27, 28, 29, 30, 31, 32, 33, 34] := rfl
    rw [unshiftedComs, split, List.map_append, List.map_append]
    apply congrArg₂ (· ++ ·)
    · apply List.ext_getElem
      · rw [List.length_map, List.length_ofFn, List.length_map, List.length_range]
      · intro i _ _
        rw [List.getElem_map, List.getElem_ofFn, List.getElem_map, List.getElem_range]
        exact key _
    · simp only [List.map_cons, List.map_nil, honestProof, read]
      rfl
  · apply List.ext_getElem
    · rw [List.length_map, List.length_ofFn, List.length_map, List.length_range]
    · intro j _ _
      rw [List.getElem_map, List.getElem_ofFn, List.getElem_map, List.getElem_range]
      exact read _
  · exact read _
  · exact read _

theorem honestOpening_honestProof (positive : 0 < vk.logCircuitSize.val)
    (small : vk.logCircuitSize.val ≤ CONST_PROOF_SIZE_LOG_N)
    (low : ∀ i < NUMBER_UNSHIFTED, ∀ k ≥ 2 ^ vk.logCircuitSize.val, (entity i).coeff k = 0)
    (shiftable : ∀ k < 5, (entity (27 + k)).coeff 0 = 0) :
    HonestOpening (honestProof entity vk tp com) vk tp (honestPolys entity vk tp) := by
  have count : (honestLayers entity vk tp).length = vk.logCircuitSize.val := by
    rw [honestLayers, Opening.length_layers, uChallenges, List.length_map, List.length_range]
  constructor
  case low => exact low
  case shiftable => exact shiftable
  case evaluations => exact fun _ => rfl
  case shplonkQ => rfl
  case kzgQuotient => rfl
  case folds =>
    apply List.ext_getElem
    · rw [List.length_cons, List.length_map, List.length_range]
      show _ = (honestLayers entity vk tp).length
      omega
    · intro j _ used
      cases j with
      | zero =>
          apply ((List.getElem_eq_iff used).mpr _).symm
          apply Opening.getElem?_zero_layers
          apply List.ne_nil_of_length_pos
          rwa [uChallenges, List.length_map, List.length_range]
      | succ j =>
          rw [List.getElem_cons_succ, List.getElem_map, List.getElem_range]
          exact List.getD_eq_getElem _ _ used
  case values =>
    apply List.ext_getElem
    · rw [List.length_map, List.length_range, Opening.length_negatives]
      exact count.symm
    · intro j inside used
      have room : j < CONST_PROOF_SIZE_LOG_N := by
        rw [List.length_map, List.length_range] at inside
        exact inside.trans_le small
      rw [List.getElem_map, List.getElem_range, aEvaluation, List.getD_eq_getElem?_getD,
        List.getElem?_ofFn, dif_pos room, Option.getD_some]
      exact List.getD_eq_getElem _ _ used

/-- The opening of an honest prover passes, unless a challenge makes a denominator zero. -/
theorem verifyShplemini_honestProof {curve : Curve G} {g : G} {τ : Fr}
    (lawful : curve.Lawful g τ) (read : ∀ f, curve.point (com f) = some (Opening.commit g τ f))
    (key : ∀ i, curve.point (vk.points i) = some (Opening.commit g τ (entity i)))
    (positive : 0 < vk.logCircuitSize.val)
    (small : vk.logCircuitSize.val ≤ CONST_PROOF_SIZE_LOG_N)
    (low : ∀ i < NUMBER_UNSHIFTED, ∀ k ≥ 2 ^ vk.logCircuitSize.val, (entity i).coeff k = 0)
    (shiftable : ∀ k < 5, (entity (27 + k)).coeff 0 = 0) :
    verifyShplemini curve (honestProof entity vk tp com) vk tp = some (.ok ()) ↔
      0 ∉ toInvert tp vk.logCircuitSize.val :=
  (honestOpening_honestProof positive small low shiftable).accepts_iff lawful
    (commits_honestProof read key) positive small

/-- So do its sums, for tables that satisfy the circuit. -/
theorem verifySumcheck_honestProof (positive : 0 < vk.logCircuitSize.val)
    (small : vk.logCircuitSize.val ≤ CONST_PROOF_SIZE_LOG_N)
    (satisfied : ∀ row ∈ Sumcheck.cube vk.logCircuitSize.val,
      Satisfies (fun wire => entityRows (honestPolys entity vk tp) wire row) tp.relParams)
    (balanced : ((Sumcheck.cube vk.logCircuitSize.val).map fun row => lookupTerm
      (fun wire => entityRows (honestPolys entity vk tp) wire row) tp.relParams).sum = 0) :
    verifySumcheck (honestProof entity vk tp com) tp vk = .ok () := by
  have opens : Opens (honestProof entity vk tp com) tp vk.logCircuitSize.val
      (entityRows (honestPolys entity vk tp)) := by
    constructor
    · intro wire
      exact Sumcheck.multilinear_extend _ _
    · intro wire
      rw [challengePoint_eq tp small]
      rfl
  exact (opens.accepts_iff positive small fun _ _ _ => rfl).mpr
    (cubeSum_summand_of_satisfies satisfied balanced)

end Prover

/-- The point of a polynomial, for a host of logarithms. -/
noncomputable def numeralCommitment (τ : Fr) (f : Fr[X]) : G1Point :=
  numeralPoint (f.eval τ)

theorem point_numeralCommitment (τ : Fr) (f : Fr[X]) :
    (numeralCurve τ).point (numeralCommitment τ f) = some (Opening.commit (1 : Fr) τ f) := by
  rw [numeralCommitment, point_numeralPoint, Opening.commit, smul_eq_mul, mul_one]

/-! ## Four rows -/

/-- The tables of the key for four rows, and a `z_perm` that is one in its second row. -/
noncomputable def fourRowsTables (i : Nat) : Fr[X] :=
  if i = 25 then 1 else if i = 31 then X else 0

theorem point_fourRowsKey (τ : Fr) (i : Fin NUM_POINTS) :
    (numeralCurve τ).point (fourRowsKey.points i) =
      some (Opening.commit (1 : Fr) τ (fourRowsTables i)) := by
  have used : i.val ≠ 31 := (i.isLt.trans (by decide)).ne
  have marked : fourRowsKey.points i = numeralPoint (if i.val = 25 then 1 else 0) := by
    by_cases first : i.val = 25
    · rw [if_pos first, fourRowsKey]
      exact if_pos (Fin.ext first)
    · rw [if_neg first, fourRowsKey]
      exact if_neg fun same => first (congrArg Fin.val same)
  rw [marked, point_numeralPoint, fourRowsTables, if_neg used,
    apply_ite (Opening.commit (1 : Fr) τ), Opening.commit, Opening.commit, eval_one, eval_zero,
    one_smul, zero_smul]

theorem low_fourRowsTables : ∀ i < NUMBER_UNSHIFTED, ∀ k ≥ 2 ^ fourRowsKey.logCircuitSize.val,
    (fourRowsTables i).coeff k = 0 := by
  intro i _ k large
  have beyond : 4 ≤ k := large
  rw [fourRowsTables]
  by_cases first : i = 25
  · rw [if_pos first, coeff_one, if_neg (by omega)]
  · by_cases product : i = 31
    · rw [if_neg first, if_pos product, coeff_X, if_neg (by omega)]
    · rw [if_neg first, if_neg product, coeff_zero]

theorem shiftable_fourRowsTables : ∀ k < 5, (fourRowsTables (27 + k)).coeff 0 = 0 := by
  intro k _
  rw [fourRowsTables, if_neg (by omega)]
  by_cases product : 27 + k = 31
  · rw [if_pos product, coeff_X_zero]
  · rw [if_neg product, coeff_zero]

/-- Its prover opens the tables with a shift that is not zero. -/
theorem verifyShplemini_complete_fourRows :
    verifyShplemini (numeralCurve 13)
      (honestProof fourRowsTables fourRowsKey fourRowsTranscript (numeralCommitment 13))
      fourRowsKey fourRowsTranscript = some (.ok ()) :=
  (verifyShplemini_complete (lawful_numeralCurve 13)
    (commits_honestProof (point_numeralCommitment 13) (point_fourRowsKey 13))
    (honestOpening_honestProof (by decide) (by decide) low_fourRowsTables
      shiftable_fourRowsTables) (by decide) (by decide)).mpr (by decide +kernel)

/-- What it opens are its tables. -/
theorem verifyShplemini_sound_fourRows :
    (Opens (honestProof fourRowsTables fourRowsKey fourRowsTranscript (numeralCommitment 13))
          fourRowsTranscript 2
          (entityRows (honestPolys fourRowsTables fourRowsKey fourRowsTranscript)) ∧
        ∀ k < 5, (fourRowsTables (27 + k)).coeff 0 = 0) ∨
      Accident 13
        (honestProof fourRowsTables fourRowsKey fourRowsTranscript (numeralCommitment 13))
        fourRowsKey fourRowsTranscript
        (honestPolys fourRowsTables fourRowsKey fourRowsTranscript) :=
  verifyShplemini_sound (lawful_numeralCurve 13)
    (commits_honestProof (point_numeralCommitment 13) (point_fourRowsKey 13))
    ((verifyShplemini_honestProof (lawful_numeralCurve 13) (point_numeralCommitment 13)
      (point_fourRowsKey 13) (by decide) (by decide) low_fourRowsTables
      shiftable_fourRowsTables).mpr (by decide +kernel))

end Solva.Verifier
