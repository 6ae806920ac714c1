import Mathlib.Data.List.Iterate
import Solva.Codec.Blocks
import Solva.Opening.Gemini
import Solva.Opening.Shplonk
import Solva.Verifier.Field
import Solva.Verifier.Types

/-!
# The opening of the verifier

`shplemini.rs` and `ec.rs`. The host's arithmetic on points is a parameter. All scalars of
one multi-scalar multiplication are computed first, the shifted commitments merged into
those they are shifts of; what comes out is checked with one pairing product.
-/

namespace Solva.Verifier

open Bn254 Codec

variable {G : Type*}

/-! ## `ec.rs` -/

/-- The host on BN254: the point that 64 bytes are, which traps on any other bytes, and
the operations on points. The product of pairings is with the two fixed points of
`ec.rs`. -/
structure Curve (G : Type*) where
  point : G1Point → Option G
  msm : List G → List Fr → G
  neg : G → G
  pairingCheck : G → G → Bool

/-- `G1Point::infinity`. -/
def G1Point.infinity : G1Point :=
  BytesN.ofNat 64 0

/-- `G1Point::generator`: `x = 1` and `y = 2`. -/
def G1Point.generator : G1Point :=
  BytesN.ofNat 64 (2 ^ 256 + 2)

/-- `g1_msm`. `none` is a trap of the host. -/
def g1Msm (curve : Curve G) (coms : List G1Point) (scalars : List Fr) :
    Option (Except String G) :=
  if coms.length ≠ scalars.length then some (.error "msm len mismatch")
  else
    -- terms with a zero scalar are left out before the host sees them
    let terms := (coms.zip scalars).filter fun term => term.2 ≠ 0
    if terms.isEmpty then (curve.point G1Point.infinity).map .ok
    else (terms.mapM fun term => curve.point term.1).map fun points =>
      .ok (curve.msm points (terms.map Prod.snd))

/-! ## `shplemini.rs` -/

section Scalars

variable (proof : Proof) (tp : Transcript) (logN : Nat)

/-- `r_pows`: each the square of the one before. -/
def rPows : List Fr :=
  List.iterate (fun r => r * r) tp.geminiR logN

def rPow (i : Nat) : Fr :=
  (rPows tp logN).getD i 0

/-- `tp.sumcheck_u_challenges`. -/
def uChallenge (i : Nat) : Fr :=
  (List.ofFn tp.sumcheckUChallenges).getD i 0

/-- `proof.gemini_a_evaluations`. -/
def aEvaluation (i : Nat) : Fr :=
  (List.ofFn proof.geminiAEvaluations).getD i 0

/-- The denominators, in the layout of `to_invert`. -/
def toInvert : List Fr :=
  [tp.shplonkZ - rPow tp logN 0, tp.shplonkZ + rPow tp logN 0, tp.geminiR] ++
    -- the fold rounds, from the last to the first
    (List.range logN).reverse.map (fun j =>
      rPow tp logN j * (1 - uChallenge tp j) + uChallenge tp j) ++
    (List.range (logN - 1)).flatMap fun j =>
      [tp.shplonkZ - rPow tp logN (j + 1), tp.shplonkZ + rPow tp logN (j + 1)]

/-- One step of the loop over the evaluations: the scalars, `eval_acc` and `rho_pow`. -/
def weighEvaluation (negUnshifted negShifted : Fr) (state : List Fr × Fr × Fr)
    (entry : Fr × Nat) : List Fr × Fr × Fr :=
  let scalar := (if entry.2 < NUMBER_UNSHIFTED then negUnshifted else negShifted) * state.2.2
  (state.1 ++ [scalar], state.2.1 + entry.1 * state.2.2, state.2.2 * tp.rho)

def weighEvaluations (negUnshifted negShifted : Fr) : List Fr × Fr × Fr :=
  (List.ofFn proof.sumcheckEvaluations).zipIdx.foldl (weighEvaluation tp negUnshifted negShifted)
    ([], 0, 1)

/-- The scalars of the shifts added to those of what they shift. -/
def mergeShifted (evalScalars : List Fr) : List Fr :=
  [(27, 35), (28, 36), (29, 37), (30, 38), (31, 39)].foldl (fun scalars (pair : Nat × Nat) =>
    scalars.set pair.1 (scalars.getD pair.1 0 + scalars.getD pair.2 0)) evalScalars

/-- One fold round: the value so far, and the values of the rounds done. -/
def foldRound (inverted : List Fr) (state : Fr × List Fr) (j : Nat) : Fr × List Fr :=
  let r2 := rPow tp logN j
  let u := uChallenge tp j
  let foldLin := r2 * (1 - u) - u
  let num := r2 * state.1 * (2 : Nat) - aEvaluation proof j * foldLin
  let cur := num * inverted.getD (3 + (logN - (j + 1))) 0
  (cur, cur :: state.2)

/-- `fold_pos`. -/
def foldPos (inverted : List Fr) (evalAcc : Fr) : List Fr :=
  ((List.range logN).reverse.foldl (foldRound proof tp logN inverted) (evalAcc, [])).2

/-- One further fold: the scalars, `const_acc` and `v_pow`. -/
def furtherFold (inverted foldPos : List Fr) (state : List Fr × Fr × Fr) (j : Nat) :
    List Fr × Fr × Fr :=
  let furtherBase := 3 + logN
  let posInv := inverted.getD (furtherBase + 2 * j) 0
  let negInv := inverted.getD (furtherBase + 2 * j + 1) 0
  let sp := state.2.2 * posInv
  let sn := state.2.2 * tp.shplonkNu * negInv
  (state.1 ++ [-(sp + sn)],
    state.2.1 + aEvaluation proof (j + 1) * sn + foldPos.getD (j + 1) 0 * sp,
    state.2.2 * (tp.shplonkNu * tp.shplonkNu))

/-- The scalars of the multi-scalar multiplication. -/
def msmScalars (inverted : List Fr) : List Fr :=
  let pos0 := inverted.getD 0 0
  let neg0 := inverted.getD 1 0
  let geminiRInv := inverted.getD 2 0
  let unshifted := tp.shplonkNu * neg0 + pos0
  let shifted := geminiRInv * (pos0 - tp.shplonkNu * neg0)
  let weighed := weighEvaluations proof tp (-unshifted) (-shifted)
  let foldPos := foldPos proof tp logN inverted weighed.2.1
  let constAcc := foldPos.getD 0 0 * pos0 + aEvaluation proof 0 * tp.shplonkNu * neg0
  let further := (List.range (logN - 1)).foldl (furtherFold proof tp logN inverted foldPos)
    ([], constAcc, tp.shplonkNu * tp.shplonkNu)
  -- the folds that a smaller circuit does not use have the scalar zero
  [1] ++ (mergeShifted weighed.1).take NUMBER_UNSHIFTED ++ further.1 ++
    List.replicate (CONST_PROOF_SIZE_LOG_N - 1 - (logN - 1)) 0 ++ [further.2.1, tp.shplonkZ]

end Scalars

/-- The commitments that are not shifted, in the order of the wires. -/
def unshiftedComs (proof : Proof) (vk : VerificationKey) : List G1Point :=
  List.ofFn vk.points ++ [proof.w1, proof.w2, proof.w3, proof.w4, proof.zPerm,
    proof.lookupInverses, proof.lookupReadCounts, proof.lookupReadTags]

/-- The commitments of the multi-scalar multiplication. -/
def msmComs (proof : Proof) (vk : VerificationKey) : List G1Point :=
  [proof.shplonkQ] ++ unshiftedComs proof vk ++ List.ofFn proof.geminiFoldComms ++
    [G1Point.generator, proof.kzgQuotient]

/-- `verify_shplemini`. -/
def verifyShplemini (curve : Curve G) (proof : Proof) (vk : VerificationKey) (tp : Transcript) :
    Option (Except String Unit) :=
  let logN := vk.logCircuitSize.val
  if logN = 0 ∨ logN > CONST_PROOF_SIZE_LOG_N then
    some (.error "shplemini: log_circuit_size out of range")
  else
    match batchInverse (toInvert tp logN) with
    | .error _ => some (.error
        "shplemini: batch inversion failed (zero denominator in shplonk/gemini/fold)")
    | .ok inverted =>
        if inverted.any (fun x => x = 0) then
          some (.error "shplemini: batch inversion produced zero result")
        else
          match g1Msm curve (msmComs proof vk) (msmScalars proof tp logN inverted) with
          | none => none
          | some (.error message) => some (.error message)
          | some (.ok p0) =>
              (curve.point proof.kzgQuotient).map fun quotient =>
                if curve.pairingCheck p0 (curve.neg quotient) then .ok ()
                else .error "Shplonk pairing check failed"

/-! ## The scalars -/

section ScalarLemmas

variable {proof : Proof} {tp : Transcript} {logN : Nat}

theorem iterate_square (r : Fr) (i : Nat) : (fun r : Fr => r * r)^[i] r = r ^ 2 ^ i := by
  induction i with
  | zero => rw [Function.iterate_zero_apply, pow_zero, pow_one]
  | succ i ih => rw [Function.iterate_succ_apply', ih, pow_succ 2 i, pow_mul, pow_two]

theorem rPow_eq {i : Nat} (used : i < logN) : rPow tp logN i = tp.geminiR ^ 2 ^ i := by
  rw [rPow, rPows, List.getD_eq_getElem?_getD, List.getElem?_iterate _ _ _ _ used,
    Option.getD_some, iterate_square]

theorem uChallenge_eq (i : Fin CONST_PROOF_SIZE_LOG_N) :
    uChallenge tp i = tp.sumcheckUChallenges i := by
  rw [uChallenge, List.getD_eq_getElem?_getD, List.getElem?_ofFn, dif_pos i.isLt]
  rfl

/-- The scalar of an evaluation. -/
def evalScalar (rho negUnshifted negShifted : Fr) (i : Nat) : Fr :=
  (if i < NUMBER_UNSHIFTED then negUnshifted else negShifted) * rho ^ i

theorem evalScalar_of_lt {rho negUnshifted negShifted : Fr} {i : Nat}
    (small : i < NUMBER_UNSHIFTED) :
    evalScalar rho negUnshifted negShifted i = negUnshifted * rho ^ i := by
  rw [evalScalar, if_pos small]

theorem evalScalar_of_le {rho negUnshifted negShifted : Fr} {i : Nat}
    (large : NUMBER_UNSHIFTED ≤ i) :
    evalScalar rho negUnshifted negShifted i = negShifted * rho ^ i := by
  rw [evalScalar, if_neg (Nat.not_lt.mpr large)]

/-- The batched evaluation. -/
def batchedEvaluation (proof : Proof) (tp : Transcript) : Fr :=
  ∑ i, proof.sumcheckEvaluations i * tp.rho ^ i.val

theorem foldl_weighEvaluation (tp : Transcript) (negUnshifted negShifted : Fr) (evals : List Fr)
    (start : Nat) (scalars : List Fr) (acc : Fr) :
    (evals.zipIdx start).foldl (weighEvaluation tp negUnshifted negShifted)
        (scalars, acc, tp.rho ^ start) =
      (scalars ++ (List.range' start evals.length).map (evalScalar tp.rho negUnshifted negShifted),
        acc + ((evals.zipIdx start).map fun entry => entry.1 * tp.rho ^ entry.2).sum,
        tp.rho ^ (start + evals.length)) := by
  induction evals generalizing start scalars acc with
  | nil => simp
  | cons e evals ih =>
      rw [List.zipIdx_cons, List.foldl_cons, weighEvaluation, ← pow_succ, ih, List.length_cons,
        List.range'_succ, List.map_cons, List.map_cons, List.sum_cons, List.append_assoc,
        List.singleton_append, evalScalar, add_assoc, Nat.add_assoc, Nat.add_comm 1]

theorem weighEvaluations_eq (negUnshifted negShifted : Fr) :
    (weighEvaluations proof tp negUnshifted negShifted).1 =
        (List.range NUMBER_OF_ENTITIES).map (evalScalar tp.rho negUnshifted negShifted) ∧
      (weighEvaluations proof tp negUnshifted negShifted).2.1 = batchedEvaluation proof tp := by
  have run := foldl_weighEvaluation tp negUnshifted negShifted
    (List.ofFn proof.sumcheckEvaluations) 0 [] 0
  rw [pow_zero, List.length_ofFn, List.nil_append, zero_add] at run
  rw [weighEvaluations, run, List.range_eq_range']
  refine ⟨rfl, ?_⟩
  have terms : ((List.ofFn proof.sumcheckEvaluations).zipIdx.map fun entry =>
      entry.1 * tp.rho ^ entry.2) =
        List.ofFn fun i : Fin NUMBER_OF_ENTITIES =>
          proof.sumcheckEvaluations i * tp.rho ^ i.val := by
    apply List.ext_getElem
    · simp only [List.length_map, List.length_zipIdx, List.length_ofFn]
    · intro i _ _
      simp only [List.getElem_map, List.getElem_zipIdx, List.getElem_ofFn, Nat.zero_add]
  rw [terms, List.sum_ofFn, batchedEvaluation]

/-- The merged scalars: those of the fixed wires, of the five that are shifted, and of the
last three. -/
theorem mergeShifted_eq (b : Nat → Fr) :
    (mergeShifted ((List.range NUMBER_OF_ENTITIES).map b)).take NUMBER_UNSHIFTED =
      (List.range 27).map b ++ [b 27 + b 35, b 28 + b 36, b 29 + b 37, b 30 + b 38, b 31 + b 39,
        b 32, b 33, b 34] :=
  rfl

/-! ## The inverses -/

theorem getD_pairs (f g : Nat → Fr) {count j : Nat} (used : j < count) :
    ((List.range count).flatMap fun j => [f j, g j]).getD (2 * j) 0 = f j ∧
      ((List.range count).flatMap fun j => [f j, g j]).getD (2 * j + 1) 0 = g j := by
  have width (count : Nat) :
      ((List.range count).flatMap fun j => [f j, g j]).length = 2 * count := by
    have wide : ∀ j : Nat, [f j, g j].length = 2 := fun _ => rfl
    rw [length_flatMap wide, List.length_range]
  induction count with
  | zero => exact absurd used (Nat.not_lt_zero j)
  | succ count ih =>
      rw [List.range_succ, List.flatMap_append, List.flatMap_singleton]
      rcases Nat.lt_or_eq_of_le (Nat.le_of_lt_succ used) with earlier | rfl
      · rw [List.getD_append _ _ _ _ (by rw [width]; omega),
          List.getD_append _ _ _ _ (by rw [width]; omega)]
        exact ih earlier
      · rw [List.getD_append_right _ _ _ _ (width j).le,
          List.getD_append_right _ _ _ _ ((width j).le.trans (Nat.le_add_right _ 1)), width,
          Nat.sub_self, Nat.add_sub_cancel_left]
        exact ⟨rfl, rfl⟩

/-- The inverses where the code looks for them. -/
structure Inverses (tp : Transcript) (logN : Nat) (inverted : List Fr) : Prop where
  pos0 : inverted.getD 0 0 = (tp.shplonkZ - tp.geminiR)⁻¹
  neg0 : inverted.getD 1 0 = (tp.shplonkZ + tp.geminiR)⁻¹
  geminiR : inverted.getD 2 0 = tp.geminiR⁻¹
  round : ∀ j < logN, inverted.getD (3 + (logN - (j + 1))) 0 =
    (tp.geminiR ^ 2 ^ j * (1 - uChallenge tp j) + uChallenge tp j)⁻¹
  positive : ∀ j < logN - 1, inverted.getD (3 + logN + 2 * j) 0 =
    (tp.shplonkZ - tp.geminiR ^ 2 ^ (j + 1))⁻¹
  negative : ∀ j < logN - 1, inverted.getD (3 + logN + 2 * j + 1) 0 =
    (tp.shplonkZ + tp.geminiR ^ 2 ^ (j + 1))⁻¹

theorem inverses_toInvert (used : 0 < logN) :
    Inverses tp logN ((toInvert tp logN).map (·⁻¹)) := by
  have inverse (i : Nat) : ((toInvert tp logN).map (·⁻¹)).getD i 0 =
      ((toInvert tp logN).getD i 0)⁻¹ := by
    rw [List.getD_eq_getElem?_getD, List.getD_eq_getElem?_getD, List.getElem?_map]
    cases (toInvert tp logN)[i]? with
    | none => exact inv_zero.symm
    | some x => rfl
  have first : rPow tp logN 0 = tp.geminiR := by
    rw [rPow_eq used, pow_zero, pow_one]
  let rounds := (List.range logN).reverse.map fun j =>
    rPow tp logN j * (1 - uChallenge tp j) + uChallenge tp j
  let further := (List.range (logN - 1)).flatMap fun j =>
    [tp.shplonkZ - rPow tp logN (j + 1), tp.shplonkZ + rPow tp logN (j + 1)]
  have layout : toInvert tp logN =
      ([tp.shplonkZ - rPow tp logN 0, tp.shplonkZ + rPow tp logN 0, tp.geminiR] ++ rounds) ++
        further := rfl
  have rounds_length : rounds.length = logN := by
    rw [List.length_map, List.length_reverse, List.length_range]
  have front_length : ([tp.shplonkZ - rPow tp logN 0, tp.shplonkZ + rPow tp logN 0, tp.geminiR] ++
      rounds).length = 3 + logN := by
    rw [List.length_append, rounds_length]
    rfl
  have behind (i : Nat) : (toInvert tp logN).getD (3 + logN + i) 0 = further.getD i 0 := by
    rw [layout, List.getD_append_right _ _ _ _ (by omega), front_length, Nat.add_sub_cancel_left]
  constructor
  · rw [inverse, ← first]
    rfl
  · rw [inverse, ← first]
    rfl
  · rw [inverse]
    rfl
  · intro j small
    have at_j : rounds.getD (logN - (j + 1)) 0 =
        rPow tp logN j * (1 - uChallenge tp j) + uChallenge tp j := by
      have place : logN - 1 - (logN - (j + 1)) = j := by omega
      rw [List.getD_eq_getElem?_getD, List.getElem?_map,
        List.getElem?_reverse (by rw [List.length_range]; omega), List.length_range, place,
        List.getElem?_range small]
      rfl
    have inside : (toInvert tp logN).getD (3 + (logN - (j + 1))) 0 =
        rounds.getD (logN - (j + 1)) 0 := by
      rw [layout, List.getD_append _ _ _ _ (by omega), Nat.add_comm]
      rfl
    rw [inverse, inside, at_j, rPow_eq small]
  · intro j small
    rw [inverse, behind, (getD_pairs _ _ small).1, rPow_eq (by omega)]
  · intro j small
    rw [inverse, Nat.add_assoc, behind, (getD_pairs _ _ small).2, rPow_eq (by omega)]

/-! ## The fold rounds -/

theorem foldr_positive (n : Nat) (r final : Fr) (u a : Nat → Fr) :
    (List.range n).foldr (fun j (state : Fr × List Fr) =>
        (Opening.positive (r ^ 2 ^ j) (u j) (a j) state.1,
          Opening.positive (r ^ 2 ^ j) (u j) (a j) state.1 :: state.2)) (final, []) =
      ((Opening.positives r ((List.range n).map fun j => (u j, a j)) final).headD final,
        Opening.positives r ((List.range n).map fun j => (u j, a j)) final) := by
  induction n generalizing r u a with
  | zero => rfl
  | succ n ih =>
      have later := ih (r ^ 2) (fun j => u (j + 1)) fun j => a (j + 1)
      have square (j : Nat) : (r ^ 2) ^ 2 ^ j = r ^ 2 ^ (j + 1) := by
        rw [← pow_mul, pow_succ' 2 j]
      simp only [square] at later
      rw [List.range_succ_eq_map, List.foldr_cons, List.foldr_map, List.map_cons, List.map_map,
        Opening.positives, pow_zero, pow_one]
      simp only [Nat.succ_eq_add_one, Function.comp_def, later, List.headD_cons]

theorem foldPos_eq {inverted : List Fr} {final : Fr}
    (inverse : ∀ j < logN, inverted.getD (3 + (logN - (j + 1))) 0 =
      (tp.geminiR ^ 2 ^ j * (1 - uChallenge tp j) + uChallenge tp j)⁻¹) :
    foldPos proof tp logN inverted final = Opening.positives tp.geminiR
      ((List.range logN).map fun j => (uChallenge tp j, aEvaluation proof j)) final := by
  have step : (List.range logN).foldr (fun j state =>
      foldRound proof tp logN inverted state j) (final, []) = _ :=
    (List.foldr_ext _ _ _ fun j mem state => by
      have used := List.mem_range.mp mem
      show _ = (
        Opening.positive (tp.geminiR ^ 2 ^ j) (uChallenge tp j) (aEvaluation proof j) state.1,
        Opening.positive (tp.geminiR ^ 2 ^ j) (uChallenge tp j) (aEvaluation proof j) state.1 ::
          state.2)
      have cur : (tp.geminiR ^ 2 ^ j * state.1 * (2 : Nat) - aEvaluation proof j *
          (tp.geminiR ^ 2 ^ j * (1 - uChallenge tp j) - uChallenge tp j)) =
          (2 : Nat) * tp.geminiR ^ 2 ^ j * state.1 - aEvaluation proof j *
            (tp.geminiR ^ 2 ^ j * (1 - uChallenge tp j) - uChallenge tp j) := by
        ring
      simp only [foldRound, rPow_eq used, inverse j used, Opening.positive, cur]).trans
      (foldr_positive logN tp.geminiR final (uChallenge tp) (aEvaluation proof))
  rw [foldPos, List.foldl_reverse, step]

end ScalarLemmas

/-! ## The points -/

section Points

variable [AddCommGroup G] [Module Fr G]

/-- The sum of points, each with its scalar. -/
def weighted (points : List G) (scalars : List Fr) : G :=
  ((points.zip scalars).map fun term => term.2 • term.1).sum

/-- A host whose points are a group with a generator and a pairing: the two fixed points
of the check are one and `τ` times the generator of the other group. -/
structure Curve.Lawful (curve : Curve G) (g : G) (τ : Fr) : Prop where
  infinity : curve.point G1Point.infinity = some 0
  generator : curve.point G1Point.generator = some g
  free : ∀ x : Fr, x • g = 0 → x = 0
  msm : ∀ points scalars, curve.msm points scalars = weighted points scalars
  neg : ∀ point, curve.neg point = -point
  pairing : ∀ p0 p1, curve.pairingCheck p0 p1 = true ↔ p0 + τ • p1 = 0

theorem weighted_append {points others : List G} {scalars rest : List Fr}
    (count : points.length = scalars.length) :
    weighted (points ++ others) (scalars ++ rest) =
      weighted points scalars + weighted others rest := by
  rw [weighted, List.zip_append count, List.map_append, List.sum_append, ← weighted, ← weighted]

theorem weighted_zero (points : List G) (count : Nat) :
    weighted points (List.replicate count (0 : Fr)) = 0 := by
  apply List.sum_eq_zero
  intro term mem
  rcases List.mem_map.mp mem with ⟨pair, pair_mem, rfl⟩
  rw [List.eq_of_mem_replicate (List.of_mem_zip pair_mem).2, zero_smul]

theorem mapM_eq_of_forall {α β : Type*} {f : α → Option β} {g : α → β} {items : List α}
    (all : ∀ x ∈ items, f x = some (g x)) : items.mapM f = some (items.map g) := by
  induction items with
  | nil => rfl
  | cons x items ih =>
      rw [List.forall_mem_cons] at all
      rw [List.mapM_cons, all.1, ih all.2, List.map_cons]
      rfl

/-- Terms with the scalar zero do not count. -/
theorem sum_nonzero_terms (pt : G1Point → G) (terms : List (G1Point × Fr)) :
    (((terms.filter fun term => term.2 ≠ 0).map fun term => term.2 • pt term.1)).sum =
      (terms.map fun term => term.2 • pt term.1).sum := by
  induction terms with
  | nil => rfl
  | cons term terms ih =>
      rw [List.filter_cons, List.map_cons, List.sum_cons, ← ih]
      by_cases zero : term.2 = 0
      · rw [if_neg (by simpa using zero), zero, zero_smul, zero_add]
      · rw [if_pos (by simpa using zero), List.map_cons, List.sum_cons]

theorem g1Msm_eq {curve : Curve G} {g : G} {τ : Fr} (lawful : curve.Lawful g τ)
    {coms : List G1Point} {scalars : List Fr} {pt : G1Point → G}
    (count : coms.length = scalars.length)
    (decoded : ∀ com ∈ coms, curve.point com = some (pt com)) :
    g1Msm curve coms scalars = some (.ok (weighted (coms.map pt) scalars)) := by
  have all : weighted (coms.map pt) scalars =
      ((coms.zip scalars).map fun term => term.2 • pt term.1).sum := by
    rw [weighted, List.zip_map_left, List.map_map]
    rfl
  have kept : ∀ term ∈ (coms.zip scalars).filter fun term => term.2 ≠ 0,
      curve.point term.1 = some (pt term.1) := by
    intro term mem
    exact decoded _ (List.of_mem_zip (List.mem_of_mem_filter mem)).1
  rw [g1Msm, if_neg (not_not.mpr count), all, ← sum_nonzero_terms]
  dsimp only
  cases terms : (coms.zip scalars).filter fun term => term.2 ≠ 0 with
  | nil => rw [List.isEmpty_nil, if_pos rfl, lawful.infinity]; rfl
  | cons term rest =>
      rw [terms] at kept
      rw [List.isEmpty_cons, if_neg Bool.false_ne_true, mapM_eq_of_forall kept, Option.map_some,
        lawful.msm, weighted, List.zip_map', List.map_map]
      rfl

/-- The claims about the folds: each at a square and at its other root. -/
def pairClaims (r : Fr) (folds : Nat → G) (positive negative : Nat → Fr) (count : Nat) :
    List (Opening.Claim Fr G) :=
  (List.range count).flatMap fun j =>
    [⟨folds j, r ^ 2 ^ (j + 1), positive (j + 1)⟩, ⟨folds j, -(r ^ 2 ^ (j + 1)), negative (j + 1)⟩]

omit [AddCommGroup G] [Module Fr G] in
theorem pairClaims_succ (r : Fr) (folds : Nat → G) (positive negative : Nat → Fr) (count : Nat) :
    pairClaims r folds positive negative (count + 1) =
      pairClaims r folds positive negative count ++
        [⟨folds count, r ^ 2 ^ (count + 1), positive (count + 1)⟩,
          ⟨folds count, -(r ^ 2 ^ (count + 1)), negative (count + 1)⟩] := by
  rw [pairClaims, List.range_succ, List.flatMap_append, List.flatMap_singleton, pairClaims]

omit [AddCommGroup G] [Module Fr G] in
theorem length_pairClaims (r : Fr) (folds : Nat → G) (positive negative : Nat → Fr)
    (count : Nat) : (pairClaims r folds positive negative count).length = 2 * count := by
  induction count with
  | zero => rfl
  | succ count ih =>
      rw [pairClaims_succ, List.length_append, ih]
      rfl

omit [AddCommGroup G] [Module Fr G] in
theorem length_furtherFolds (proof : Proof) (tp : Transcript) (logN : Nat)
    (inverted values : List Fr) (folds : List Nat) (state : List Fr × Fr × Fr) :
    (folds.foldl (furtherFold proof tp logN inverted values) state).1.length =
      state.1.length + folds.length := by
  induction folds generalizing state with
  | nil => rfl
  | cons j folds ih =>
      rw [List.foldl_cons, ih, furtherFold, List.length_append, List.length_singleton,
        List.length_cons]
      omega

/-- The loop over the folds takes their claims, batched, off the sum. -/
theorem foldl_furtherFold (proof : Proof) {tp : Transcript} {logN count : Nat}
    {inverted : List Fr} (values : List Fr) {points : List G}
    (positive : ∀ j < count, inverted.getD (3 + logN + 2 * j) 0 =
      (tp.shplonkZ - tp.geminiR ^ 2 ^ (j + 1))⁻¹)
    (negative : ∀ j < count, inverted.getD (3 + logN + 2 * j + 1) 0 =
      (tp.shplonkZ + tp.geminiR ^ 2 ^ (j + 1))⁻¹)
    (enough : count ≤ points.length) (g : G) (const power : Fr) :
    let state := (List.range count).foldl (furtherFold proof tp logN inverted values)
      ([], const, power)
    state.2.2 = power * tp.shplonkNu ^ (2 * count) ∧
      weighted (points.take count) state.1 + state.2.1 • g =
        const • g - power • Opening.batched g tp.shplonkNu tp.shplonkZ
          (pairClaims tp.geminiR (points.getD · 0) (values.getD · 0) (aEvaluation proof)
            count) := by
  induction count with
  | zero =>
      refine ⟨by rw [List.range_zero, List.foldl_nil, Nat.mul_zero, pow_zero, mul_one], ?_⟩
      rw [List.range_zero, List.foldl_nil, List.take_zero, pairClaims, List.range_zero,
        List.flatMap_nil, Opening.batched, smul_zero, sub_zero]
      exact zero_add _
  | succ count ih =>
      rcases ih (fun j used => positive j (Nat.lt_succ_of_lt used))
        (fun j used => negative j (Nat.lt_succ_of_lt used)) (Nat.le_of_succ_le enough)
        with ⟨power_eq, sum⟩
      have length := length_furtherFolds proof tp logN inverted values (List.range count)
        ([], const, power)
      rw [List.length_nil, List.length_range, Nat.zero_add] at length
      dsimp only
      rw [List.range_succ, List.foldl_append, List.foldl_cons, List.foldl_nil]
      generalize (List.range count).foldl (furtherFold proof tp logN inverted values)
        ([], const, power) = state at length power_eq sum ⊢
      have at_count : points[count]? = some (points.getD count 0) := by
        rw [List.getD_eq_getElem?_getD, List.getElem?_eq_getElem enough, Option.getD_some]
      constructor
      · show state.2.2 * (tp.shplonkNu * tp.shplonkNu) = _
        rw [power_eq, Nat.mul_succ, pow_add, pow_two, mul_assoc]
      · have front : (points.take count).length = state.1.length := by
          rw [length, List.length_take, Nat.min_eq_left (Nat.le_of_succ_le enough)]
        have single (s : Fr) : weighted [points.getD count 0] [s] = s • points.getD count 0 := by
          rw [weighted]
          exact add_zero _
        rw [List.take_add_one, at_count, Option.toList_some, furtherFold, weighted_append front,
          single, positive count (Nat.lt_succ_self count), negative count (Nat.lt_succ_self count),
          pairClaims_succ, Opening.batched_append, length_pairClaims, Opening.batched,
          Opening.batched, Opening.batched, power_eq, eq_sub_of_add_eq sum, sub_neg_eq_add]
        module

/-! ## The check -/

theorem weighted_map_mul (points : List G) (c : Fr) (scalars : List Fr) :
    weighted points (scalars.map (c * ·)) = c • weighted points scalars := by
  rw [weighted, weighted, List.smul_sum, List.zip_map_right, List.map_map, List.map_map]
  congr 1
  apply List.map_congr_left
  intro term _
  exact mul_smul c term.2 term.1

section Claims

variable (proof : Proof) (vk : VerificationKey) (tp : Transcript) (pt : G1Point → G)

/-- The commitments of the wires that are shifted. -/
def shiftedComs (proof : Proof) : List G1Point :=
  [proof.w1, proof.w2, proof.w3, proof.w4, proof.zPerm]

/-- The batch of what is not shifted. -/
def unshiftedBatch : G :=
  weighted ((unshiftedComs proof vk).map pt) ((List.range NUMBER_UNSHIFTED).map (tp.rho ^ ·))

/-- The batch of what is shifted, with the powers that follow. -/
def shiftedBatch : G :=
  weighted ((shiftedComs proof).map pt) ((List.range' NUMBER_UNSHIFTED 5).map (tp.rho ^ ·))

/-- The values at the squares that the claimed evaluations make. -/
def claimedPositives (logN : Nat) : List Fr :=
  Opening.positives tp.geminiR
    ((List.range logN).map fun j => (uChallenge tp j, aEvaluation proof j))
    (batchedEvaluation proof tp)

/-- All claims about openings: the batch with the shifts at both roots, then each fold. -/
def openingClaims : List (Opening.Claim Fr G) :=
  let logN := vk.logCircuitSize.val
  let positives := claimedPositives proof tp logN
  let shifted := tp.geminiR⁻¹ • shiftedBatch proof tp pt
  [⟨unshiftedBatch proof vk tp pt + shifted, tp.geminiR, positives.getD 0 0⟩,
    ⟨unshiftedBatch proof vk tp pt - shifted, -tp.geminiR, aEvaluation proof 0⟩] ++
    pairClaims tp.geminiR (((List.ofFn proof.geminiFoldComms).map pt).getD · 0)
      (positives.getD · 0) (aEvaluation proof) (logN - 1)

/-- With merged scalars, each commitment stands once for itself and for its shift. -/
theorem weighted_mergeShifted (negUnshifted negShifted : Fr) :
    weighted ((unshiftedComs proof vk).map pt)
        ((mergeShifted ((List.range NUMBER_OF_ENTITIES).map
          (evalScalar tp.rho negUnshifted negShifted))).take NUMBER_UNSHIFTED) =
      negUnshifted • unshiftedBatch proof vk tp pt + negShifted • shiftedBatch proof tp pt := by
  have count (f : Nat → Fr) : ((List.ofFn vk.points).map pt).length =
      ((List.range 27).map f).length := by
    rw [List.length_map, List.length_ofFn, List.length_map, List.length_range]
  have front : (List.range 27).map (evalScalar tp.rho negUnshifted negShifted) =
      ((List.range 27).map (tp.rho ^ ·)).map (negUnshifted * ·) := by
    rw [List.map_map]
    apply List.map_congr_left
    intro i mem
    exact evalScalar_of_lt ((List.mem_range.mp mem).trans (by decide))
  have powers : (List.range NUMBER_UNSHIFTED).map (tp.rho ^ ·) =
      (List.range 27).map (tp.rho ^ ·) ++ [tp.rho ^ 27, tp.rho ^ 28, tp.rho ^ 29, tp.rho ^ 30,
        tp.rho ^ 31, tp.rho ^ 32, tp.rho ^ 33, tp.rho ^ 34] :=
    rfl
  rw [mergeShifted_eq, unshiftedBatch, shiftedBatch, powers, unshiftedComs, List.map_append,
    weighted_append (count _), weighted_append (count _), front, weighted_map_mul]
  generalize weighted ((List.ofFn vk.points).map pt) _ = fixed
  simp (disch := decide) only [evalScalar_of_lt, evalScalar_of_le, weighted, shiftedComs,
    List.map_cons, List.map_nil, List.zip_cons_cons,
    List.zip_nil_right, List.sum_cons, List.sum_nil, List.range'_succ, List.range'_zero]
  module

omit [AddCommGroup G] [Module Fr G] in
theorem length_mergeShifted (b : Nat → Fr) :
    ((unshiftedComs proof vk).map pt).length =
      ((mergeShifted ((List.range NUMBER_OF_ENTITIES).map b)).take NUMBER_UNSHIFTED).length := by
  rw [mergeShifted_eq, List.length_map, unshiftedComs, List.length_append, List.length_ofFn,
    List.length_append, List.length_map, List.length_range]
  rfl

omit [AddCommGroup G] [Module Fr G] in
theorem length_msmComs (inverted : List Fr) (positive : 0 < vk.logCircuitSize.val)
    (small : vk.logCircuitSize.val ≤ CONST_PROOF_SIZE_LOG_N) :
    (msmComs proof vk).length =
      (msmScalars proof tp vk.logCircuitSize.val inverted).length := by
  have merged (negUnshifted negShifted : Fr) :
      ((mergeShifted (weighEvaluations proof tp negUnshifted negShifted).1).take
        NUMBER_UNSHIFTED).length = NUMBER_UNSHIFTED := by
    rw [(weighEvaluations_eq _ _).1, ← length_mergeShifted proof vk id, List.map_id, unshiftedComs,
      List.length_append, List.length_ofFn]
    rfl
  rw [msmComs, msmScalars, unshiftedComs]
  simp only [List.length_append, merged, length_furtherFolds, List.length_ofFn,
    List.length_replicate, List.length_range, List.length_cons, List.length_nil]
  unfold NUMBER_UNSHIFTED NUM_POINTS CONST_PROOF_SIZE_LOG_N at *
  omega

/-- The one sum is the quotient less the batch of all claims, and the opening at `z`. -/
theorem weighted_msmScalars {g : G} {inverted : List Fr}
    (inverses : Inverses tp vk.logCircuitSize.val inverted)
    (small : vk.logCircuitSize.val ≤ CONST_PROOF_SIZE_LOG_N)
    (generator : pt G1Point.generator = g) :
    weighted ((msmComs proof vk).map pt) (msmScalars proof tp vk.logCircuitSize.val inverted) =
      pt proof.shplonkQ -
        Opening.batched g tp.shplonkNu tp.shplonkZ (openingClaims proof vk tp pt) +
      tp.shplonkZ • pt proof.kzgQuotient := by
  let folds := (List.ofFn proof.geminiFoldComms).map pt
  have folds_length : folds.length = CONST_PROOF_SIZE_LOG_N - 1 := by
    rw [List.length_map, List.length_ofFn]
  have enough : vk.logCircuitSize.val - 1 ≤ folds.length := by
    rw [folds_length]
    exact Nat.sub_le_sub_right small 1
  have coms : (msmComs proof vk).map pt =
      [pt proof.shplonkQ] ++ (unshiftedComs proof vk).map pt ++
        folds.take (vk.logCircuitSize.val - 1) ++ folds.drop (vk.logCircuitSize.val - 1) ++
          [g, pt proof.kzgQuotient] := by
    rw [msmComs, List.map_append, List.map_append, List.map_append,
      List.append_assoc _ (folds.take _), List.take_append_drop, ← generator]
    rfl
  have values : foldPos proof tp vk.logCircuitSize.val inverted (batchedEvaluation proof tp) =
      claimedPositives proof tp vk.logCircuitSize.val :=
    foldPos_eq inverses.round
  have further := foldl_furtherFold proof (claimedPositives proof tp vk.logCircuitSize.val)
    inverses.positive inverses.negative enough g
    ((claimedPositives proof tp vk.logCircuitSize.val).getD 0 0 * (tp.shplonkZ - tp.geminiR)⁻¹ +
      aEvaluation proof 0 * tp.shplonkNu * (tp.shplonkZ + tp.geminiR)⁻¹)
    (tp.shplonkNu * tp.shplonkNu)
  rw [coms, msmScalars, inverses.pos0, inverses.neg0, inverses.geminiR, (weighEvaluations_eq _ _).1,
    (weighEvaluations_eq _ _).2, values]
  have length := length_furtherFolds proof tp vk.logCircuitSize.val inverted
    (claimedPositives proof tp vk.logCircuitSize.val) (List.range (vk.logCircuitSize.val - 1))
    ([], (claimedPositives proof tp vk.logCircuitSize.val).getD 0 0 *
      (tp.shplonkZ - tp.geminiR)⁻¹ +
      aEvaluation proof 0 * tp.shplonkNu * (tp.shplonkZ + tp.geminiR)⁻¹,
      tp.shplonkNu * tp.shplonkNu)
  rw [List.length_nil, List.length_range, Nat.zero_add] at length
  dsimp only at further ⊢
  generalize (List.range (vk.logCircuitSize.val - 1)).foldl
    (furtherFold proof tp vk.logCircuitSize.val inverted
    (claimedPositives proof tp vk.logCircuitSize.val)) _ = state at further length ⊢
  rcases further with ⟨_, sum⟩
  have merged := length_mergeShifted proof vk pt (evalScalar tp.rho
    (-(tp.shplonkNu * (tp.shplonkZ + tp.geminiR)⁻¹ + (tp.shplonkZ - tp.geminiR)⁻¹))
    (-(tp.geminiR⁻¹ * ((tp.shplonkZ - tp.geminiR)⁻¹ -
      tp.shplonkNu * (tp.shplonkZ + tp.geminiR)⁻¹))))
  have used_length : (folds.take (vk.logCircuitSize.val - 1)).length = state.1.length := by
    rw [length, List.length_take, Nat.min_eq_left enough]
  have unused_length : (folds.drop (vk.logCircuitSize.val - 1)).length =
      (List.replicate (CONST_PROOF_SIZE_LOG_N - 1 - (vk.logCircuitSize.val - 1))
        (0 : Fr)).length := by
    rw [List.length_drop, folds_length, List.length_replicate]
  have single : ([pt proof.shplonkQ] : List G).length = ([1] : List Fr).length := rfl
  rw [weighted_append
      (by simp only [List.length_append, single, merged, used_length, unused_length]),
    weighted_append (by simp only [List.length_append, single, merged, used_length]),
    weighted_append (by simp only [List.length_append, single, merged]),
    weighted_append single, weighted_mergeShifted, weighted_zero, openingClaims,
    Opening.batched_append, eq_sub_of_add_eq sum, Opening.batched, Opening.batched,
    Opening.batched, sub_neg_eq_add]
  simp only [weighted, List.zip_cons_cons, List.zip_nil_right, List.map_cons, List.map_nil,
    List.sum_cons, List.sum_nil, List.length_cons, List.length_nil]
  module

variable {proof vk tp pt}

/-- What the verifier checks before it reads a point. -/
def Checked (tp : Transcript) (logN : Nat) : Prop :=
  (0 < logN ∧ logN ≤ CONST_PROOF_SIZE_LOG_N) ∧ 0 ∉ toInvert tp logN

omit [AddCommGroup G] [Module Fr G] in
theorem checked_of_accepted {curve : Curve G}
    (accepted : verifyShplemini curve proof vk tp = some (.ok ())) :
    Checked tp vk.logCircuitSize.val := by
  rw [verifyShplemini] at accepted
  by_cases range : vk.logCircuitSize.val = 0 ∨ vk.logCircuitSize.val > CONST_PROOF_SIZE_LOG_N
  · rw [if_pos range] at accepted
    cases accepted
  · refine ⟨by omega, ?_⟩
    intro zero
    rw [if_neg range, batchInverse_eq, if_pos zero] at accepted
    cases accepted

/-- After the checks, the one sum and the one pairing decide. -/
theorem accepts_iff_of_checked {curve : Curve G} {g : G} {τ : Fr} (lawful : curve.Lawful g τ)
    (decoded : ∀ com ∈ msmComs proof vk, curve.point com = some (pt com))
    (checked : Checked tp vk.logCircuitSize.val) :
    verifyShplemini curve proof vk tp = some (.ok ()) ↔
      Opening.Accepts g τ tp.shplonkNu tp.shplonkZ (openingClaims proof vk tp pt)
        (pt proof.shplonkQ) (pt proof.kzgQuotient) := by
  have quotient : curve.point proof.kzgQuotient = some (pt proof.kzgQuotient) :=
    decoded _ (List.mem_append_right _ (List.mem_cons_of_mem _ List.mem_cons_self))
  have generator : pt G1Point.generator = g := by
    have mem : G1Point.generator ∈ msmComs proof vk :=
      List.mem_append_right _ List.mem_cons_self
    rw [← Option.some.injEq, ← decoded _ mem, lawful.generator]
  rcases checked with ⟨bounds, zero⟩
  have nonzero : ((toInvert tp vk.logCircuitSize.val).map (·⁻¹)).any (fun x => x = 0) = false := by
    rw [List.any_eq_false]
    intro x mem
    rcases List.mem_map.mp mem with ⟨y, y_mem, rfl⟩
    rw [decide_eq_true_iff, inv_eq_zero]
    rintro rfl
    exact zero y_mem
  have msm := g1Msm_eq lawful (length_msmComs proof vk tp
    ((toInvert tp vk.logCircuitSize.val).map (·⁻¹)) bounds.1 bounds.2) decoded
  rw [weighted_msmScalars proof vk tp pt (inverses_toInvert bounds.1) bounds.2 generator] at msm
  rw [verifyShplemini, if_neg (by omega), batchInverse_eq, if_neg zero]
  dsimp only
  rw [nonzero, if_neg Bool.false_ne_true, msm]
  dsimp only
  rw [quotient, Option.map_some, Option.some.injEq, lawful.neg]
  have check := lawful.pairing (pt proof.shplonkQ - Opening.batched g tp.shplonkNu tp.shplonkZ
    (openingClaims proof vk tp pt) + tp.shplonkZ • pt proof.kzgQuotient)
    (-pt proof.kzgQuotient)
  have moved : pt proof.shplonkQ - Opening.batched g tp.shplonkNu tp.shplonkZ
        (openingClaims proof vk tp pt) + tp.shplonkZ • pt proof.kzgQuotient +
        τ • -pt proof.kzgQuotient =
      pt proof.shplonkQ - Opening.batched g tp.shplonkNu tp.shplonkZ
        (openingClaims proof vk tp pt) - (τ - tp.shplonkZ) • pt proof.kzgQuotient := by
    module
  rw [moved, sub_eq_zero] at check
  rw [Opening.Accepts, ← check]
  cases curve.pairingCheck _ _ with
  | true => exact iff_of_true rfl rfl
  | false =>
      apply iff_of_false
      · intro impossible
        cases impossible
      · exact Bool.false_ne_true

/-- The one sum and the one pairing decide exactly on all claims about openings. -/
theorem verifyShplemini_eq_ok_iff {curve : Curve G} {g : G} {τ : Fr} (lawful : curve.Lawful g τ)
    (decoded : ∀ com ∈ msmComs proof vk, curve.point com = some (pt com)) :
    verifyShplemini curve proof vk tp = some (.ok ()) ↔
      (0 < vk.logCircuitSize.val ∧ vk.logCircuitSize.val ≤ CONST_PROOF_SIZE_LOG_N) ∧
        0 ∉ toInvert tp vk.logCircuitSize.val ∧
        Opening.Accepts g τ tp.shplonkNu tp.shplonkZ (openingClaims proof vk tp pt)
          (pt proof.shplonkQ) (pt proof.kzgQuotient) := by
  constructor
  · intro accepted
    have checked := checked_of_accepted accepted
    exact ⟨checked.1, checked.2, (accepts_iff_of_checked lawful decoded checked).mp accepted⟩
  · rintro ⟨bounds, nonzero, accepts⟩
    exact (accepts_iff_of_checked lawful decoded ⟨bounds, nonzero⟩).mpr accepts

end Claims

end Points

/-! ## A host of logarithms -/

/-- The point with a given logarithm: the numeral of that many generators. -/
def numeralPoint (x : Fr) : G1Point :=
  BytesN.ofNat 64 (x.val * (2 ^ 256 + 2))

/-- Points as their logarithms, read off the number of the bytes. -/
def numeralCurve (τ : Fr) : Curve Fr where
  point bytes := some ((bytes.toNat : Fr) * ((2 ^ 256 + 2 : Nat) : Fr)⁻¹)
  msm := weighted
  neg point := -point
  pairingCheck p0 p1 := p0 + τ * p1 = 0

theorem point_numeralPoint (τ x : Fr) : (numeralCurve τ).point (numeralPoint x) = some x := by
  have room : x.val * (2 ^ 256 + 2) < 256 ^ 64 := by
    have small : p ≤ 2 ^ 255 := by decide +kernel
    have below := (ZMod.val_lt x).trans_le small
    omega
  have unit_ne : ((2 ^ 256 + 2 : Nat) : Fr) ≠ 0 := by decide +kernel
  show some (((numeralPoint x).toNat : Fr) * ((2 ^ 256 + 2 : Nat) : Fr)⁻¹) = some x
  rw [numeralPoint, BytesN.toNat_ofNat room, Nat.cast_mul, ZMod.natCast_zmod_val,
    mul_inv_cancel_right₀ unit_ne]

theorem lawful_numeralCurve (τ : Fr) : (numeralCurve τ).Lawful 1 τ where
  infinity := point_numeralPoint τ 0
  generator := point_numeralPoint τ 1
  free x zero := by rwa [smul_eq_mul, mul_one] at zero
  msm _ _ := rfl
  neg _ := rfl
  pairing p0 p1 := decide_eq_true_iff

/-- A key for four rows whose only commitment is that of the first row. -/
def fourRowsKey : VerificationKey where
  circuitSize := 4
  logCircuitSize := 2
  publicInputsSize := 16
  pubInputsOffset := 0
  points i := if i = 25 then G1Point.generator else G1Point.infinity

def fourRowsTranscript : Transcript where
  relParams := ⟨0, 0, 0, 0, 0, 0⟩
  alphas _ := 0
  gateChallenges _ := 1
  sumcheckUChallenges i := (3 + i.val : Nat)
  rho := (7 : Nat)
  geminiR := (2 : Nat)
  shplonkNu := (11 : Nat)
  shplonkZ := (5 : Nat)

/-- The opening of the first row's table, and of a `z_perm` that is one in its second row and
so in the first of its shift. -/
def fourRowsProof (τ : Fr) : Proof :=
  -- the batch is `first + second * X`, the fold a constant
  let first : Fr := (7 : Nat) ^ 25 + (7 : Nat) ^ 39
  let second : Fr := (7 : Nat) ^ 31
  let folded : Fr := -(2 : Nat) * first + (3 : Nat) * second
  let shifted : Fr := (7 : Nat) ^ 39 * ((2 : Nat) : Fr)⁻¹
  { pairingPointObject := fun _ => 0
    w1 := G1Point.infinity
    w2 := G1Point.infinity
    w3 := G1Point.infinity
    w4 := G1Point.infinity
    lookupReadCounts := G1Point.infinity
    lookupReadTags := G1Point.infinity
    lookupInverses := G1Point.infinity
    zPerm := numeralPoint τ
    sumcheckUnivariates := fun _ _ => 0
    sumcheckEvaluations := fun i =>
      if i = Wire.index .lagrangeFirst ∨ i = Wire.index .zPermShift then (6 : Nat)
      else if i = Wire.index .zPerm then -(9 : Nat)
      else 0
    geminiFoldComms := fun j => if j.val = 0 then numeralPoint folded else G1Point.infinity
    geminiAEvaluations := fun i =>
      if i.val = 0 then first - (2 : Nat) * second else if i.val = 1 then folded else 0
    shplonkQ := numeralPoint (second + shifted + (11 : Nat) * (second - shifted))
    kzgQuotient := numeralPoint (-((second + shifted) * ((3 : Nat) : Fr)⁻¹ +
      (11 : Nat) * ((second - shifted) * ((7 : Nat) : Fr)⁻¹))) }

/-- The values of the first row's table and of `z_perm` with its shift are opened. -/
theorem verifyShplemini_fourRows :
    verifyShplemini (numeralCurve 13) (fourRowsProof 13) fourRowsKey fourRowsTranscript =
      some (.ok ()) := by
  have decoded : ∀ com ∈ msmComs (fourRowsProof 13) fourRowsKey,
      (numeralCurve 13).point com = some (((numeralCurve 13).point com).getD 0) :=
    fun _ _ => rfl
  apply (verifyShplemini_eq_ok_iff (lawful_numeralCurve 13) decoded).mpr
  refine ⟨by decide, by decide +kernel, ?_⟩
  unfold Opening.Accepts
  decide +kernel

end Solva.Verifier
