import Mathlib.Algebra.Polynomial.Eval.Degree
import Mathlib.Algebra.Polynomial.Eval.Coeff
import Mathlib.Data.Fin.VecNotation
import Mathlib.Data.List.GetD
import Mathlib.Tactic.ComputeDegree

/-!
# The relations of UltraHonk

The 26 subrelations of `relations.rs` and their combination. They are polynomials in the
values of the forty entities, so they are written for any commutative ring: the verifier
evaluates them at field elements, and their degree is read off at polynomials.
-/

namespace Solva.Verifier

/-! ## Entities and parameters -/

/-- `Wire`: the polynomials of the protocol. The last five are shifts. -/
inductive Wire where
  | qm | qc | ql | qr | qo | q4
  | qLookup | qArith | qRange | qElliptic | qAux | qPoseidon2External | qPoseidon2Internal
  | sigma1 | sigma2 | sigma3 | sigma4
  | id1 | id2 | id3 | id4
  | table1 | table2 | table3 | table4
  | lagrangeFirst | lagrangeLast
  | wl | wr | wo | w4 | zPerm | lookupInverses | lookupReadCounts | lookupReadTags
  | wlShift | wrShift | woShift | w4Shift | zPermShift
  deriving DecidableEq

/-- `NUMBER_OF_SUBRELATIONS`. -/
abbrev NUMBER_OF_SUBRELATIONS : Nat :=
  26

/-- `NUMBER_OF_ALPHAS`. -/
abbrev NUMBER_OF_ALPHAS : Nat :=
  NUMBER_OF_SUBRELATIONS - 1

structure RelationParameters (R : Type*) where
  eta : R
  etaTwo : R
  etaThree : R
  beta : R
  gamma : R
  publicInputsDelta : R

def RelationParameters.map {R S : Type*} (φ : R → S) (rp : RelationParameters R) :
    RelationParameters S :=
  ⟨φ rp.eta, φ rp.etaTwo, φ rp.etaThree, φ rp.beta, φ rp.gamma, φ rp.publicInputsDelta⟩

/-! ## Constants -/

/-- `Fr::neg_half`. -/
def NEG_HALF : Nat :=
  0x183227397098d014dc2822db40c0ac2e9419f4243cdcb848a1f0fac9f8000000

/-- `Fr::minus_one`. -/
def MINUS_ONE : Nat :=
  0x30644e72e131a029b85045b68181585d2833e84879b9709143e1f593f0000000

/-- `Fr::minus_two`. -/
def MINUS_TWO : Nat :=
  0x30644e72e131a029b85045b68181585d2833e84879b9709143e1f593efffffff

/-- `Fr::minus_three`. -/
def MINUS_THREE : Nat :=
  0x30644e72e131a029b85045b68181585d2833e84879b9709143e1f593effffffe

/-- `B_NEG`, of the Grumpkin curve. -/
def B_NEG : Nat :=
  17

/-- `limb_size`. -/
def LIMB_SIZE : Nat :=
  0x100000000000000000

/-- `sublimb_shift`. -/
def SUBLIMB_SHIFT : Nat :=
  2 ^ 14

/-- `Fr::internal_matrix_diagonal`. -/
def INTERNAL_MATRIX_DIAGONAL : List Nat :=
  [0x10dc6e9c006ea38b04b1e03b4bd9490c0d03f98929ca1d7fb56821fd19d3b6e7,
    0x0c28145b6a44df3e0149b3d0a30b3bb599df9756d4dd9b84a86b38cfb45a740b,
    0x00544b8338791518b2c7645a50392798b21f75bb60e3596170067d00141cac15,
    0x222c01175718386f2e2e82eb122789e352e105a3b8fa852613bc534433ee428b]

/-! ## The subrelations -/

section Relations

variable {R : Type*} [CommRing R]

/-- `accumulate_arithmetic_relation`: contributions 0 and 1. -/
def accumulateArithmeticRelation (p : Wire → R) (domainSep : R) : List R :=
  let relation0 := (p .qArith - (3 : Nat)) * p .qm * p .wr * p .wl * (NEG_HALF : R)
  let relation0 := relation0 + p .ql * p .wl + p .qr * p .wr + p .qo * p .wo + p .q4 * p .w4 + p .qc
  let relation0 := (relation0 + (p .qArith - (1 : Nat)) * p .w4Shift) * p .qArith * domainSep
  let relation1 := p .wl + p .w4 - p .wlShift + p .qm
  let relation1 := relation1 * (p .qArith - (2 : Nat)) * (p .qArith - (1 : Nat)) * p .qArith *
    domainSep
  [relation0, relation1]

/-- `accumulate_permutation_relation`: contributions 2 and 3. -/
def accumulatePermutationRelation (p : Wire → R) (rp : RelationParameters R) (domainSep : R) :
    List R :=
  let grandProductNumerator := (p .wl + p .id1 * rp.beta + rp.gamma) *
    (p .wr + p .id2 * rp.beta + rp.gamma) * (p .wo + p .id3 * rp.beta + rp.gamma) *
    (p .w4 + p .id4 * rp.beta + rp.gamma)
  let grandProductDenominator := (p .wl + p .sigma1 * rp.beta + rp.gamma) *
    (p .wr + p .sigma2 * rp.beta + rp.gamma) * (p .wo + p .sigma3 * rp.beta + rp.gamma) *
    (p .w4 + p .sigma4 * rp.beta + rp.gamma)
  [((p .zPerm + p .lagrangeFirst) * grandProductNumerator -
      (p .zPermShift + p .lagrangeLast * rp.publicInputsDelta) * grandProductDenominator) *
        domainSep,
    p .lagrangeLast * p .zPermShift * domainSep]

/-- `accumulate_log_derivative_lookup_relation`: contributions 4 and 5. The second is not
separated by gates. -/
def accumulateLogDerivativeLookupRelation (p : Wire → R) (rp : RelationParameters R)
    (domainSep : R) : List R :=
  let writeTerm := p .table1 + rp.gamma + p .table2 * rp.eta + p .table3 * rp.etaTwo +
    p .table4 * rp.etaThree
  let derivedEntry2 := p .wr + p .qm * p .wrShift
  let derivedEntry3 := p .wo + p .qc * p .woShift
  let readTerm := p .wl + rp.gamma + p .qr * p .wlShift + derivedEntry2 * rp.eta +
    derivedEntry3 * rp.etaTwo + p .qo * rp.etaThree
  let inv := p .lookupInverses
  let invExists := p .lookupReadTags + p .qLookup - p .lookupReadTags * p .qLookup
  [(readTerm * writeTerm * inv - invExists) * domainSep,
    p .qLookup * (writeTerm * inv) - p .lookupReadCounts * (readTerm * inv)]

/-- `accumulate_delta_range_relation`: contributions 6 to 9. -/
def accumulateDeltaRangeRelation (p : Wire → R) (domainSep : R) : List R :=
  let deltas := [p .wr - p .wl, p .wo - p .wr, p .w4 - p .wo, p .wlShift - p .w4]
  let qRangeDom := p .qRange * domainSep
  deltas.map fun delta =>
    delta * (delta + (MINUS_ONE : R)) * (delta + (MINUS_TWO : R)) * (delta + (MINUS_THREE : R)) *
      qRangeDom

/-- `accumulate_elliptic_relation`: contributions 10 and 11. -/
def accumulateEllipticRelation (p : Wire → R) (domainSep : R) : List R :=
  let x1 := p .wr
  let y1 := p .wo
  let x2 := p .wlShift
  let y2 := p .w4Shift
  let x3 := p .wrShift
  let y3 := p .woShift
  let qSign := p .ql
  let qDouble := p .qm
  let deltaX := x2 - x1
  let y1Sq := y1 * y1
  let y2Sq := y2 * y2
  let y1y2 := y1 * y2 * qSign
  let xAddId := (x3 + x2 + x1) * deltaX * deltaX - y2Sq - y1Sq + y1y2 + y1y2
  let yDiff := y2 * qSign - y1
  let yAddId := (y1 + y3) * deltaX + (x3 - x1) * yDiff
  let xPow4 := (y1Sq + (B_NEG : R)) * x1
  let y1SqrMul4 := y1Sq + y1Sq + y1Sq + y1Sq
  let xPow4Mul9 := xPow4 * (9 : Nat)
  let xDoubleId := (x3 + x1 + x1) * y1SqrMul4 - xPow4Mul9
  let x1SqrMul3 := (x1 + x1 + x1) * x1
  let yDoubleId := x1SqrMul3 * (x1 - x3) - (y1 + y1) * (y1 + y3)
  let qGateDom := p .qElliptic * domainSep
  let addFactor := ((1 : Nat) - qDouble) * qGateDom
  let doubleFactor := qDouble * qGateDom
  [xAddId * addFactor + xDoubleId * doubleFactor, yAddId * addFactor + yDoubleId * doubleFactor]

/-- `accumulate_auxiliary_relation`: contributions 12 to 17. -/
def accumulateAuxiliaryRelation (p : Wire → R) (rp : RelationParameters R) (domainSep : R) :
    List R :=
  let limbSubproduct := p .wl * p .wrShift + p .wlShift * p .wr
  let nonNativeFieldGate2 := p .wl * p .w4 + p .wr * p .wo - p .woShift
  let nonNativeFieldGate2 := nonNativeFieldGate2 * (LIMB_SIZE : R) - p .w4Shift + limbSubproduct
  let nonNativeFieldGate2 := nonNativeFieldGate2 * p .q4
  let limbSubproduct := (LIMB_SIZE : R) * limbSubproduct + p .wlShift * p .wrShift
  let nonNativeFieldGate1 := (limbSubproduct - (p .wo + p .w4)) * p .qo
  let nonNativeFieldGate3 := (p .w4 - (p .woShift + p .w4Shift) + limbSubproduct) * p .qm
  let nonNativeFieldIdentity :=
    (nonNativeFieldGate1 + nonNativeFieldGate2 + nonNativeFieldGate3) * p .qr
  let limbAccumulator1 := p .wrShift * (SUBLIMB_SHIFT : R) + p .wlShift
  let limbAccumulator1 := limbAccumulator1 * (SUBLIMB_SHIFT : R) + p .wo
  let limbAccumulator1 := limbAccumulator1 * (SUBLIMB_SHIFT : R) + p .wr
  let limbAccumulator1 := limbAccumulator1 * (SUBLIMB_SHIFT : R) + p .wl
  let limbAccumulator1 := (limbAccumulator1 - p .w4) * p .q4
  let limbAccumulator2 := p .woShift * (SUBLIMB_SHIFT : R) + p .wrShift
  let limbAccumulator2 := limbAccumulator2 * (SUBLIMB_SHIFT : R) + p .wlShift
  let limbAccumulator2 := limbAccumulator2 * (SUBLIMB_SHIFT : R) + p .w4
  let limbAccumulator2 := limbAccumulator2 * (SUBLIMB_SHIFT : R) + p .wo
  let limbAccumulator2 := (limbAccumulator2 - p .w4Shift) * p .qm
  let limbAccumulatorIdentity := (limbAccumulator1 + limbAccumulator2) * p .qo
  let memoryRecord := p .wo * rp.etaThree + p .wr * rp.etaTwo + p .wl * rp.eta + p .qc
  let accessType := p .w4 - memoryRecord
  let memoryRecordCheck := memoryRecord - p .w4
  let indexDelta := p .wlShift - p .wl
  let recordDelta := p .w4Shift - p .w4
  let indexIsMonotonicallyIncreasing := indexDelta * indexDelta - indexDelta
  let adjacentValuesMatch := ((1 : Nat) - indexDelta) * recordDelta
  let romGateCommon := p .ql * p .qr * p .qAux * domainSep
  let accessCheck := accessType * accessType - accessType
  let nextGateAccessType :=
    p .woShift * rp.etaThree + p .wrShift * rp.etaTwo + p .wlShift * rp.eta
  let nextGateAccessType := p .w4Shift - nextGateAccessType
  let valueDelta := p .woShift - p .wo
  let adjacentValuesMatchOnRead :=
    ((1 : Nat) - indexDelta) * valueDelta * ((1 : Nat) - nextGateAccessType)
  let ramGateCommon := p .qArith * p .qAux * domainSep
  let romConsistencyCheckIdentity := memoryRecordCheck * p .ql * p .qr
  let ramTimestampCheckIdentity := ((1 : Nat) - indexDelta) * (p .wrShift - p .wr) - p .wo
  let ramConsistencyCheckIdentity := accessCheck * p .qArith
  let memoryIdentity := romConsistencyCheckIdentity + ramTimestampCheckIdentity * p .q4 * p .ql +
    memoryRecordCheck * p .qm * p .ql + ramConsistencyCheckIdentity
  let auxiliaryIdentity := memoryIdentity + nonNativeFieldIdentity + limbAccumulatorIdentity
  [auxiliaryIdentity * p .qAux * domainSep,
    adjacentValuesMatch * romGateCommon,
    indexIsMonotonicallyIncreasing * romGateCommon,
    adjacentValuesMatchOnRead * ramGateCommon,
    indexIsMonotonicallyIncreasing * ramGateCommon,
    (nextGateAccessType * nextGateAccessType - nextGateAccessType) * ramGateCommon]

/-- `accumulate_poseidon_external_relation`: contributions 18 to 21. -/
def accumulatePoseidonExternalRelation (p : Wire → R) (domainSep : R) : List R :=
  let u1 := (p .wl + p .ql) ^ 5
  let u2 := (p .wr + p .qr) ^ 5
  let u3 := (p .wo + p .qo) ^ 5
  let u4 := (p .w4 + p .q4) ^ 5
  let t0 := u1 + u2
  let t1 := u3 + u4
  let t2 := u2 + u2 + t1
  let t3 := u4 + u4 + t0
  let v4 := t1 + t1 + t1 + t1 + t3
  let v2 := t0 + t0 + t0 + t0 + t2
  let v1 := t3 + v2
  let v3 := t2 + v4
  let qPoseidonDom := p .qPoseidon2External * domainSep
  [(v1 - p .wlShift) * qPoseidonDom, (v2 - p .wrShift) * qPoseidonDom,
    (v3 - p .woShift) * qPoseidonDom, (v4 - p .w4Shift) * qPoseidonDom]

/-- `accumulate_poseidon_internal_relation`: contributions 22 to 25. -/
def accumulatePoseidonInternalRelation (p : Wire → R) (domainSep : R) : List R :=
  let u1 := (p .wl + p .ql) ^ 5
  let u2 := p .wr
  let u3 := p .wo
  let u4 := p .w4
  let qPoseidonDom := p .qPoseidon2Internal * domainSep
  let uSum := u1 + u2 + u3 + u4
  let w1 := u1 * (INTERNAL_MATRIX_DIAGONAL.getD 0 0 : R) + uSum
  let w2 := u2 * (INTERNAL_MATRIX_DIAGONAL.getD 1 0 : R) + uSum
  let w3 := u3 * (INTERNAL_MATRIX_DIAGONAL.getD 2 0 : R) + uSum
  let w4 := u4 * (INTERNAL_MATRIX_DIAGONAL.getD 3 0 : R) + uSum
  [(w1 - p .wlShift) * qPoseidonDom, (w2 - p .wrShift) * qPoseidonDom,
    (w3 - p .woShift) * qPoseidonDom, (w4 - p .w4Shift) * qPoseidonDom]

/-- The evaluations of all subrelations, in order. -/
def subrelations (p : Wire → R) (rp : RelationParameters R) (domainSep : R) : List R :=
  accumulateArithmeticRelation p domainSep ++ accumulatePermutationRelation p rp domainSep ++
    accumulateLogDerivativeLookupRelation p rp domainSep ++
    accumulateDeltaRangeRelation p domainSep ++ accumulateEllipticRelation p domainSep ++
    accumulateAuxiliaryRelation p rp domainSep ++
    accumulatePoseidonExternalRelation p domainSep ++
    accumulatePoseidonInternalRelation p domainSep

/-- `scale_and_batch_subrelations`: the first evaluation as it is, each other one with its
challenge. -/
def scaleAndBatchSubrelations (evaluations : List R) (challenges : Fin NUMBER_OF_ALPHAS → R) : R :=
  (evaluations.tail.zip (List.ofFn challenges)).foldl
    (fun accumulator term => accumulator + term.1 * term.2) (evaluations.headD 0)

/-- `accumulate_relation_evaluations`. -/
def accumulateRelationEvaluations (p : Wire → R) (rp : RelationParameters R)
    (alphas : Fin NUMBER_OF_ALPHAS → R) (powPartialEval : R) : R :=
  scaleAndBatchSubrelations (subrelations p rp powPartialEval) alphas

/-- The place of the lookup contribution that the gate separator does not multiply. -/
def LOOKUP_SUM : Nat :=
  5

/-- The separator is a factor of every other contribution, and this one does without. -/
theorem subrelations_separated (p : Wire → R) (rp : RelationParameters R) (domainSep : R) :
    subrelations p rp domainSep = ((subrelations p rp 1).map (· * domainSep)).set LOOKUP_SUM
      ((subrelations p rp 1).getD LOOKUP_SUM 0) := by
  simp only [subrelations, accumulateArithmeticRelation, accumulatePermutationRelation,
    accumulateLogDerivativeLookupRelation, accumulateDeltaRangeRelation,
    accumulateEllipticRelation, accumulateAuxiliaryRelation, accumulatePoseidonExternalRelation,
    accumulatePoseidonInternalRelation, List.map_cons, List.map_nil, List.cons_append,
    List.nil_append, LOOKUP_SUM, List.set_cons_succ, List.set_cons_zero, List.getD_cons_succ,
    List.getD_cons_zero, List.cons.injEq, and_true, true_and]
  repeat' apply And.intro
  all_goals ring

/-- A row satisfies all relations, but for the sum of lookups. -/
def Satisfies (p : Wire → R) (rp : RelationParameters R) : Prop :=
  ∀ i < NUMBER_OF_SUBRELATIONS, i ≠ LOOKUP_SUM → (subrelations p rp 1).getD i 0 = 0

instance decidableSatisfies [DecidableEq R] (p : Wire → R) (rp : RelationParameters R) :
    Decidable (Satisfies p rp) :=
  inferInstanceAs (Decidable (∀ i < NUMBER_OF_SUBRELATIONS, i ≠ LOOKUP_SUM →
    (subrelations p rp 1).getD i 0 = 0))

/-- What a row adds to the sum of lookups. -/
def lookupTerm (p : Wire → R) (rp : RelationParameters R) : R :=
  (subrelations p rp 1).getD LOOKUP_SUM 0

theorem length_subrelations (p : Wire → R) (rp : RelationParameters R) (domainSep : R) :
    (subrelations p rp domainSep).length = NUMBER_OF_SUBRELATIONS :=
  rfl

theorem Satisfies.subrelations_eq {p : Wire → R} {rp : RelationParameters R}
    (satisfies : Satisfies p rp) (domainSep : R) : subrelations p rp domainSep =
      (List.replicate NUMBER_OF_SUBRELATIONS 0).set LOOKUP_SUM (lookupTerm p rp) := by
  have others : (subrelations p rp 1).map (· * domainSep) =
      (List.replicate NUMBER_OF_SUBRELATIONS 0).set LOOKUP_SUM
        (lookupTerm p rp * domainSep) := by
    apply List.ext_getElem
    · rfl
    · intro i below _
      rw [List.length_map] at below
      have entry := List.getD_eq_getElem (subrelations p rp 1) 0 below
      by_cases lookup : i = LOOKUP_SUM
      · subst lookup
        rw [List.getElem_map, List.getElem_set_self, lookupTerm, entry]
      · have zero := satisfies i (by rwa [length_subrelations] at below) lookup
        rw [entry] at zero
        rw [List.getElem_map, List.getElem_set_ne (Ne.symm lookup), List.getElem_replicate, zero,
          zero_mul]
  rw [subrelations_separated, others, List.set_set]
  rfl

/-- On a satisfied row only the sum of lookups is left of the relations. -/
theorem Satisfies.accumulate {p : Wire → R} {rp : RelationParameters R}
    (satisfies : Satisfies p rp) (alphas : Fin NUMBER_OF_ALPHAS → R) (domainSep : R) :
    accumulateRelationEvaluations p rp alphas domainSep =
      lookupTerm p rp * (List.ofFn alphas).getD (LOOKUP_SUM - 1) 0 := by
  rw [accumulateRelationEvaluations, satisfies.subrelations_eq]
  simp [scaleAndBatchSubrelations, LOOKUP_SUM, List.replicate, List.ofFn_succ]

end Relations

/-! ## The relations as polynomials -/

section Homomorphism

variable {R S : Type*} [CommRing R] [CommRing S]

theorem map_subrelations (φ : R →+* S) (p : Wire → R) (rp : RelationParameters R) (domainSep : R) :
    (subrelations p rp domainSep).map φ =
      subrelations (fun wire => φ (p wire)) (rp.map φ) (φ domainSep) := by
  simp only [subrelations, accumulateArithmeticRelation, accumulatePermutationRelation,
    accumulateLogDerivativeLookupRelation, accumulateDeltaRangeRelation,
    accumulateEllipticRelation, accumulateAuxiliaryRelation, accumulatePoseidonExternalRelation,
    accumulatePoseidonInternalRelation, RelationParameters.map, List.map_append, List.map_cons,
    List.map_nil, map_add, map_sub, map_mul, map_pow, map_natCast]

theorem map_scaleAndBatchSubrelations (φ : R →+* S) (evaluations : List R)
    (challenges : Fin NUMBER_OF_ALPHAS → R) :
    φ (scaleAndBatchSubrelations evaluations challenges) =
      scaleAndBatchSubrelations (evaluations.map φ) fun i => φ (challenges i) := by
  have fold (terms : List (R × R)) (start : R) :
      φ (terms.foldl (fun accumulator term => accumulator + term.1 * term.2) start) =
        (terms.map (Prod.map φ φ)).foldl (fun accumulator term => accumulator + term.1 * term.2)
          (φ start) := by
    induction terms generalizing start with
    | nil => rfl
    | cons term terms ih =>
        rw [List.foldl_cons, ih, List.map_cons, List.foldl_cons, map_add, map_mul]
        rfl
  have head : φ (evaluations.headD 0) = (evaluations.map φ).headD 0 := by
    cases evaluations with
    | nil => exact map_zero φ
    | cons first rest => rfl
  rw [scaleAndBatchSubrelations, fold, head, scaleAndBatchSubrelations, ← List.zip_map,
    List.map_tail, List.map_ofFn]
  rfl

/-- The relations commute with a change of ring. -/
theorem map_accumulateRelationEvaluations (φ : R →+* S) (p : Wire → R) (rp : RelationParameters R)
    (alphas : Fin NUMBER_OF_ALPHAS → R) (powPartialEval : R) :
    φ (accumulateRelationEvaluations p rp alphas powPartialEval) =
      accumulateRelationEvaluations (fun wire => φ (p wire)) (rp.map φ) (fun i => φ (alphas i))
        (φ powPartialEval) := by
  rw [accumulateRelationEvaluations, map_scaleAndBatchSubrelations, map_subrelations]
  rfl

end Homomorphism

section Degree

open Polynomial

/-- A notion of degree: bounds that follow the operations of a ring. -/
structure DegreeBound {S : Type*} [CommRing S] (Bound : Nat → S → Prop) : Prop where
  add : ∀ {m n x y}, Bound m x → Bound n y → Bound (max m n) (x + y)
  sub : ∀ {m n x y}, Bound m x → Bound n y → Bound (max m n) (x - y)
  mul : ∀ {m n x y}, Bound m x → Bound n y → Bound (m + n) (x * y)
  pow : ∀ {m x} (n : Nat), Bound m x → Bound (n * m) (x ^ n)
  natCast : ∀ n : Nat, Bound 0 (n : S)

/-- In entities of degree one the subrelations have degree seven at most: five for an
S-box, one for its selector and one for the gate separator. -/
theorem DegreeBound.subrelations {S : Type*} [CommRing S] {Bound : Nat → S → Prop}
    (degree : DegreeBound Bound) {p : Wire → S} {rp : RelationParameters S} {domainSep : S}
    (entity : ∀ wire, Bound 1 (p wire)) (eta : Bound 0 rp.eta) (etaTwo : Bound 0 rp.etaTwo)
    (etaThree : Bound 0 rp.etaThree) (beta : Bound 0 rp.beta) (gamma : Bound 0 rp.gamma)
    (delta : Bound 0 rp.publicInputsDelta) (separator : Bound 1 domainSep) :
    ∀ e ∈ subrelations p rp domainSep, ∃ d ≤ 7, Bound d e := by
  have widen {e : S} {d : Nat} (bound : Bound d e) (small : d ≤ 7) : ∃ d ≤ 7, Bound d e :=
    ⟨d, small, bound⟩
  simp only [Verifier.subrelations, accumulateArithmeticRelation, accumulatePermutationRelation,
    accumulateLogDerivativeLookupRelation, accumulateDeltaRangeRelation,
    accumulateEllipticRelation, accumulateAuxiliaryRelation, accumulatePoseidonExternalRelation,
    accumulatePoseidonInternalRelation, List.map_cons, List.map_nil, List.cons_append,
    List.nil_append, List.forall_mem_cons]
  repeat' apply And.intro
  rotate_right
  · simp
  all_goals
    apply widen
    · -- the bound follows the expression
      with_reducible repeat first
        | exact entity _
        | exact separator
        | assumption
        | exact degree.natCast _
        | apply degree.mul
        | apply degree.add
        | apply degree.sub
        | apply degree.pow
    · decide

theorem DegreeBound.accumulateRelationEvaluations {S : Type*} [CommRing S]
    {Bound : Nat → S → Prop} (degree : DegreeBound Bound) {p : Wire → S}
    {rp : RelationParameters S} {alphas : Fin NUMBER_OF_ALPHAS → S} {domainSep : S}
    (entity : ∀ wire, Bound 1 (p wire)) (eta : Bound 0 rp.eta) (etaTwo : Bound 0 rp.etaTwo)
    (etaThree : Bound 0 rp.etaThree) (beta : Bound 0 rp.beta) (gamma : Bound 0 rp.gamma)
    (delta : Bound 0 rp.publicInputsDelta) (alpha : ∀ i, Bound 0 (alphas i))
    (separator : Bound 1 domainSep) :
    ∃ d ≤ 7, Bound d (accumulateRelationEvaluations p rp alphas domainSep) := by
  have each := degree.subrelations entity eta etaTwo etaThree beta gamma delta separator
  have fold (terms : List (S × S)) (start : S) (first : ∃ d ≤ 7, Bound d start)
      (all : ∀ term ∈ terms, (∃ d ≤ 7, Bound d term.1) ∧ Bound 0 term.2) :
      ∃ d ≤ 7, Bound d
        (terms.foldl (fun accumulator term => accumulator + term.1 * term.2) start) := by
    induction terms generalizing start with
    | nil => exact first
    | cons term terms ih =>
        rw [List.forall_mem_cons] at all
        rcases all with ⟨⟨⟨d, small, bound⟩, factor⟩, all⟩
        rcases first with ⟨d', small', bound'⟩
        exact ih _ ⟨max d' d, max_le small' small, degree.add bound' (degree.mul bound factor)⟩ all
  apply fold
  · intro term mem
    constructor
    · exact each _ (List.mem_of_mem_tail (List.of_mem_zip mem).1)
    · rcases List.mem_ofFn.mp (List.of_mem_zip mem).2 with ⟨i, i_eq⟩
      rw [← i_eq]
      exact alpha i
  · exact each _ List.mem_cons_self

theorem degreeBound_natDegree {R : Type*} [CommRing R] :
    DegreeBound fun d (q : R[X]) => q.natDegree ≤ d where
  add := natDegree_add_le_of_le
  sub := natDegree_sub_le_of_le
  mul := natDegree_mul_le_of_le
  pow := natDegree_pow_le_of_le
  natCast n := (natDegree_natCast n).le

end Degree

end Solva.Verifier
