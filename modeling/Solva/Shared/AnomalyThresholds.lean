import Mathlib.Tactic.FieldSimp
import Solva.Shared.Anomaly

/-!
# The thresholds of the detection

A percentage is computed by a division of integers that rounds towards zero, and then
turned into a number. Neither step moves it across a threshold that is a whole number
of percents, as long as the threshold's hundredths are exact numbers.
-/

namespace Solva.Shared

open Sdk

/-! ## The rounded quotient -/

/-- The change in hundredths of a percent, as `percentChange` computes it. -/
def scaledChange (prev curr : Int) : Int :=
  ((curr - prev) * 10000).tdiv prev

section Quotient

variable {prev curr : Int} (prev_pos : 0 < prev)

include prev_pos

/-- A rise reaches a whole percentage when its rounded quotient does. -/
theorem le_scaledChange_iff {percent : Int} (pos : 0 < percent) :
    100 * percent ≤ scaledChange prev curr ↔ percent * prev ≤ 100 * (curr - prev) := by
  rw [scaledChange]
  by_cases rise : prev ≤ curr
  · rw [Int.tdiv_eq_ediv_of_nonneg (by omega), Int.le_ediv_iff_mul_le prev_pos, Int.mul_assoc]
    omega
  · have fall : (curr - prev) * 10000 = -((prev - curr) * 10000) := by ring
    have quotient : 0 ≤ (prev - curr) * 10000 / prev :=
      Int.ediv_nonneg (by omega) prev_pos.le
    have product : 0 < percent * prev := Int.mul_pos pos prev_pos
    rw [fall, Int.neg_tdiv, Int.tdiv_eq_ediv_of_nonneg (by omega)]
    omega

/-- A fall reaches a whole percentage when its rounded quotient does. -/
theorem scaledChange_le_iff {percent : Int} (pos : 0 < percent) :
    scaledChange prev curr ≤ -(100 * percent) ↔ percent * prev ≤ 100 * (prev - curr) := by
  rw [scaledChange]
  by_cases fall : curr ≤ prev
  · have negated : (curr - prev) * 10000 = -((prev - curr) * 10000) := by ring
    rw [negated, Int.neg_tdiv, Int.tdiv_eq_ediv_of_nonneg (by omega), neg_le_neg_iff,
      Int.le_ediv_iff_mul_le prev_pos, Int.mul_assoc]
    omega
  · have quotient : 0 ≤ (curr - prev) * 10000 / prev :=
      Int.ediv_nonneg (by omega) prev_pos.le
    have product : 0 < percent * prev := Int.mul_pos pos prev_pos
    rw [Int.tdiv_eq_ediv_of_nonneg (by omega)]
    omega

/-- A total that stays positive does not fall by more than all of it. -/
theorem neg_le_scaledChange (curr_pos : 0 < curr) : -10000 ≤ scaledChange prev curr := by
  by_contra below
  have reached : scaledChange prev curr ≤ -(100 * 100) := by omega
  rw [scaledChange_le_iff prev_pos (by decide)] at reached
  omega

end Quotient

/-! ## The number of percents -/

theorem percentChange_eq {prev curr : Int} (prev_pos : 0 < prev) :
    (percentChange prev curr : Number) = Number.div (Number.ofInt (scaledChange prev curr))
      (.finite 100) := by
  have hundred : Number.ofInt 100 = .finite 100 := by decide +kernel
  rw [percentChange, if_neg (by omega), ← hundred]
  rfl

theorem le_div_hundred (percent : ℚ) (x : Number) :
    Number.le (.finite percent) (Number.div x (.finite 100)) =
      Number.le (.finite (100 * percent)) x := by
  cases x with
  | finite a =>
      have hundred : (100 : ℚ) ≠ 0 := by norm_num
      rw [Number.div, if_neg hundred, Number.le, Number.le]
      congr 1
      rw [le_div_iff₀ (by norm_num), mul_comm]
  | infinity => rfl
  | negInfinity => rfl
  | nan => rfl

/-- A rise is compared exactly, up to thresholds whose hundredths are doubles. -/
theorem le_percentChange_iff {prev curr : Int} (prev_pos : 0 < prev) {percent : Nat}
    (pos : 0 < percent) (exact : 100 * percent ≤ 2 ^ 53) :
    Number.le (.finite percent) (percentChange prev curr) = true ↔
      percent * prev ≤ 100 * (curr - prev) := by
  have cast : (100 * (percent : ℚ)) = ((100 * (percent : Int) : Int) : ℚ) := by push_cast; rfl
  rw [percentChange_eq prev_pos, le_div_hundred, cast, Number.le_ofInt_iff (by omega) (by omega),
    le_scaledChange_iff prev_pos (by omega)]

/-- A fall is a number of percents exactly. -/
theorem percentChange_of_le {prev curr : Int} (prev_pos : 0 < prev) (curr_pos : 0 < curr)
    (fall : scaledChange prev curr ≤ 0) :
    (percentChange prev curr : Number) = .finite ((scaledChange prev curr : ℚ) / 100) := by
  have bounded := neg_le_scaledChange prev_pos curr_pos
  have hundred : (100 : ℚ) ≠ 0 := by norm_num
  rw [percentChange_eq prev_pos, Number.ofInt_of_lt (by omega), Number.div, if_neg hundred]

/-- A fall is compared exactly, whatever the threshold. -/
theorem percentChange_le_iff {prev curr : Int} (prev_pos : 0 < prev) (curr_pos : 0 < curr)
    {percent : Nat} (pos : 0 < percent) :
    Number.le (percentChange prev curr) (.finite (-percent)) = true ↔
      percent * prev ≤ 100 * (prev - curr) := by
  rw [← scaledChange_le_iff prev_pos (by omega)]
  by_cases fall : scaledChange prev curr ≤ 0
  · rw [percentChange_of_le prev_pos curr_pos fall, Number.le, decide_eq_true_iff,
      div_le_iff₀ (by norm_num)]
    constructor
    · intro reached
      have integral :
          ((scaledChange prev curr : Int) : ℚ) ≤ ((-(100 * (percent : Int)) : Int) : ℚ) := by
        push_cast
        linarith
      exact_mod_cast integral
    · intro reached
      have integral :
          ((scaledChange prev curr : Int) : ℚ) ≤ ((-(100 * (percent : Int)) : Int) : ℚ) := by
        exact_mod_cast reached
      push_cast at integral
      linarith
  · have rise : ¬ scaledChange prev curr ≤ -(100 * (percent : Int)) := by omega
    have nonneg :
        Number.le (.finite ((0 : Int) : ℚ)) (Number.ofInt (scaledChange prev curr)) = true :=
      (Number.le_ofInt_iff le_rfl (by decide)).mpr (by omega)
    have percent_pos : (0 : ℚ) < percent := by exact_mod_cast pos
    simp only [rise, iff_false, Bool.not_eq_true]
    rw [percentChange_eq prev_pos]
    generalize Number.ofInt (scaledChange prev curr) = change at nonneg
    cases change with
    | finite a =>
        have hundred : (100 : ℚ) ≠ 0 := by norm_num
        simp only [Number.le, decide_eq_true_eq, Int.cast_zero] at nonneg
        rw [Number.div, if_neg hundred, Number.le, decide_eq_false_iff_not, not_le]
        have quotient : 0 ≤ a / 100 := div_nonneg nonneg (by norm_num)
        linarith
    | infinity => rfl
    | negInfinity => cases nonneg
    | nan => cases nonneg

/-- The magnitude of a fall reaches what the fall goes below. -/
theorem le_abs_percentChange {prev curr : Int} (prev_pos : 0 < prev) (curr_pos : 0 < curr)
    (fall : scaledChange prev curr ≤ 0) (percent : ℚ) :
    Number.le (.finite percent) (Number.abs (percentChange prev curr)) =
      Number.le (percentChange prev curr) (.finite (-percent)) := by
  have nonpos : (scaledChange prev curr : ℚ) / 100 ≤ 0 :=
    div_nonpos_of_nonpos_of_nonneg (by exact_mod_cast fall) (by norm_num)
  rw [percentChange_of_le prev_pos curr_pos fall, Number.abs, abs_of_nonpos nonpos, Number.le,
    Number.le]
  congr 1
  rw [le_neg]

/-! ## The flags -/

/-- The totals as integers. -/
def Proof.reserves (p : Proof) : Int :=
  (bigInt p.reservesTotal).getD 0

def Proof.liabilities (p : Proof) : Int :=
  (bigInt p.liabilitiesTotal).getD 0

theorem Proof.Reads.reserves_eq_cast {p : Proof} {reserves liabilities : Nat}
    (reads : p.Reads reserves liabilities) : p.reserves = reserves := by
  rw [Proof.reserves, reads.reserves_eq, Option.getD_some]

theorem Proof.Reads.liabilities_eq_cast {p : Proof} {reserves liabilities : Nat}
    (reads : p.Reads reserves liabilities) : p.liabilities = liabilities := by
  rw [Proof.liabilities, reads.liabilities_eq, Option.getD_some]

/-- The seconds between two proofs. -/
def gapOf (prev curr : Proof) : Number :=
  .finite (((curr.publishedAt.val : Int) - (prev.publishedAt.val : Int) : Int) : ℚ)

/-- Whole seconds below `2^53` are subtracted exactly. -/
theorem cycleTimingGap_eq (prev curr : Proof) :
    (cycleTimingGap prev curr : Number) = gapOf prev curr := by
  have prev_lt := prev.publishedAt.isLt
  have curr_lt := curr.publishedAt.isLt
  rw [cycleTimingGap, Number.jsNumbers_ofInt, Number.ofInt_of_lt (by omega), gapOf]

/-- The flags that the thresholds call for, decided over the integers. -/
def expectedPair (t u : Nat) (gapThreshold : Number) (prev curr : Proof) :
    List (AnomalyKind × AnomalySeverity × String) :=
  (if t * prev.reserves ≤ 100 * (prev.reserves - curr.reserves) then
    [(.reserveDrift,
      if 2 * t * prev.reserves ≤ 100 * (prev.reserves - curr.reserves) then .critical else .warning,
      curr.id)]
  else []) ++
  (if u * prev.liabilities ≤ 100 * (curr.liabilities - prev.liabilities) then
    [(.liabilitySpike,
      if 2 * u * prev.liabilities ≤ 100 * (curr.liabilities - prev.liabilities) then .critical
      else .warning, curr.id)]
  else []) ++
  (if Number.lt gapThreshold (gapOf prev curr) then
    [(.cycleTimingGap, severityFor (gapOf prev curr) gapThreshold, curr.id)]
  else [])

def expectedFlags (t u : Nat) (gapThreshold : Number) :
    List Proof → List (AnomalyKind × AnomalySeverity × String)
  | prev :: curr :: rest =>
      expectedPair t u gapThreshold prev curr ++ expectedFlags t u gapThreshold (curr :: rest)
  | _ => []

/-- What a flag says of which proof. -/
def AnomalyFlag.decision {ν : Type} (flag : AnomalyFlag ν) :
    AnomalyKind × AnomalySeverity × String :=
  (flag.kind, flag.severity, flag.proofId)

/-- Twice a whole number of percents. -/
theorem mul_two (percent : Nat) :
    JsNumbers.mul (Number.finite percent) (JsNumbers.ofInt 2) =
      Number.finite ((2 * percent : Nat) : ℚ) := by
  have two : Number.ofInt 2 = .finite 2 := by decide +kernel
  show Number.mul (.finite percent) (Number.ofInt 2) = _
  rw [two, Number.mul]
  push_cast
  rw [mul_comm]

/-- The severity of a magnitude that reached its threshold. -/
theorem severityFor_of_le {magnitude : Number} {percent : Nat}
    (reached : Number.le (.finite percent) magnitude = true) :
    severityFor magnitude (.finite percent) =
      if Number.le (.finite ((2 * percent : Nat) : ℚ)) magnitude then .critical else .warning := by
  have warned : JsNumbers.le (.finite percent) magnitude = true := reached
  rw [severityFor, mul_two, if_pos warned]
  rfl

section Flags

variable [NumberText Number] {t u : Nat} {gapThreshold : Number} {prev curr : Proof}

theorem driftFlag_decision {prevTotal currTotal : Int} (prev_pos : 0 < prevTotal)
    (curr_pos : 0 < currTotal) (t_pos : 0 < t) :
    (driftFlag ⟨.finite t, .finite u, gapThreshold⟩ curr
        (percentChange prevTotal currTotal)).map AnomalyFlag.decision =
      if t * prevTotal ≤ 100 * (prevTotal - currTotal) then
        [(.reserveDrift,
          if 2 * t * prevTotal ≤ 100 * (prevTotal - currTotal) then .critical else .warning,
          curr.id)]
      else [] := by
  have flagged := percentChange_le_iff prev_pos curr_pos t_pos
  have doubled : Number.le (percentChange prevTotal currTotal) (.finite (-((2 * t : Nat) : ℚ))) =
      true ↔ ((2 * t : Nat) : Int) * prevTotal ≤ 100 * (prevTotal - currTotal) :=
    percentChange_le_iff prev_pos curr_pos (by omega)
  have test : JsNumbers.le (percentChange prevTotal currTotal : Number)
      (JsNumbers.neg (Number.finite t)) =
        Number.le (percentChange prevTotal currTotal) (.finite (-t)) := rfl
  unfold driftFlag
  dsimp only
  rw [test]
  by_cases reached : t * prevTotal ≤ 100 * (prevTotal - currTotal)
  · rw [if_pos (flagged.mpr reached), if_pos reached]
    have fall : scaledChange prevTotal currTotal ≤ 0 := by
      have below := (scaledChange_le_iff prev_pos (by omega)).mpr reached
      omega
    have magnitude := le_abs_percentChange prev_pos curr_pos fall
    have warned :
        Number.le (.finite t) (Number.abs (percentChange prevTotal currTotal)) = true := by
      rw [magnitude]
      exact flagged.mpr reached
    have severity := severityFor_of_le warned
    rw [magnitude] at severity
    rw [List.map_singleton, AnomalyFlag.decision]
    dsimp only
    refine congrArg (fun severity => [(AnomalyKind.reserveDrift, severity, curr.id)])
      (severity.trans ?_)
    push_cast at doubled ⊢
    simp only [doubled]
  · rw [if_neg fun le => reached (flagged.mp le), if_neg reached]
    rfl

/-- A view of decisions for which a spike's threshold is exact: it sees no severity of a
spike, or the doubled threshold is exact, too. -/
def ExactFor {β : Type} (u : Nat) (view : AnomalyKind × AnomalySeverity × String → β) : Prop :=
  100 * u ≤ 2 ^ 53 ∧
    (200 * u ≤ 2 ^ 53 ∨
      ∀ severity severity' id, view (.liabilitySpike, severity, id) =
        view (.liabilitySpike, severity', id))

variable {β : Type} {view : AnomalyKind × AnomalySeverity × String → β}

theorem spikeFlag_decision {prevTotal currTotal : Int} (prev_pos : 0 < prevTotal)
    (u_pos : 0 < u) (exact : ExactFor u view) :
    ((spikeFlag ⟨.finite t, .finite u, gapThreshold⟩ curr
        (percentChange prevTotal currTotal)).map AnomalyFlag.decision).map view =
      (if u * prevTotal ≤ 100 * (currTotal - prevTotal) then
        [(.liabilitySpike,
          if 2 * u * prevTotal ≤ 100 * (currTotal - prevTotal) then .critical else .warning,
          curr.id)]
      else []).map view := by
  have flagged : Number.le (.finite u) (percentChange prevTotal currTotal) = true ↔
      u * prevTotal ≤ 100 * (currTotal - prevTotal) :=
    le_percentChange_iff prev_pos u_pos exact.1
  have test : JsNumbers.le (Number.finite u) (percentChange prevTotal currTotal) =
      Number.le (.finite u) (percentChange prevTotal currTotal) := rfl
  unfold spikeFlag
  dsimp only
  rw [test]
  by_cases reached : u * prevTotal ≤ 100 * (currTotal - prevTotal)
  · rw [if_pos (flagged.mpr reached), if_pos reached, List.map_singleton, List.map_singleton,
      List.map_singleton, AnomalyFlag.decision]
    dsimp only
    rw [severityFor_of_le (flagged.mpr reached)]
    rcases exact.2 with bounded | blind
    · have doubled : Number.le (.finite ((2 * u : Nat) : ℚ))
          (percentChange prevTotal currTotal) = true ↔
            ((2 * u : Nat) : Int) * prevTotal ≤ 100 * (currTotal - prevTotal) :=
        le_percentChange_iff prev_pos (by omega) (by omega)
      push_cast at doubled ⊢
      simp only [doubled]
    · rw [blind]
  · rw [if_neg fun le => reached (flagged.mp le), if_neg reached]
    rfl

theorem gapFlag_decision {thresholds : AnomalyThresholds Number} (prev curr : Proof) :
    (gapFlag thresholds curr (cycleTimingGap prev curr)).map AnomalyFlag.decision =
      if Number.lt thresholds.cycleTimingGapSec (gapOf prev curr) then
        [(.cycleTimingGap, severityFor (gapOf prev curr) thresholds.cycleTimingGapSec, curr.id)]
      else [] := by
  have test : JsNumbers.lt thresholds.cycleTimingGapSec (gapOf prev curr) =
      Number.lt thresholds.cycleTimingGapSec (gapOf prev curr) := rfl
  rw [gapFlag, cycleTimingGap_eq, test]
  split
  · rfl
  · rfl

/-- A round of the loop flags what the integers call for. -/
theorem pairFlags_decision {prevReserves prevLiabilities currReserves currLiabilities : Nat}
    (prev_reads : prev.Reads prevReserves prevLiabilities)
    (curr_reads : curr.Reads currReserves currLiabilities) (reserves_pos : 0 < prevReserves)
    (curr_pos : 0 < currReserves) (liabilities_pos : 0 < prevLiabilities) (t_pos : 0 < t)
    (u_pos : 0 < u) (exact : ExactFor u view) :
    ∃ flags, pairFlags ⟨.finite t, .finite u, gapThreshold⟩ prev curr = some flags ∧
      (flags.map AnomalyFlag.decision).map view =
        (expectedPair t u gapThreshold prev curr).map view := by
  refine ⟨_, pairFlags_eq _ prev_reads curr_reads, ?_⟩
  rw [List.map_append, List.map_append, List.map_append, List.map_append, gapFlag_decision,
    driftFlag_decision (by omega) (by omega) t_pos, spikeFlag_decision (by omega) u_pos exact,
    expectedPair, List.map_append, List.map_append, prev_reads.reserves_eq_cast,
    curr_reads.reserves_eq_cast, prev_reads.liabilities_eq_cast, curr_reads.liabilities_eq_cast]

/-- So does the whole loop. -/
theorem scan_decision {proofs : List Proof}
    (positive : ∀ p ∈ proofs, ∃ reserves liabilities, p.Reads reserves liabilities ∧
      0 < reserves ∧ 0 < liabilities)
    (t_pos : 0 < t) (u_pos : 0 < u) (exact : ExactFor u view) :
    ∃ flags, scan ⟨.finite t, .finite u, gapThreshold⟩ proofs = some flags ∧
      (flags.map AnomalyFlag.decision).map view =
        (expectedFlags t u gapThreshold proofs).map view := by
  induction proofs with
  | nil => exact ⟨[], rfl, rfl⟩
  | cons prev rest ih =>
      cases rest with
      | nil => exact ⟨[], rfl, rfl⟩
      | cons curr rest =>
          rcases ih fun p mem => positive p (List.mem_cons_of_mem _ mem) with
            ⟨more, scanned, rest_eq⟩
          rcases positive prev List.mem_cons_self with
            ⟨_, _, prev_reads, reserves_pos, liabilities_pos⟩
          rcases positive curr (List.mem_cons_of_mem _ List.mem_cons_self) with
            ⟨_, _, curr_reads, curr_pos, _⟩
          rcases pairFlags_decision prev_reads curr_reads reserves_pos curr_pos liabilities_pos
            t_pos u_pos exact with ⟨flags, paired, flags_eq⟩
          refine ⟨flags ++ more, ?_, ?_⟩
          · rw [scan, paired, scanned]
            rfl
          · rw [List.map_append, List.map_append, flags_eq, rest_eq, expectedFlags,
              List.map_append]

/-- A decision without the severity of a spike. -/
def presence (decision : AnomalyKind × AnomalySeverity × String) :
    AnomalyKind × Option AnomalySeverity × String :=
  (decision.1, if decision.1 = .liabilitySpike then none else some decision.2.1, decision.2.2)

/-- On a history in the order of time with positive totals the flags are those that
the integers call for, for thresholds whose hundredths are exact numbers; so is the
severity of a spike where the doubled hundredths are. -/
theorem detectAnomalies_exact (t u : Nat) (gapThreshold : Number) {proofs : List Proof}
    (sorted : proofs.Pairwise fun p q => p.publishedAt < q.publishedAt)
    (positive : ∀ p ∈ proofs, ∃ reserves liabilities, p.Reads reserves liabilities ∧
      0 < reserves ∧ 0 < liabilities)
    (t_pos : 0 < t) (u_pos : 0 < u) (exact : 100 * u ≤ 2 ^ 53) :
    ∃ flags, detectAnomalies proofs ⟨.finite t, .finite u, gapThreshold⟩ = some flags ∧
      (flags.map AnomalyFlag.decision).map presence =
        (expectedFlags t u gapThreshold proofs).map presence ∧
      (200 * u ≤ 2 ^ 53 →
        flags.map AnomalyFlag.decision = expectedFlags t u gapThreshold proofs) := by
  have ordered : proofs.Pairwise fun p q => publishedBefore p q = true :=
    sorted.imp fun earlier => decide_eq_true earlier.le
  have blind : ExactFor u presence := ⟨exact, .inr fun _ _ _ => rfl⟩
  rw [detectAnomalies_of_sorted _ ordered]
  rcases scan_decision positive t_pos u_pos blind with ⟨flags, scanned, present⟩
  refine ⟨flags, scanned, present, fun bounded => ?_⟩
  have sighted : ExactFor u (id : AnomalyKind × AnomalySeverity × String → _) :=
    ⟨exact, .inl bounded⟩
  rcases scan_decision positive t_pos u_pos sighted with ⟨flags', scanned', decided⟩
  cases Option.some.inj (scanned.symm.trans scanned')
  rwa [List.map_id, List.map_id] at decided

end Flags

/-- A fall of a tenth, and then a rise of liabilities to the double. -/
def sampleCycles : List Proof :=
  [⟨"1", "100", "50", 0⟩, ⟨"2", "90", "50", 60⟩, ⟨"3", "90", "100", 120⟩]

theorem detectAnomalies_exact_sample :
    ∃ flags, detectAnomalies sampleCycles (⟨.finite (10 : Nat), .finite (15 : Nat), .finite 3600⟩ :
        AnomalyThresholds Number) = some flags ∧
      flags.map AnomalyFlag.decision = expectedFlags 10 15 (.finite 3600) sampleCycles := by
  have positive : ∀ p ∈ sampleCycles, ∃ reserves liabilities, p.Reads reserves liabilities ∧
      0 < reserves ∧ 0 < liabilities := by
    simp only [sampleCycles, List.forall_mem_cons]
    exact ⟨⟨100, 50, ⟨by decide +kernel, by decide +kernel⟩, by decide, by decide⟩,
      ⟨90, 50, ⟨by decide +kernel, by decide +kernel⟩, by decide, by decide⟩,
      ⟨90, 100, ⟨by decide +kernel, by decide +kernel⟩, by decide, by decide⟩, by simp⟩
  rcases detectAnomalies_exact 10 15 (.finite 3600) (by decide : sampleCycles.Pairwise _) positive
    (by decide) (by decide) (by decide) with ⟨flags, detected, _, decisions⟩
  exact ⟨flags, detected, decisions (by decide)⟩

/-- One hundredth short of a threshold of `2^60` percent, which the number of the
quotient reaches. -/
def giantCycles : List Proof :=
  [⟨"1", "1", "10000", 0⟩, ⟨"2", "1", "115292150460684707599", 60⟩]

theorem detectAnomalies_inexact :
    ¬ ∀ (proofs : List Proof) (t u : Nat) (gapThreshold : Number),
      proofs.Pairwise (fun p q => p.publishedAt < q.publishedAt) →
      (∀ p ∈ proofs, ∃ reserves liabilities, p.Reads reserves liabilities ∧
        0 < reserves ∧ 0 < liabilities) → 0 < t → 0 < u →
      ∃ flags, detectAnomalies proofs ⟨.finite t, .finite u, gapThreshold⟩ = some flags ∧
        flags.map AnomalyFlag.decision = expectedFlags t u gapThreshold proofs := by
  intro exact
  have positive : ∀ p ∈ giantCycles, ∃ reserves liabilities, p.Reads reserves liabilities ∧
      0 < reserves ∧ 0 < liabilities := by
    simp only [giantCycles, List.forall_mem_cons]
    exact ⟨⟨1, 10000, ⟨by decide +kernel, by decide +kernel⟩, by decide, by decide⟩,
      ⟨1, 115292150460684707599, ⟨by decide +kernel, by decide +kernel⟩, by decide, by decide⟩,
      by simp⟩
  rcases exact giantCycles 10 (2 ^ 60) (.finite 3600) (by decide) positive (by decide)
    (by decide) with ⟨flags, detected, decisions⟩
  have found : (detectAnomalies giantCycles (⟨.finite (10 : Nat), .finite ((2 ^ 60 : Nat) : ℚ),
      .finite 3600⟩ : AnomalyThresholds Number)).map (List.map AnomalyFlag.decision) =
        some [(.liabilitySpike, .warning, "2")] := by
    rw [detectAnomalies_of_sorted _ (by decide)]
    decide +kernel
  rw [detected, Option.map_some, decisions] at found
  revert found
  decide +kernel

end Solva.Shared
