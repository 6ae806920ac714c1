import Mathlib.Data.List.Sort
import Solva.Sdk.BigInt
import Solva.Shared.Number

/-!
# Anomalies across a proof history

`detectAnomalies` sorts a history by time and compares each proof with the one before
it. The sort keeps proofs of one second in the order they were listed in, so the pairs
that are compared are those of the set exactly when no second has two proofs.
-/

namespace Solva.Shared

open Sdk

/-! ## Types -/

inductive AnomalyKind where
  | reserveDrift
  | liabilitySpike
  | cycleTimingGap
  deriving DecidableEq

inductive AnomalySeverity where
  | info
  | warning
  | critical
  deriving DecidableEq

/-- Unix epoch seconds that a number holds exactly. -/
abbrev Seconds : Type :=
  Fin (2 ^ 53)

instance neZeroSeconds : NeZero (2 ^ 53) :=
  ⟨by decide⟩

/-- A published proof, as far as its history is looked at. -/
structure Proof where
  id : String
  reservesTotal : String
  liabilitiesTotal : String
  publishedAt : Seconds
  deriving DecidableEq

structure AnomalyFlag (ν : Type) where
  kind : AnomalyKind
  severity : AnomalySeverity
  proofId : String
  value : ν
  threshold : ν
  message : String
  detectedAt : Seconds

structure AnomalyThresholds (ν : Type) where
  reserveDriftPct : ν
  liabilitySpikePct : ν
  cycleTimingGapSec : ν

/-! ## Detection -/

section Detection

variable {ν : Type} [JsNumbers ν] [NumberText ν]

open JsNumbers NumberText

/-- `percentChange`. The division of integers rounds towards zero. -/
def percentChange (prev curr : Int) : ν :=
  if prev = 0 then if curr = 0 then ofInt 0 else infinity
  else
    let delta := curr - prev
    let scaled := (delta * 10000).tdiv prev
    div (ofInt scaled) (ofInt 100)

/-- `reserveDrift`; a total that is no integer throws. -/
def reserveDrift (prev curr : Proof) : Option ν := do
  pure (percentChange (← bigInt prev.reservesTotal) (← bigInt curr.reservesTotal))

/-- `liabilitySpike`. -/
def liabilitySpike (prev curr : Proof) : Option ν := do
  pure (percentChange (← bigInt prev.liabilitiesTotal) (← bigInt curr.liabilitiesTotal))

/-- `cycleTimingGap`. -/
def cycleTimingGap (prev curr : Proof) : ν :=
  ofInt ((curr.publishedAt.val : Int) - (prev.publishedAt.val : Int))

/-- `severityFor`. -/
def severityFor (magnitude threshold : ν) : AnomalySeverity :=
  if le (mul threshold (ofInt 2)) magnitude then .critical
  else if le threshold magnitude then .warning
  else .info

/-- The flag of a drift, where there is one. -/
def driftFlag (thresholds : AnomalyThresholds ν) (curr : Proof) (drift : ν) :
    List (AnomalyFlag ν) :=
  if le drift (neg thresholds.reserveDriftPct) then
    [{ kind := .reserveDrift
       severity := severityFor (abs drift) thresholds.reserveDriftPct
       proofId := curr.id
       value := drift
       threshold := neg thresholds.reserveDriftPct
       message := "Reserves fell " ++ toFixed2 (abs drift) ++ "% from the previous cycle."
       detectedAt := curr.publishedAt }]
  else []

/-- The flag of a spike. -/
def spikeFlag (thresholds : AnomalyThresholds ν) (curr : Proof) (spike : ν) :
    List (AnomalyFlag ν) :=
  if le thresholds.liabilitySpikePct spike then
    [{ kind := .liabilitySpike
       severity := severityFor spike thresholds.liabilitySpikePct
       proofId := curr.id
       value := spike
       threshold := thresholds.liabilitySpikePct
       message := "Liabilities rose " ++ toFixed2 spike ++ "% from the previous cycle."
       detectedAt := curr.publishedAt }]
  else []

/-- The flag of a gap. -/
def gapFlag (thresholds : AnomalyThresholds ν) (curr : Proof) (gap : ν) :
    List (AnomalyFlag ν) :=
  if lt thresholds.cycleTimingGapSec gap then
    [{ kind := .cycleTimingGap
       severity := severityFor gap thresholds.cycleTimingGapSec
       proofId := curr.id
       value := gap
       threshold := thresholds.cycleTimingGapSec
       message := "Cycle arrived " ++ print gap ++
         "s after the previous one, past the expected window."
       detectedAt := curr.publishedAt }]
  else []

/-- One round of the loop. -/
def pairFlags (thresholds : AnomalyThresholds ν) (prev curr : Proof) :
    Option (List (AnomalyFlag ν)) := do
  let drift ← reserveDrift prev curr
  let spike ← liabilitySpike prev curr
  pure (driftFlag thresholds curr drift ++ spikeFlag thresholds curr spike ++
    gapFlag thresholds curr (cycleTimingGap prev curr))

/-- The loop over the ordered proofs. -/
def scan (thresholds : AnomalyThresholds ν) : List Proof → Option (List (AnomalyFlag ν))
  | prev :: curr :: rest => do
      let flags ← pairFlags thresholds prev curr
      let more ← scan thresholds (curr :: rest)
      pure (flags ++ more)
  | _ => some []

/-- The order of the sort; `Array.prototype.sort` is stable. -/
def publishedBefore (a b : Proof) : Bool :=
  a.publishedAt ≤ b.publishedAt

/-- `detectAnomalies`. -/
def detectAnomalies (proofs : List Proof) (thresholds : AnomalyThresholds ν) :
    Option (List (AnomalyFlag ν)) :=
  scan thresholds (proofs.mergeSort publishedBefore)

end Detection

/-! ## Sorted histories -/

theorem pairwise_ordered (proofs : List Proof) :
    (proofs.mergeSort publishedBefore).Pairwise fun a b => publishedBefore a b = true := by
  apply List.pairwise_mergeSort
  · intro a b c first second
    exact decide_eq_true (le_trans (of_decide_eq_true first) (of_decide_eq_true second))
  · intro a b
    rw [Bool.or_eq_true]
    exact (le_total a.publishedAt b.publishedAt).imp decide_eq_true decide_eq_true

/-- A listing in the order of time is scanned as it is. -/
theorem detectAnomalies_of_sorted {ν : Type} [JsNumbers ν] [NumberText ν] {proofs : List Proof}
    (thresholds : AnomalyThresholds ν)
    (sorted : proofs.Pairwise fun a b => publishedBefore a b = true) :
    detectAnomalies proofs thresholds = scan thresholds proofs := by
  rw [detectAnomalies, List.mergeSort_of_pairwise sorted]

/-- Sorting does not tell two listings apart when no two proofs share a second. -/
theorem mergeSort_eq_of_perm {proofs others : List Proof} (listed : others.Perm proofs)
    (apart : ∀ a ∈ proofs, ∀ b ∈ proofs, a.publishedAt = b.publishedAt → a = b) :
    others.mergeSort publishedBefore = proofs.mergeSort publishedBefore := by
  have perm : (others.mergeSort publishedBefore).Perm (proofs.mergeSort publishedBefore) :=
    (List.mergeSort_perm _ _).trans (listed.trans (List.mergeSort_perm _ _).symm)
  refine List.Perm.eq_of_pairwise ?_ (pairwise_ordered others) (pairwise_ordered proofs) perm
  intro a b a_mem b_mem first second
  have a_listed := listed.mem_iff.mp (List.mem_mergeSort.mp a_mem)
  exact apart a a_listed b (List.mem_mergeSort.mp b_mem)
    (le_antisymm (of_decide_eq_true first) (of_decide_eq_true second))

/-! ## Histories -/

/-- The totals of a proof are these integers. -/
structure Proof.Reads (p : Proof) (reserves liabilities : Nat) : Prop where
  reserves_eq : bigInt p.reservesTotal = some (reserves : Int)
  liabilities_eq : bigInt p.liabilitiesTotal = some (liabilities : Int)

/-- A history of published proofs: totals that are not negative, and ids that
identify the proofs. -/
structure ProofHistory where
  proofs : List Proof
  readable : ∀ p ∈ proofs, ∃ reserves liabilities, p.Reads reserves liabilities
  identified : ∀ p ∈ proofs, ∀ q ∈ proofs, p.id = q.id → p = q

/-- What two flags are compared by. -/
def AnomalyFlag.key {ν : Type} (flag : AnomalyFlag ν) :
    AnomalyKind × AnomalySeverity × String × ν :=
  (flag.kind, flag.severity, flag.proofId, flag.value)

/-- The flags do not depend on how a history is listed. -/
def OrderFree (ν : Type) [JsNumbers ν] [NumberText ν] (proofs : List Proof) : Prop :=
  ∀ (thresholds : AnomalyThresholds ν) (others : List Proof), others.Perm proofs →
    ∃ flags flags', detectAnomalies proofs thresholds = some flags ∧
      detectAnomalies others thresholds = some flags' ∧
        (flags'.map AnomalyFlag.key).Perm (flags.map AnomalyFlag.key)

section Gaps

variable {ν : Type} [JsNumbers ν]

/-- The round of the loop on totals that are integers. -/
theorem pairFlags_eq [NumberText ν] {prev curr : Proof} (thresholds : AnomalyThresholds ν)
    {prevReserves prevLiabilities currReserves currLiabilities : Nat}
    (prev_reads : prev.Reads prevReserves prevLiabilities)
    (curr_reads : curr.Reads currReserves currLiabilities) :
    pairFlags thresholds prev curr =
      some (driftFlag thresholds curr (percentChange prevReserves currReserves) ++
        spikeFlag thresholds curr (percentChange prevLiabilities currLiabilities) ++
        gapFlag thresholds curr (cycleTimingGap prev curr)) := by
  rw [pairFlags, reserveDrift, liabilitySpike, prev_reads.reserves_eq, prev_reads.liabilities_eq,
    curr_reads.reserves_eq, curr_reads.liabilities_eq]
  rfl

/-- The key of a gap's flag under a threshold that every gap exceeds. -/
def gapKey (prev curr : Proof) : AnomalyKind × AnomalySeverity × String × ν :=
  (.cycleTimingGap, severityFor (cycleTimingGap prev curr : ν) (JsNumbers.ofInt (-1)), curr.id,
    cycleTimingGap prev curr)

/-- The gap keys of the neighbours in a listing. -/
def gapKeys : List Proof → List (AnomalyKind × AnomalySeverity × String × ν)
  | prev :: curr :: rest => gapKey prev curr :: gapKeys (curr :: rest)
  | _ => []

theorem gapKeys_append (before : List Proof) (p : Proof) (rest : List Proof) :
    (gapKeys (before ++ p :: rest) : List (AnomalyKind × AnomalySeverity × String × ν)) =
      gapKeys (before ++ [p]) ++ gapKeys (p :: rest) := by
  induction before with
  | nil => rfl
  | cons first before ih =>
      cases before with
      | nil => rfl
      | cons second before =>
          rw [List.cons_append, List.cons_append, gapKeys, ← List.cons_append, ih]
          rfl

/-- Thresholds under which every pair is flagged for its gap. -/
def everyGap : AnomalyThresholds ν :=
  ⟨JsNumbers.ofInt 0, JsNumbers.ofInt 0, JsNumbers.ofInt (-1)⟩

/-- The gap flags of a sorted listing are those of its neighbours. -/
theorem scan_gapKeys [NumberText ν] [LawfulNumbers ν] {proofs : List Proof}
    (readable : ∀ p ∈ proofs, ∃ reserves liabilities, p.Reads reserves liabilities)
    (sorted : proofs.Pairwise fun a b => publishedBefore a b = true) :
    ∃ flags : List (AnomalyFlag ν), scan everyGap proofs = some flags ∧
      (flags.map AnomalyFlag.key).filter (fun key => key.1 = .cycleTimingGap) = gapKeys proofs := by
  induction proofs with
  | nil => exact ⟨[], rfl, rfl⟩
  | cons prev rest ih =>
      cases rest with
      | nil => exact ⟨[], rfl, rfl⟩
      | cons curr rest =>
          rcases List.pairwise_cons.mp sorted with ⟨first, sorted_rest⟩
          rcases ih (fun p mem => readable p (List.mem_cons_of_mem _ mem)) sorted_rest with
            ⟨more, scanned, more_keys⟩
          rcases readable prev List.mem_cons_self with ⟨_, _, prev_reads⟩
          rcases readable curr (List.mem_cons_of_mem _ List.mem_cons_self) with ⟨_, _, curr_reads⟩
          have flags_eq := pairFlags_eq (everyGap : AnomalyThresholds ν) prev_reads curr_reads
          have ordered : prev.publishedAt ≤ curr.publishedAt :=
            of_decide_eq_true (first curr List.mem_cons_self)
          refine ⟨_, by rw [scan, flags_eq, scanned]; rfl, ?_⟩
          have exceeds :
              JsNumbers.lt (JsNumbers.ofInt (-1) : ν) (cycleTimingGap prev curr) = true := by
            have natural : (curr.publishedAt.val : Int) - (prev.publishedAt.val : Int) =
                ((curr.publishedAt.val - prev.publishedAt.val : Nat) : Int) := by
              have ordered_val : prev.publishedAt.val ≤ curr.publishedAt.val := ordered
              omega
            rw [cycleTimingGap, natural]
            exact LawfulNumbers.lt_ofInt _
          have drift_none (drift : ν) : ((driftFlag everyGap curr drift).map AnomalyFlag.key).filter
              (fun key => key.1 = .cycleTimingGap) = [] := by
            unfold driftFlag
            split
            · rfl
            · rfl
          have spike_none (spike : ν) : ((spikeFlag everyGap curr spike).map AnomalyFlag.key).filter
              (fun key => key.1 = .cycleTimingGap) = [] := by
            unfold spikeFlag
            split
            · rfl
            · rfl
          have gap_one : ((gapFlag everyGap curr (cycleTimingGap prev curr : ν)).map
              AnomalyFlag.key).filter (fun key => key.1 = .cycleTimingGap) =
              [gapKey prev curr] := by
            have lawful : JsNumbers.lt (everyGap : AnomalyThresholds ν).cycleTimingGapSec
              (cycleTimingGap prev curr) = true := exceeds
            rw [gapFlag, if_pos lawful]
            rfl
          rw [List.map_append, List.map_append, List.map_append, List.filter_append,
            List.filter_append, List.filter_append, drift_none, spike_none, gap_one, more_keys]
          rfl

/-- Gaps to later proofs depend on the time of the earlier one only. -/
theorem gapKeys_congr {a b : Proof} (tied : a.publishedAt = b.publishedAt) (rest : List Proof) :
    (gapKeys (a :: rest) : List (AnomalyKind × AnomalySeverity × String × ν)) =
      gapKeys (b :: rest) := by
  cases rest with
  | nil => rfl
  | cons next rest =>
      have same : (cycleTimingGap a next : ν) = cycleTimingGap b next := by
        rw [cycleTimingGap, cycleTimingGap, tied]
      rw [gapKeys, gapKeys, gapKey, gapKey, same]

/-- Exchanging the first two proofs of a second moves a gap to another proof. -/
theorem not_perm_gapKeys [LawfulNumbers ν] {before rest : List Proof} {a b : Proof}
    (tied : a.publishedAt = b.publishedAt) (ids : a.id ≠ b.id)
    (earlier : ∀ p ∈ before, p.publishedAt < a.publishedAt) :
    ¬ (gapKeys (before ++ a :: b :: rest) :
        List (AnomalyKind × AnomalySeverity × String × ν)).Perm
      (gapKeys (before ++ b :: a :: rest)) := by
  intro perm
  rw [gapKeys_append before a, gapKeys_append before b] at perm
  have right : (gapKeys (b :: a :: rest) : List (AnomalyKind × AnomalySeverity × String × ν)) =
      [gapKey b a] ++ gapKeys (b :: rest) := by
    rw [gapKeys_congr tied.symm rest]
    rfl
  have left : (gapKeys (a :: b :: rest) : List (AnomalyKind × AnomalySeverity × String × ν)) =
      [gapKey a b] ++ gapKeys (b :: rest) := rfl
  rw [left, right, ← List.append_assoc, ← List.append_assoc, List.perm_append_right_iff] at perm
  have other : (gapKey a b : AnomalyKind × AnomalySeverity × String × ν) ≠ gapKey b a := by
    intro equal
    exact ids (congrArg (fun key => key.2.2.1) equal).symm
  rcases List.eq_nil_or_concat before with rfl | ⟨front, p, rfl⟩
  · exact other (List.mem_singleton.mp (perm.subset (List.mem_singleton.mpr rfl)))
  · have behind (q : Proof) :
        (gapKeys (front.concat p ++ [q]) : List (AnomalyKind × AnomalySeverity × String × ν)) =
          gapKeys (front ++ [p]) ++ [gapKey p q] := by
      rw [List.concat_eq_append, List.append_assoc, List.singleton_append, gapKeys_append]
      rfl
    rw [behind, behind, List.append_assoc, List.append_assoc, List.perm_append_left_iff] at perm
    have mem : (gapKey a b : AnomalyKind × AnomalySeverity × String × ν) ∈
        [gapKey p b] ++ [gapKey b a] :=
      perm.subset (List.mem_cons_of_mem _ (List.mem_singleton.mpr rfl))
    rcases List.mem_cons.mp mem with same | same
    · have p_earlier : p.publishedAt.val < a.publishedAt.val := earlier p (by simp)
      have gaps : (cycleTimingGap a b : ν) = cycleTimingGap p b :=
        congrArg (fun key => key.2.2.2) same
      have none : (b.publishedAt.val : Int) - (a.publishedAt.val : Int) = 0 := by
        rw [tied, Int.sub_self]
      have some : (b.publishedAt.val : Int) - (p.publishedAt.val : Int) =
          ((a.publishedAt.val - p.publishedAt.val : Nat) : Int) := by
        rw [← tied]
        omega
      rw [cycleTimingGap, cycleTimingGap, none, some] at gaps
      exact LawfulNumbers.ofInt_ne_zero _ (by omega) (by omega) gaps.symm
    · exact other (List.mem_singleton.mp same)

end Gaps

/-! ## The set and its listings -/

/-- A listing of a history that has two proofs of one second next to each other, as
the first ones of that second. -/
theorem exists_tied_listing {proofs : List Proof} {a b : Proof} (a_mem : a ∈ proofs)
    (b_mem : b ∈ proofs) (different : a ≠ b) (tied : a.publishedAt = b.publishedAt) :
    ∃ before rest, (before ++ a :: b :: rest).Perm proofs ∧
      (∀ p ∈ before, p.publishedAt < a.publishedAt) ∧
        (before ++ a :: b :: rest).Pairwise fun p q => publishedBefore p q = true := by
  let others := (proofs.erase a).erase b
  let before := (others.filter fun p => p.publishedAt < a.publishedAt).mergeSort publishedBefore
  let rest := (others.filter fun p => ¬ p.publishedAt < a.publishedAt).mergeSort publishedBefore
  have earlier : ∀ p ∈ before, p.publishedAt < a.publishedAt := by
    intro p mem
    exact of_decide_eq_true (List.mem_filter.mp (List.mem_mergeSort.mp mem)).2
  have later : ∀ p ∈ rest, a.publishedAt ≤ p.publishedAt := by
    intro p mem
    exact not_lt.mp (of_decide_eq_true (List.mem_filter.mp (List.mem_mergeSort.mp mem)).2)
  have removed : (a :: b :: others).Perm proofs := by
    have b_left : b ∈ proofs.erase a := (List.mem_erase_of_ne different.symm).mpr b_mem
    exact ((List.perm_cons_erase b_left).symm.cons a).trans (List.perm_cons_erase a_mem).symm
  have parts : (before ++ rest).Perm others := by
    have sorted_parts := (List.mergeSort_perm
      (others.filter fun p => p.publishedAt < a.publishedAt) publishedBefore).append
      (List.mergeSort_perm (others.filter fun p => ¬ p.publishedAt < a.publishedAt) publishedBefore)
    refine sorted_parts.trans ?_
    have complement : (fun p : Proof => decide (¬ p.publishedAt < a.publishedAt)) =
        fun p => !decide (p.publishedAt < a.publishedAt) := by
      funext p
      exact decide_not
    rw [complement]
    exact List.filter_append_perm _ others
  refine ⟨before, rest, ?_, earlier, ?_⟩
  · calc
      (before ++ a :: b :: rest).Perm (a :: (before ++ b :: rest)) := List.perm_middle
      _ |>.Perm (a :: b :: (before ++ rest)) := List.perm_middle.cons a
      _ |>.Perm (a :: b :: others) := (parts.cons b).cons a
      _ |>.Perm proofs := removed
  · refine List.pairwise_append.mpr ⟨pairwise_ordered _, ?_, ?_⟩
    · refine List.pairwise_cons.mpr ⟨?_, List.pairwise_cons.mpr ⟨?_, pairwise_ordered _⟩⟩
      · intro q mem
        rcases List.mem_cons.mp mem with rfl | mem
        · exact decide_eq_true tied.le
        · exact decide_eq_true (later q mem)
      · intro q mem
        exact decide_eq_true (tied ▸ later q mem)
    · intro p p_mem q q_mem
      have p_earlier := earlier p p_mem
      rcases List.mem_cons.mp q_mem with rfl | q_mem
      · exact decide_eq_true p_earlier.le
      · rcases List.mem_cons.mp q_mem with rfl | q_mem
        · exact decide_eq_true (tied ▸ p_earlier.le)
        · exact decide_eq_true (p_earlier.le.trans (later q q_mem))

/-- Neighbours of one second can be exchanged. -/
theorem pairwise_exchange {before rest : List Proof} {a b : Proof}
    (tied : a.publishedAt = b.publishedAt)
    (sorted : (before ++ a :: b :: rest).Pairwise fun p q => publishedBefore p q = true) :
    (before ++ b :: a :: rest).Pairwise fun p q => publishedBefore p q = true := by
  rcases List.pairwise_append.mp sorted with ⟨front, back, across⟩
  rcases List.pairwise_cons.mp back with ⟨a_first, back⟩
  rcases List.pairwise_cons.mp back with ⟨b_first, behind⟩
  refine List.pairwise_append.mpr ⟨front, ?_, ?_⟩
  · refine List.pairwise_cons.mpr ⟨?_, List.pairwise_cons.mpr ⟨?_, behind⟩⟩
    · intro q mem
      rcases List.mem_cons.mp mem with rfl | mem
      · exact decide_eq_true tied.ge
      · exact b_first q mem
    · intro q mem
      exact a_first q (List.mem_cons_of_mem b mem)
  · intro p p_mem q q_mem
    exact across p p_mem q ((List.Perm.swap a b rest).mem_iff.mp q_mem)

/-- On a sorted listing the gap flags are those of its neighbours. -/
theorem detect_gapKeys {ν : Type} [JsNumbers ν] [NumberText ν] [LawfulNumbers ν]
    {proofs : List Proof}
    (readable : ∀ p ∈ proofs, ∃ reserves liabilities, p.Reads reserves liabilities)
    (sorted : proofs.Pairwise fun a b => publishedBefore a b = true)
    {flags : List (AnomalyFlag ν)} (detected : detectAnomalies proofs everyGap = some flags) :
    (flags.map AnomalyFlag.key).filter (fun key => key.1 = .cycleTimingGap) = gapKeys proofs := by
  rcases scan_gapKeys (ν := ν) readable sorted with ⟨found, scanned, keys⟩
  rw [detectAnomalies_of_sorted everyGap sorted, scanned] at detected
  cases detected
  exact keys

/-- A history whose totals are integers is scanned to its end. -/
theorem exists_scan {ν : Type} [JsNumbers ν] [NumberText ν] (thresholds : AnomalyThresholds ν)
    {proofs : List Proof}
    (readable : ∀ p ∈ proofs, ∃ reserves liabilities, p.Reads reserves liabilities) :
    ∃ flags, scan thresholds proofs = some flags := by
  induction proofs with
  | nil => exact ⟨[], rfl⟩
  | cons prev rest ih =>
      cases rest with
      | nil => exact ⟨[], rfl⟩
      | cons curr rest =>
          rcases ih fun p mem => readable p (List.mem_cons_of_mem _ mem) with ⟨more, scanned⟩
          rcases readable prev List.mem_cons_self with ⟨_, _, prev_reads⟩
          rcases readable curr (List.mem_cons_of_mem _ List.mem_cons_self) with ⟨_, _, curr_reads⟩
          exact ⟨_, by rw [scan, pairFlags_eq thresholds prev_reads curr_reads, scanned]; rfl⟩

/-- The flags depend on the set of proofs exactly when no two proofs of the history
share a second. -/
theorem orderFree_iff (ν : Type) [JsNumbers ν] [NumberText ν] [LawfulNumbers ν]
    (history : ProofHistory) :
    OrderFree ν history.proofs ↔
      ∀ a ∈ history.proofs, ∀ b ∈ history.proofs, a.publishedAt = b.publishedAt → a = b := by
  constructor
  · intro free a a_mem b b_mem tied
    by_contra different
    have ids : a.id ≠ b.id := fun same => different (history.identified a a_mem b b_mem same)
    rcases exists_tied_listing a_mem b_mem different tied with
      ⟨before, rest, listed, earlier, sorted⟩
    have exchanged : (before ++ b :: a :: rest).Perm (before ++ a :: b :: rest) :=
      (List.Perm.swap a b rest).append_left before
    have sorted' := pairwise_exchange tied sorted
    have readable : ∀ p ∈ before ++ a :: b :: rest,
        ∃ reserves liabilities, p.Reads reserves liabilities :=
      fun p mem => history.readable p (listed.mem_iff.mp mem)
    rcases free everyGap _ listed with ⟨flags, first, detected, first_detected, first_perm⟩
    rcases free everyGap _ (exchanged.trans listed) with
      ⟨flags', second, detected', second_detected, second_perm⟩
    cases detected.symm.trans detected'
    have perm := (first_perm.trans second_perm.symm).filter fun key => key.1 = .cycleTimingGap
    rw [detect_gapKeys readable sorted first_detected, detect_gapKeys
      (fun p mem => readable p (exchanged.mem_iff.mp mem)) sorted' second_detected] at perm
    exact not_perm_gapKeys tied ids earlier perm
  · intro apart thresholds others listed
    have readable : ∀ p ∈ history.proofs.mergeSort publishedBefore,
        ∃ reserves liabilities, p.Reads reserves liabilities :=
      fun p mem => history.readable p (List.mem_mergeSort.mp mem)
    rcases exists_scan thresholds readable with ⟨flags, scanned⟩
    refine ⟨flags, flags, scanned, ?_, List.Perm.refl _⟩
    rw [detectAnomalies, mergeSort_eq_of_perm listed apart]
    exact scanned

/-- Three proofs, the last two of one second. -/
def sampleHistory : ProofHistory where
  proofs := [⟨"1", "100", "50", 0⟩, ⟨"2", "95", "50", 60⟩, ⟨"3", "90", "50", 60⟩]
  readable := by
    simp only [List.forall_mem_cons]
    exact ⟨⟨100, 50, by decide +kernel, by decide +kernel⟩,
      ⟨95, 50, by decide +kernel, by decide +kernel⟩,
      ⟨90, 50, by decide +kernel, by decide +kernel⟩, by simp⟩
  identified := by decide

theorem orderFree_iff_sample :
    OrderFree Number sampleHistory.proofs ↔
      ∀ a ∈ sampleHistory.proofs, ∀ b ∈ sampleHistory.proofs,
        a.publishedAt = b.publishedAt → a = b :=
  orderFree_iff Number sampleHistory

/-- Listed the other way around, the last proof is a drop of a tenth. -/
theorem detectAnomalies_order :
    (detectAnomalies sampleHistory.proofs (⟨.finite 10, .finite 15, .finite 3600⟩ :
        AnomalyThresholds Number)).map (List.map AnomalyFlag.key) = some [] ∧
      (detectAnomalies (sampleHistory.proofs.take 1 ++ (sampleHistory.proofs.drop 1).reverse)
          (⟨.finite 10, .finite 15, .finite 3600⟩ : AnomalyThresholds Number)).map
            (List.map AnomalyFlag.key) =
        some [(.reserveDrift, .warning, "3", .finite (-10))] ∧
      ¬ OrderFree Number sampleHistory.proofs := by
  have first : (detectAnomalies sampleHistory.proofs (⟨.finite 10, .finite 15, .finite 3600⟩ :
      AnomalyThresholds Number)).map (List.map AnomalyFlag.key) = some [] := by
    rw [detectAnomalies_of_sorted _ (by decide)]
    decide +kernel
  have second : (detectAnomalies (sampleHistory.proofs.take 1 ++
      (sampleHistory.proofs.drop 1).reverse) (⟨.finite 10, .finite 15, .finite 3600⟩ :
        AnomalyThresholds Number)).map (List.map AnomalyFlag.key) =
      some [(.reserveDrift, .warning, "3", .finite (-10))] := by
    rw [detectAnomalies_of_sorted _ (by decide)]
    decide +kernel
  refine ⟨first, second, fun free => ?_⟩
  rcases free ⟨.finite 10, .finite 15, .finite 3600⟩ (sampleHistory.proofs.take 1 ++
    (sampleHistory.proofs.drop 1).reverse) (by decide) with
    ⟨flags, flags', detected, detected', perm⟩
  rw [detected, Option.map_some] at first
  rw [detected', Option.map_some] at second
  rw [Option.some.inj first, Option.some.inj second] at perm
  exact absurd perm.length_eq (by decide)

end Solva.Shared
