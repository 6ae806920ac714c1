import Mathlib.Tactic.Ring
import Solva.SumTree.Core

/-!
# What the nodes of a folded layer cover

The node at an index of the `k`-th level stands over a block of `2 ^ k` leaves, the
last one over what is left. A weight that every combine adds up is exact at every
node as long as no odd layer counts its last node twice.
-/

namespace Solva.SumTree

universe u

variable {α : Type u} {combine : α → α → α}

/-! ## Levels by their height -/

/-- How many nodes there are `height` levels above a layer. -/
def width (layer : List α) (height : Nat) : Nat :=
  (layer.length + 2 ^ height - 1) / 2 ^ height

theorem length_iterate_parents (combine : α → α → α) (height : Nat) (layer : List α) :
    ((parents combine)^[height] layer).length = width layer height := by
  unfold width
  induction height generalizing layer with
  | zero => simp
  | succ height ih =>
      have positive : 0 < 2 ^ height := Nat.two_pow_pos height
      rw [Function.iterate_succ_apply, ih, length_parents, Nat.pow_succ',
        ← Nat.div_div_eq_div_mul]
      congr 1
      omega

/-- With enough fuel the levels are the rounds of folding, each above a layer of two
nodes or more. -/
theorem getElem?_levels_iff {fuel : Nat} {layer level : List α} {height : Nat}
    (enough : layer.length ≤ fuel + 1) :
    (levels combine fuel layer)[height]? = some level ↔
      level = (parents combine)^[height] layer ∧
        ∀ below < height, 2 ≤ ((parents combine)^[below] layer).length := by
  induction fuel generalizing layer height with
  | zero =>
      cases height with
      | zero => simp [levels, eq_comm]
      | succ height =>
          simp only [levels, List.getElem?_cons_succ, List.getElem?_nil, reduceCtorEq, false_iff]
          rintro ⟨_, wide⟩
          have wide_here : 2 ≤ layer.length := wide 0 (Nat.succ_pos height)
          omega
  | succ fuel ih =>
      rw [levels]
      split
      · cases height with
        | zero => simp [eq_comm]
        | succ height =>
            simp only [List.getElem?_cons_succ, List.getElem?_nil, reduceCtorEq, false_iff]
            rintro ⟨_, wide⟩
            have wide_here : 2 ≤ layer.length := wide 0 (Nat.succ_pos height)
            omega
      · rename_i several
        cases height with
        | zero => simp [eq_comm]
        | succ height =>
            have length_above := length_parents combine layer
            rw [List.getElem?_cons_succ, ih (by omega), Function.iterate_succ_apply]
            constructor
            · rintro ⟨level_eq, wide⟩
              refine ⟨level_eq, fun below below_lt => ?_⟩
              cases below with
              | zero =>
                  rw [Function.iterate_zero_apply]
                  omega
              | succ below =>
                  rw [Function.iterate_succ_apply]
                  exact wide below (Nat.lt_of_succ_lt_succ below_lt)
            · rintro ⟨level_eq, wide⟩
              refine ⟨level_eq, fun below below_lt => ?_⟩
              have wide_above := wide (below + 1) (Nat.succ_lt_succ below_lt)
              rwa [Function.iterate_succ_apply] at wide_above

theorem length_levels {fuel : Nat} {layer : List α} (nonempty : layer ≠ [])
    (enough : layer.length ≤ fuel + 1) :
    (levels combine fuel layer).length = Nat.clog 2 layer.length + 1 := by
  have positive : 0 < layer.length := List.length_pos_iff.mpr nonempty
  induction fuel generalizing layer with
  | zero =>
      have single : layer.length = 1 := by omega
      simp [levels, single]
  | succ fuel ih =>
      rw [levels]
      split
      · have single : layer.length = 1 := by omega
        simp [single]
      · have length_above := length_parents combine layer
        have positive_above : 0 < (parents combine layer).length := by omega
        rw [List.length_cons, ih (List.length_pos_iff.mp positive_above) (by omega) positive_above,
          length_above, Nat.clog_of_two_le (by decide : 1 < 2) (by omega : 2 ≤ layer.length)]
        rfl

theorem length_siblings {above : List (List α)} {index : Nat} {path : List (PathStep α)}
    (path_eq : siblings above index = some path) : path.length = above.length := by
  induction above generalizing index path with
  | nil =>
      cases path_eq
      rfl
  | cons level above ih =>
      simp only [siblings, Option.bind_eq_some_iff, Option.map_eq_some_iff] at path_eq
      rcases path_eq with ⟨node, _, rest, rest_eq, rfl⟩
      rw [List.length_cons, ih rest_eq, List.length_cons]

/-! ## Spans -/

/-- The leaves under the node at an index, `height` levels up. -/
def span (leaves : List α) (height index : Nat) : List α :=
  (leaves.drop (index * 2 ^ height)).take (2 ^ height)

@[simp]
theorem span_zero (leaves : List α) (index : Nat) :
    span leaves 0 index = leaves[index]?.toList := by
  simp [span, List.take_one]

/-- A block is the two blocks under it. -/
theorem span_succ (leaves : List α) (height index : Nat) :
    span leaves (height + 1) index =
      span leaves height (2 * index) ++ span leaves height (2 * index + 1) := by
  have left : index * 2 ^ (height + 1) = 2 * index * 2 ^ height := by ring
  have right : (2 * index + 1) * 2 ^ height = 2 * index * 2 ^ height + 2 ^ height := by ring
  rw [span, span, span, left, right, Nat.pow_succ', Nat.two_mul, List.take_add, List.drop_drop]

/-- The last block of a level is all that is left. -/
theorem span_eq_drop {leaves : List α} {height index : Nat}
    (last : leaves.length ≤ (index + 1) * 2 ^ height) :
    span leaves height index = leaves.drop (index * 2 ^ height) := by
  apply List.take_of_length_le
  rw [List.length_drop]
  rw [Nat.succ_mul] at last
  exact Nat.sub_le_iff_le_add'.mpr last

theorem span_eq_nil {leaves : List α} {height index : Nat}
    (beyond : leaves.length ≤ index * 2 ^ height) : span leaves height index = [] := by
  rw [span, List.drop_eq_nil_of_le beyond, List.take_nil]

theorem sum_map_span_le (weight : α → Nat) (leaves : List α) (height index : Nat) :
    ((span leaves height index).map weight).sum ≤ (leaves.map weight).sum := by
  have sublist : List.Sublist (span leaves height index) leaves :=
    (List.take_sublist _ _).trans (List.drop_sublist _ _)
  exact (sublist.map weight).sum_le_sum fun _ _ => Nat.zero_le _

/-- The last block of a level starts where the level's nodes end. -/
theorem length_le_width_mul (leaves : List α) (height : Nat) :
    leaves.length ≤ width leaves height * 2 ^ height := by
  have positive : 0 < 2 ^ height := Nat.two_pow_pos height
  have upper := Nat.lt_div_mul_add (a := leaves.length + 2 ^ height - 1) positive
  unfold width
  omega

theorem width_succ (leaves : List α) (height : Nat) :
    width leaves (height + 1) = (width leaves height + 1) / 2 := by
  rw [← length_iterate_parents (fun left _ => left), ← length_iterate_parents (fun left _ => left),
    Function.iterate_succ_apply', length_parents]

/-- A level of two nodes or more is above wider ones. -/
theorem two_le_width {leaves : List α} {height below : Nat} (wide : 2 ≤ width leaves height)
    (below_le : below ≤ height) : 2 ≤ width leaves below := by
  induction height, below_le using Nat.le_induction with
  | base => exact wide
  | succ height _ ih =>
      apply ih
      rw [width_succ] at wide
      omega

/-! ## Weights -/

/-- Every node weighs what the leaves under it weigh. -/
def Exact (combine : α → α → α) (weight : α → Nat) (leaves : List α) : Prop :=
  ∀ height level, (levels combine leaves.length leaves)[height]? = some level →
    ∀ index node, level[index]? = some node →
      weight node = ((span leaves height index).map weight).sum

/-- What is left under the last node of a level. -/
def ending (weight : α → Nat) (leaves : List α) (height : Nat) : Nat :=
  ((leaves.drop ((width leaves height - 1) * 2 ^ height)).map weight).sum

section Weights

variable {weight : α → Nat} {plus : Nat → Nat → Nat} {leaves : List α}

theorem exact_of_endings (weighs : ∀ left right,
      weight (combine left right) = plus (weight left) (weight right))
    (adds : ∀ a b, a + b ≤ (leaves.map weight).sum → plus a b = a + b)
    (kept : ∀ height, width leaves height % 2 = 1 → 2 ≤ width leaves height →
      plus (ending weight leaves height) (ending weight leaves height) =
        ending weight leaves height) : Exact combine weight leaves := by
  intro height
  induction height with
  | zero =>
      intro level found index node at_index
      rcases (getElem?_levels_iff (Nat.le_succ _)).mp found with ⟨rfl, _⟩
      simp [at_index]
  | succ height ih =>
      intro level found index node at_index
      rcases (getElem?_levels_iff (Nat.le_succ _)).mp found with ⟨rfl, wide⟩
      have below_found : (levels combine leaves.length leaves)[height]? =
          some ((parents combine)^[height] leaves) :=
        (getElem?_levels_iff (Nat.le_succ _)).mpr
          ⟨rfl, fun below below_lt => wide below (Nat.lt_succ_of_lt below_lt)⟩
      have wide_here := wide height (Nat.lt_succ_self height)
      have width_eq := length_iterate_parents combine height leaves
      rw [Function.iterate_succ_apply', getElem?_parents] at at_index
      rcases Option.map_eq_some_iff.mp at_index with ⟨left, left_found, rfl⟩
      have left_exact := ih _ below_found _ _ left_found
      rw [span_succ, List.map_append, List.sum_append, weighs]
      cases right_found : ((parents combine)^[height] leaves)[2 * index + 1]? with
      | some right =>
          have right_exact := ih _ below_found _ _ right_found
          have both_le := sum_map_span_le weight leaves (height + 1) index
          rw [span_succ, List.map_append, List.sum_append] at both_le
          rw [Option.getD_some, left_exact, right_exact, adds _ _ both_le]
      | none =>
          -- The left node is the last of an odd layer and is combined with itself.
          have left_lt := (List.getElem?_eq_some_iff.mp left_found).1
          have right_ge := List.getElem?_eq_none_iff.mp right_found
          have last : width leaves height - 1 = 2 * index := by omega
          have all_under := length_le_width_mul leaves height
          have width_last : width leaves height = 2 * index + 1 := by omega
          rw [width_last] at all_under
          rw [span_eq_drop all_under] at left_exact
          have doubled := kept height (by omega) (by omega)
          rw [ending, last] at doubled
          rw [span_eq_drop all_under, span_eq_nil all_under, Option.getD_none, left_exact, doubled,
            List.map_nil, List.sum_nil, Nat.add_zero]

/-- The last node of an odd layer is combined with itself, so its own weight has to be
kept. -/
theorem ending_of_exact (weighs : ∀ left right,
      weight (combine left right) = plus (weight left) (weight right))
    (exact : Exact combine weight leaves) {height : Nat} (odd : width leaves height % 2 = 1)
    (wide : 2 ≤ width leaves height) :
    plus (ending weight leaves height) (ending weight leaves height) =
      ending weight leaves height := by
  have width_eq := length_iterate_parents combine height leaves
  have wide_below : ∀ below < height + 1, 2 ≤ ((parents combine)^[below] leaves).length := by
    intro below below_lt
    rw [length_iterate_parents]
    exact two_le_width wide (Nat.le_of_lt_succ below_lt)
  have found : (levels combine leaves.length leaves)[height]? =
      some ((parents combine)^[height] leaves) :=
    (getElem?_levels_iff (Nat.le_succ _)).mpr
      ⟨rfl, fun below below_lt => wide_below below (Nat.lt_succ_of_lt below_lt)⟩
  have above_found : (levels combine leaves.length leaves)[height + 1]? =
      some ((parents combine)^[height + 1] leaves) :=
    (getElem?_levels_iff (Nat.le_succ _)).mpr ⟨rfl, wide_below⟩
  obtain ⟨index, last⟩ : ∃ index, width leaves height = 2 * index + 1 :=
    ⟨width leaves height / 2, by omega⟩
  obtain ⟨left, left_found⟩ : ∃ left, ((parents combine)^[height] leaves)[2 * index]? = some left :=
    ⟨_, List.getElem?_eq_getElem (by omega)⟩
  have right_none : ((parents combine)^[height] leaves)[2 * index + 1]? = none :=
    List.getElem?_eq_none_iff.mpr (by omega)
  have parent : ((parents combine)^[height + 1] leaves)[index]? = some (combine left left) := by
    rw [Function.iterate_succ_apply', getElem?_parents, left_found, right_none]
    rfl
  have all_under := length_le_width_mul leaves height
  rw [last] at all_under
  have left_exact := exact height _ found _ _ left_found
  have parent_exact := exact (height + 1) _ above_found _ _ parent
  rw [span_eq_drop all_under] at left_exact
  rw [weighs, left_exact, span_succ, span_eq_drop all_under, span_eq_nil all_under,
    List.append_nil] at parent_exact
  rw [ending, last]
  exact parent_exact

/-- Weights are exact exactly when no odd layer's last node changes weight by being
combined with itself. -/
theorem exact_iff (plus : Nat → Nat → Nat) (weighs : ∀ left right,
      weight (combine left right) = plus (weight left) (weight right))
    (adds : ∀ a b, a + b ≤ (leaves.map weight).sum → plus a b = a + b) :
    Exact combine weight leaves ↔
      ∀ height, width leaves height % 2 = 1 → 2 ≤ width leaves height →
        plus (ending weight leaves height) (ending weight leaves height) =
          ending weight leaves height := by
  constructor
  · intro exact height odd wide
    exact ending_of_exact weighs exact odd wide
  · exact exact_of_endings weighs adds

/-- The top of exact levels weighs the total. -/
theorem Exact.top {top : α} (exact : Exact combine weight leaves) (nonempty : leaves ≠ [])
    (last : (levels combine leaves.length leaves).getLast? = some [top]) :
    weight top = (leaves.map weight).sum := by
  rw [List.getLast?_eq_getElem?, length_levels nonempty (Nat.le_succ _),
    Nat.add_sub_cancel] at last
  rw [exact _ _ last 0 top rfl, span_eq_drop, Nat.zero_mul, List.drop_zero]
  rw [Nat.zero_add, Nat.one_mul]
  exact Nat.le_pow_clog (by decide) _

end Weights

end Solva.SumTree
