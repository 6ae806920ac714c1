import Mathlib.Data.List.Basic
import Mathlib.Data.List.FinRange

/-!
# Runs of blocks of one width

A run of blocks of the same width is cut at the multiples of the width, so that it has
no other reading.
-/

namespace Solva.Codec

variable {α β : Type*} {width : Nat}

/-- The block of an index. -/
def block (width : Nat) (run : List α) (i : Nat) : List α :=
  (run.drop (width * i)).take width

theorem length_block {run : List α} {i : Nat} (fits : width * (i + 1) ≤ run.length) :
    (block width run i).length = width := by
  rw [Nat.mul_succ] at fits
  rw [block, List.length_take, List.length_drop]
  omega

theorem block_zero {first rest : List α} (fits : first.length = width) :
    block width (first ++ rest) 0 = first := by
  rw [block, Nat.mul_zero, List.drop_zero, List.take_left' fits]

theorem block_succ {first rest : List α} (fits : first.length = width) (i : Nat) :
    block width (first ++ rest) (i + 1) = block width rest i := by
  have later : width * (i + 1) = first.length + width * i := by
    rw [fits, Nat.mul_succ, Nat.add_comm]
  rw [block, later, List.drop_length_add_append, block]

/-- A block inside a block. -/
theorem block_block {run : List α} {count i j : Nat} (inside : j < count) :
    block width (block (width * count) run i) j = block width run (count * i + j) := by
  have enough : width ≤ width * count - width * j := by
    rw [← Nat.mul_sub]
    exact Nat.le_mul_of_pos_right width (Nat.sub_pos_of_lt inside)
  rw [block, block, block, List.drop_take, List.take_take, List.drop_drop, Nat.min_eq_left enough,
    Nat.mul_add, Nat.mul_assoc]

/-- The first blocks. -/
def blocks (width count : Nat) (run : List α) : List (List α) :=
  (List.range count).map (block width run)

@[simp]
theorem length_blocks (count : Nat) (run : List α) : (blocks width count run).length = count := by
  rw [blocks, List.length_map, List.length_range]

theorem length_of_mem_blocks {run word : List α} {count : Nat} (fits : run.length = width * count)
    (mem : word ∈ blocks width count run) : word.length = width := by
  rcases List.mem_map.mp mem with ⟨i, small, rfl⟩
  apply length_block
  rw [fits]
  exact Nat.mul_le_mul_left width (List.mem_range.mp small)

/-- Blocks cut into smaller ones. -/
theorem blocks_blocks (inner count : Nat) (run : List α) :
    (blocks (width * inner) count run).flatMap (blocks width inner) =
      blocks width (inner * count) run := by
  induction count with
  | zero => rfl
  | succ count ih =>
      rw [blocks, blocks] at ih
      rw [blocks, blocks, List.range_succ, List.map_append, List.flatMap_append, ih,
        Nat.mul_succ, List.range_add, List.map_append, List.map_map, List.map_singleton,
        List.flatMap_singleton, blocks]
      apply congrArg
      apply List.map_congr_left
      intro j mem
      exact block_block (List.mem_range.mp mem)

theorem blocks_append {front : List α} {count : Nat} (fits : front.length = width * count)
    (count' : Nat) (back : List α) :
    blocks width (count + count') (front ++ back) =
      blocks width count front ++ blocks width count' back := by
  rw [blocks, List.range_add, List.map_append, List.map_map]
  apply congrArg₂
  · apply List.map_congr_left
    intro i mem
    have enough : width * i + width ≤ front.length := by
      rw [fits, ← Nat.mul_succ]
      exact Nat.mul_le_mul_left width (List.mem_range.mp mem)
    rw [block, block, List.drop_append_of_le_length (by omega),
      List.take_append_of_le_length (by rw [List.length_drop]; omega)]
  · apply List.map_congr_left
    intro i _
    rw [Function.comp_apply, block, block, Nat.mul_add, ← fits, List.drop_length_add_append]

section Code

variable {code : β → List α}

theorem length_flatMap (widths : ∀ x, (code x).length = width) (items : List β) :
    (items.flatMap code).length = width * items.length := by
  induction items with
  | nil => rfl
  | cons x items ih =>
      rw [List.flatMap_cons, List.length_append, widths, ih, List.length_cons, Nat.mul_succ,
        Nat.add_comm]

theorem block_flatMap (widths : ∀ x, (code x).length = width) {items : List β} {i : Nat} {x : β}
    (at_i : items[i]? = some x) : block width (items.flatMap code) i = code x := by
  induction items generalizing i with
  | nil => cases at_i
  | cons first items ih =>
      rw [List.flatMap_cons]
      cases i with
      | zero => rw [block_zero (widths first), Option.some.inj at_i]
      | succ i =>
          rw [block_succ (widths first)]
          exact ih at_i

/-- A run of blocks of known number determines the blocks. -/
theorem flatMap_inj (widths : ∀ x, (code x).length = width) (inj : Function.Injective code)
    {items others : List β} (count : items.length = others.length)
    (same : items.flatMap code = others.flatMap code) : items = others := by
  apply List.ext_getElem? fun i => ?_
  cases at_i : items[i]? with
  | none =>
      rw [List.getElem?_eq_none_iff, count] at at_i
      exact (List.getElem?_eq_none_iff.mpr at_i).symm
  | some x =>
      have fits : i < others.length := by
        rw [← count]
        exact (List.getElem?_eq_some_iff.mp at_i).1
      have other := block_flatMap widths (List.getElem?_eq_getElem fits)
      rw [← same, block_flatMap widths at_i] at other
      rw [List.getElem?_eq_getElem fits, inj other]

end Code

/-- The blocks of a run, put together again. -/
theorem flatMap_block {count : Nat} {run : List α} (fits : run.length = width * count) :
    (List.range count).flatMap (block width run) = run := by
  induction count generalizing run with
  | zero =>
      rw [Nat.mul_zero] at fits
      rw [List.range_zero, List.flatMap_nil, List.eq_nil_of_length_eq_zero fits]
  | succ count ih =>
      have later (i : Nat) : block width run (i + 1) = block width (run.drop width) i := by
        rw [block, block, List.drop_drop, Nat.mul_succ, Nat.add_comm]
      have rest : (run.drop width).length = width * count := by
        rw [List.length_drop, fits, Nat.mul_succ, Nat.add_sub_cancel]
      rw [List.range_succ_eq_map, List.flatMap_cons, List.flatMap_map]
      simp only [Nat.succ_eq_add_one, later]
      rw [ih rest, block, Nat.mul_zero, List.drop_zero, List.take_append_drop]

/-- Reading blocks and writing them again gives back the run exactly where it does so on
every block. -/
theorem flatMap_decode_iff {code : β → List α} {decode : List α → β} {count : Nat}
    {run : List α} (widths : ∀ x, (code x).length = width) (fits : run.length = width * count) :
    ((blocks width count run).map decode).flatMap code = run ↔
      ∀ word ∈ blocks width count run, code (decode word) = word := by
  constructor
  · intro same word mem
    rcases List.mem_map.mp mem with ⟨i, small, rfl⟩
    have at_i : ((blocks width count run).map decode)[i]? = some (decode (block width run i)) := by
      rw [blocks, List.getElem?_map, List.getElem?_map,
        List.getElem?_range (List.mem_range.mp small)]
      rfl
    rw [← block_flatMap widths at_i, same]
  · intro words
    calc ((blocks width count run).map decode).flatMap code
        = (blocks width count run).flatMap id := by
          rw [List.flatMap_map]
          exact List.flatMap_congr words
      _ = run := by
          rw [blocks, List.flatMap_map]
          exact flatMap_block fits

end Solva.Codec
