import Mathlib.Data.List.Basic
import Mathlib.Order.Nat

/-!
# Cutting a list into pieces

Two ways to cut a list: into slices of one length, of which the last one may be shorter, and at the
occurrences of a separator. Put together again, the slices are the list; and lines that end with a
separator each are found again by cutting at the separator.

## Main definitions

* `Pieces.slices`: the slices of a list.

## Main results

* `Pieces.flatten_slices`: nothing is lost, and nothing comes twice.
* `Pieces.mem_slices`: no slice is empty or too long.
* `Pieces.splitOn_flatMap_append`: lines, and what comes after the last of them.
-/

namespace Pieces

variable {α : Type*}

/-! ### Slices -/

/-- The slices of length `n`, from the beginning. -/
def slices (n : ℕ) (l : List α) : List (List α) :=
  (List.range ((l.length + (n - 1)) / n)).map fun k => (l.drop (n * k)).take n

/-- The first slices are a beginning of the list. -/
theorem flatten_map_range (n : ℕ) (l : List α) (m : ℕ) :
    ((List.range m).map fun k => (l.drop (n * k)).take n).flatten = l.take (n * m) := by
  induction m with
  | zero => simp
  | succ m ih =>
    rw [List.range_succ, List.map_append, List.flatten_append, ih, List.map_singleton,
      List.flatten_singleton, Nat.mul_succ, List.take_add]

theorem flatten_slices {n : ℕ} (h : 0 < n) (l : List α) : (slices n l).flatten = l := by
  rw [slices, flatten_map_range]
  refine List.take_of_length_le ?_
  have hlt := Nat.lt_mul_div_succ (l.length + (n - 1)) h
  rw [Nat.mul_add, Nat.mul_one] at hlt
  omega

theorem mem_slices {n : ℕ} (h : 0 < n) {l slice : List α} (hslice : slice ∈ slices n l) :
    slice ≠ [] ∧ slice.length ≤ n := by
  obtain ⟨k, hk, rfl⟩ := List.mem_map.mp hslice
  rw [List.mem_range, Nat.lt_div_iff_mul_lt h] at hk
  refine ⟨?_, List.length_take_le _ _⟩
  rw [← List.length_pos_iff, List.length_take, List.length_drop]
  have hcomm := Nat.mul_comm k n
  omega

theorem slices_nil {n : ℕ} (h : 0 < n) : slices n ([] : List α) = [] := by
  rw [slices, List.length_nil, Nat.zero_add, Nat.div_eq_of_lt (Nat.sub_one_lt_of_lt h)]
  rfl

/-- The first slice, and those of what follows it. -/
theorem slices_of_ne_nil {n : ℕ} (h : 0 < n) {l : List α} (hl : l ≠ []) :
    slices n l = l.take n :: slices n (l.drop n) := by
  have hcount : (l.length + (n - 1)) / n = ((l.drop n).length + (n - 1)) / n + 1 := by
    have hpos := List.length_pos_iff.mpr hl
    rw [List.length_drop, ← Nat.add_div_right _ h]
    by_cases hle : n ≤ l.length
    · congr 1
      omega
    · rw [Nat.div_eq_of_lt_le (k := 1) (by omega) (by omega),
        Nat.div_eq_of_lt_le (k := 1) (by omega) (by omega)]
  rw [slices, hcount, List.range_succ_eq_map, List.map_cons, List.map_map, Nat.mul_zero,
    List.drop_zero, slices]
  congr 1
  refine List.map_congr_left fun k _ => ?_
  rw [Function.comp_apply, List.drop_drop, Nat.mul_succ, Nat.add_comm]

/-! ### Lines -/

/-- Lines that end with a separator each, and what comes after them. -/
theorem splitOn_flatMap_append [DecidableEq α] {sep : α} {lines : List (List α)}
    (h : ∀ line ∈ lines, sep ∉ line) (rest : List α) :
    (lines.flatMap (· ++ [sep]) ++ rest).splitOn sep = lines ++ rest.splitOn sep := by
  induction lines with
  | nil => rfl
  | cons line lines ih =>
    rw [List.forall_mem_cons] at h
    rw [List.flatMap_cons, List.append_assoc, List.append_assoc, List.singleton_append,
      List.splitOn_append_cons_self_of_not_mem h.1, ih h.2, List.cons_append]

end Pieces
