import Mathlib.Data.List.DropRight
import Mathlib.Order.Nat

/-!
# The newest elements of a history

A buffer with room for `n` elements that drops its oldest element for a new one holds the last `n`
elements of its history, `l.rtake n`. What was taken out of the buffer is put back in front of what
has been added since, as far as there is room; the buffer then holds the last `n` elements of both
histories together.

## Main results

* `Newest.rtake_append`: the last elements of two histories.
* `Newest.rtake_rtake_of_le`: the last elements of the last elements.
* `Newest.getLast?_rtake`: the newest element is not dropped.
-/

namespace Newest

variable {α : Type*}

theorem length_rtake (l : List α) (n : ℕ) : (l.rtake n).length = min n l.length := by
  rw [List.rtake, List.length_drop]
  omega

theorem rtake_of_length_le {l : List α} {n : ℕ} (h : l.length ≤ n) : l.rtake n = l := by
  rw [List.rtake, Nat.sub_eq_zero_of_le h, List.drop_zero]

theorem rtake_append (l m : List α) (n : ℕ) :
    (l ++ m).rtake n = l.rtake (n - m.length) ++ m.rtake n := by
  rw [List.rtake, List.rtake, List.rtake, List.drop_append, List.length_append]
  have hm : l.length + m.length - n - l.length = m.length - n := by omega
  rw [hm]
  by_cases h : m.length ≤ n
  · have hl : l.length + m.length - n = l.length - (n - m.length) := by omega
    rw [hl]
  · rw [List.drop_of_length_le (show l.length ≤ l.length + m.length - n by omega),
      List.drop_of_length_le (show l.length ≤ l.length - (n - m.length) by omega)]

theorem rtake_rtake_of_le {l : List α} {k n : ℕ} (h : k ≤ n) : (l.rtake n).rtake k = l.rtake k := by
  rw [List.rtake, length_rtake, List.rtake, List.rtake, List.drop_drop]
  congr 1
  omega

theorem rtake_sublist (l : List α) (n : ℕ) : (l.rtake n).Sublist l := List.drop_sublist _ l

theorem getLast?_rtake {l : List α} {n : ℕ} (h : 0 < n) : (l.rtake n).getLast? = l.getLast? := by
  rcases l.eq_nil_or_concat' with rfl | ⟨l, x, rfl⟩
  · rw [List.rtake_nil]
  · rw [rtake_append, rtake_of_length_le (show [x].length ≤ n from h), List.getLast?_concat,
      List.getLast?_concat]

end Newest
