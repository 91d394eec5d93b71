import Mathlib.Data.List.Basic
import Mathlib.Order.Nat
import Mathlib.Tactic.SplitIfs

/-!
# Events within a window of time

A list of the times of some events, from which the ones that have left the window are dropped each
time that an event is added. The window ends at the time of the last event and only moves forward,
so that what has been dropped would never be counted again: the list holds exactly the events within
the window, of all that were added.

Dropping is done in place: the times that are kept are written over the beginning of the buffer that
is being read.

## Main definitions

* `SlidingWindow.record`: add an event, and drop the ones that have left the window.
* `SlidingWindow.Holds`: a list holds the events within the window.
* `SlidingWindow.compact`: the loop that filters a buffer in place.

## Main results

* `SlidingWindow.Holds.record`: the list holds the events within the window after an event is added.
* `SlidingWindow.compact_eq_filter`: filtering in place is filtering.
-/

namespace SlidingWindow

section Window

variable {τ : Type*} [Preorder τ] (within : τ → τ → Bool)

/-- The window, as a test for the time of the last event and that of an event, only moves
forward. -/
def MovesForward : Prop := ∀ ⦃last now t⦄, last ≤ now → within now t → within last t

/-- Add an event, and drop the ones that are not within the window that ends with it. -/
def record (now : τ) (kept : List τ) : List τ := (kept ++ [now]).filter (within now)

/-- Of all events, the list holds the ones within the window at some time that has not passed
`now`. -/
def Holds (now : τ) (all kept : List τ) : Prop := ∃ last ≤ now, kept = all.filter (within last)

variable {within} {now now' : τ} {all kept : List τ}

theorem holds_nil (now : τ) : Holds within now [] [] := ⟨now, le_rfl, rfl⟩

theorem Holds.mono (h : Holds within now all kept) (hle : now ≤ now') :
    Holds within now' all kept := by
  obtain ⟨last, hlast, hkept⟩ := h
  exact ⟨last, hlast.trans hle, hkept⟩

/-- **Nothing that is needed has been dropped.** After an event, the list holds the events within
the window that ends with it. -/
theorem Holds.record_eq (hforward : MovesForward within) (h : Holds within now all kept) :
    record within now kept = (all ++ [now]).filter (within now) := by
  obtain ⟨last, hlast, rfl⟩ := h
  rw [record, List.filter_append, List.filter_append, List.filter_filter]
  congr 1
  refine List.filter_congr fun t _ => ?_
  rcases hnow : within now t with _ | _
  · rfl
  · rw [hforward hlast hnow]
    rfl

theorem Holds.record (hforward : MovesForward within) (h : Holds within now all kept) :
    Holds within now (all ++ [now]) (record within now kept) :=
  ⟨now, le_rfl, h.record_eq hforward⟩

end Window

section InPlace

variable {α : Type*} (keep : α → Bool)

/-- Go through the next `n` elements of a buffer, and write the ones that are kept over its
beginning. -/
def compactFrom : ℕ → List α → ℕ → ℕ → List α
  | 0, buffer, _, write => buffer.take write
  | n + 1, buffer, read, write =>
    match buffer[read]? with
    | none => buffer.take write
    | some x =>
      if keep x then compactFrom n (buffer.set write x) (read + 1) (write + 1)
      else compactFrom n buffer (read + 1) write

/-- Filter a buffer in place. -/
def compact (buffer : List α) : List α := compactFrom keep buffer.length buffer 0 0

variable {keep}

/-- The writes do not reach what is still to be read. -/
theorem compactFrom_eq (n : ℕ) {buffer : List α} {read write : ℕ} (hle : write ≤ read)
    (hlength : read + n = buffer.length) :
    compactFrom keep n buffer read write =
      buffer.take write ++ (buffer.drop read).filter keep := by
  induction n generalizing buffer read write with
  | zero =>
    rw [compactFrom, List.drop_of_length_le (by omega), List.filter_nil, List.append_nil]
  | succ n ih =>
    have hread : read < buffer.length := by omega
    have hwrite : write < buffer.length := by omega
    rw [compactFrom, List.getElem?_eq_getElem hread, List.drop_eq_getElem_cons hread,
      List.filter_cons]
    dsimp only
    split_ifs with hkeep
    · rw [ih (by omega) (by rw [List.length_set]; omega)]
      have htake : (buffer.set write buffer[read]).take (write + 1) =
          buffer.take write ++ [buffer[read]] := by
        have htaken : (buffer.take write).length = write := List.length_take_of_le hwrite.le
        rw [List.take_set, List.take_succ_eq_append_getElem hwrite,
          List.set_append_right _ _ htaken.le, htaken, Nat.sub_self]
        rfl
      have hdrop : (buffer.set write buffer[read]).drop (read + 1) = buffer.drop (read + 1) :=
        List.drop_set_of_lt (by omega)
      rw [htake, hdrop, List.append_assoc]
      rfl
    · rw [ih (by omega) (by omega)]

/-- **Filtering in place is filtering.** -/
theorem compact_eq_filter (buffer : List α) : compact keep buffer = buffer.filter keep := by
  rw [compact, compactFrom_eq _ le_rfl (Nat.zero_add _), List.take_zero, List.drop_zero,
    List.nil_append]

end InPlace

end SlidingWindow
