import Mathlib.Data.List.DropRight

/-!
# Splitting a text at a character

`String.split` of Java, for a regular expression that is one character: the pieces between the
occurrences of the character, without the empty ones at the end. A text in which the character does
not occur is its only piece, even if it is empty.

## Main definitions

* `JavaString.split`: the pieces.

## Main results

* `JavaString.getElem?_of_split`: a piece is in the place that it has in the text.
* `JavaString.split_getElem?`: what is not empty is not lost.
* `JavaString.split_eq_splitOn`: nothing is lost of a text the last piece of which is not empty.
-/

namespace JavaString

variable {sep : Char} {text piece : List Char} {i : ℕ}

/-- `String.split`, for one character. -/
def split (sep : Char) (text : List Char) : List (List Char) :=
  if sep ∈ text then (text.splitOn sep).rdropWhile List.isEmpty else [text]

theorem split_of_mem (h : sep ∈ text) :
    split sep text = (text.splitOn sep).rdropWhile List.isEmpty := if_pos h

theorem getElem?_of_split (hsep : sep ∈ text) (h : (split sep text)[i]? = some piece) :
    (text.splitOn sep)[i]? = some piece := by
  rw [split_of_mem hsep] at h
  obtain ⟨dropped, hdropped⟩ := List.rdropWhile_prefix List.isEmpty (l := text.splitOn sep)
  rw [← hdropped]
  exact List.getElem?_append_left (List.getElem?_eq_some_iff.mp h).1 ▸ h

theorem split_getElem? (hsep : sep ∈ text) (h : (text.splitOn sep)[i]? = some piece)
    (hne : piece ≠ []) : (split sep text)[i]? = some piece := by
  rw [split_of_mem hsep]
  have happend : (text.splitOn sep).rdropWhile List.isEmpty ++
      (text.splitOn sep).rtakeWhile List.isEmpty = text.splitOn sep :=
    List.rdropWhile_append_rtakeWhile
  rw [← happend] at h
  by_cases hi : i < ((text.splitOn sep).rdropWhile List.isEmpty).length
  · rwa [List.getElem?_append_left hi] at h
  · rw [List.getElem?_append_right (not_lt.mp hi)] at h
    have hempty := List.mem_rtakeWhile_imp (List.mem_of_getElem? h)
    exact absurd (List.isEmpty_iff.mp hempty) hne

theorem split_eq_splitOn {pieces : List (List Char)} (hsep : sep ∈ text)
    (h : text.splitOn sep = pieces ++ [piece]) (hne : piece ≠ []) :
    split sep text = pieces ++ [piece] := by
  rw [split_of_mem hsep, h]
  refine List.rdropWhile_concat_neg _ _ _ fun hempty => ?_
  exact hne (List.isEmpty_iff.mp hempty)

/-- The first piece is the whole text only if there is no other one. -/
theorem splitOn_getElem?_zero_iff : (text.splitOn sep)[0]? = some text ↔ sep ∉ text := by
  constructor
  · intro h hmem
    obtain ⟨before, after, rfl, hbefore⟩ := List.eq_append_cons_of_mem hmem
    rw [List.splitOn_append_cons_self_of_not_mem hbefore] at h
    simp at h
  · intro h
    rw [List.splitOn_eq_singleton h]
    rfl

/-- There are at least two pieces if the character occurs. -/
theorem one_lt_length_splitOn (hsep : sep ∈ text) : 1 < (text.splitOn sep).length := by
  obtain ⟨before, after, rfl, -⟩ := List.eq_append_cons_of_mem hsep
  rw [List.splitOn_append_cons_self, List.length_append]
  have h1 := List.length_pos_iff.mpr (List.splitOn_ne_nil sep before)
  have h2 := List.length_pos_iff.mpr (List.splitOn_ne_nil sep after)
  omega

end JavaString
