import EdgeGuardian.Lib.Pieces
import Mathlib.Tactic.SplitIfs

/-!
# Lines of a text that grows

`bufio.ScanLines` of Go: how a scanner takes the next line off the text that it has read. A line
ends with a line feed, and a carriage return before it is not part of the line. At the end of the
input what is left is a line as well, although nothing ends it.

A text that grows has complete lines and an unfinished one at its end. If a scanner has taken the
unfinished line for a line, it is right only if what is added to the text ends this very line, and
no other line that is not empty.

## Main definitions

* `LineScanner.scanLines`: the next line.
* `LineScanner.nonEmptyLines`, `LineScanner.unfinished`: the complete lines of a text that are not
  empty, and what comes after the last of its lines.
* `LineScanner.EndsLine`: what is added to a text with an unfinished line ends it as it is.

## Main results

* `LineScanner.nonEmptyLines_append_newline`: the lines of a text are its first line and those of
  what follows.
* `LineScanner.nonEmptyLines_append_eq_iff`: when the only line to come is the unfinished one.
-/

namespace LineScanner

/-! ### The scanner -/

def newline : UInt8 := 10

def carriageReturn : UInt8 := 13

/-- `dropCR`. -/
def dropCR (data : List UInt8) : List UInt8 :=
  if data.getLast? = some carriageReturn then data.dropLast else data

/-- `ScanLines`: the next line, and what follows it. -/
def scanLines (data : List UInt8) (atEOF : Bool) : Option (List UInt8 × List UInt8) :=
  if newline ∈ data then
    some (dropCR (data.takeWhile (· ≠ newline)), (data.dropWhile (· ≠ newline)).tail)
  else if atEOF ∧ data ≠ [] then some (dropCR data, [])
  else none

/-! ### The lines of a text -/

/-- A line, if it is not empty. -/
def nonEmpty (line : List UInt8) : List (List UInt8) := if line = [] then [] else [line]

/-- The complete lines of a text that are not empty. -/
def nonEmptyLines (text : List UInt8) : List (List UInt8) :=
  (text.splitOn newline).dropLast.flatMap fun line => nonEmpty (dropCR line)

/-- What comes after the last line feed. -/
def unfinished (text : List UInt8) : List UInt8 := (text.splitOn newline).getLastD []

/-- What is added to a text with an unfinished line ends the line as it is, and completes no other
line that is not empty. -/
def EndsLine (line added : List UInt8) : Prop :=
  ∃ rest, (added = newline :: rest ∨
      line.getLast? ≠ some carriageReturn ∧ added = carriageReturn :: newline :: rest) ∧
    nonEmptyLines rest = []

section Lines

variable {line rest text data : List UInt8}

theorem nonEmptyLines_append_newline (h : newline ∉ line) :
    nonEmptyLines (line ++ newline :: rest) = nonEmpty (dropCR line) ++ nonEmptyLines rest := by
  rw [nonEmptyLines, List.splitOn_append_cons_self_of_not_mem h,
    List.dropLast_cons_of_ne_nil (List.splitOn_ne_nil newline rest), List.flatMap_cons,
    nonEmptyLines]

theorem nonEmptyLines_of_not_mem (h : newline ∉ text) : nonEmptyLines text = [] := by
  rw [nonEmptyLines, List.splitOn_eq_singleton h]
  rfl

theorem unfinished_of_not_mem (h : newline ∉ text) : unfinished text = text := by
  rw [unfinished, List.splitOn_eq_singleton h]
  rfl

/-- A text with a line feed has a first line. -/
theorem exists_first_line (h : newline ∈ text) :
    ∃ line rest, newline ∉ line ∧ text = line ++ newline :: rest := by
  obtain ⟨line, rest, heq, hline⟩ := List.eq_append_cons_of_mem h
  exact ⟨line, rest, hline, heq⟩

/-- The beginning of a line is no longer than the line. -/
theorem exists_length_le_of_mem_splitOn (h : newline ∉ line) (added : List UInt8) :
    ∃ piece ∈ (line ++ added).splitOn newline, line.length ≤ piece.length := by
  by_cases hadded : newline ∈ added
  · obtain ⟨first, rest, hfirst, rfl⟩ := exists_first_line hadded
    refine ⟨line ++ first, ?_, by simp⟩
    rw [← List.append_assoc, List.splitOn_append_cons_self_of_not_mem (by simp [h, hfirst])]
    exact List.mem_cons_self
  · refine ⟨line ++ added, ?_, by simp⟩
    rw [List.splitOn_eq_singleton (by simp [h, hadded])]
    exact List.mem_singleton_self _

/-- The next line is the first one, or at the end of the input what is left. -/
theorem scanLines_eq_some {atEOF : Bool} (h : scanLines data atEOF = some (line, rest)) :
    (∃ first, newline ∉ first ∧ data = first ++ newline :: rest ∧ line = dropCR first) ∨
      (newline ∉ data ∧ atEOF = true ∧ line = dropCR data ∧ rest = []) := by
  rw [scanLines] at h
  split_ifs at h with hmem hend
  · left
    obtain ⟨first, after, hfirst, rfl⟩ := exists_first_line hmem
    have hall : ∀ c ∈ first, decide (c ≠ newline) = true :=
      fun c hc => decide_eq_true fun heq => hfirst (heq ▸ hc)
    simp only [List.takeWhile_append_of_pos hall, List.dropWhile_append_of_pos hall,
      List.takeWhile_cons, List.dropWhile_cons, ne_eq, not_true_eq_false, decide_false,
      Bool.false_eq_true, if_false, List.append_nil, List.tail_cons, Option.some_inj,
      Prod.mk.injEq] at h
    exact ⟨first, hfirst, by rw [h.2], h.1.symm⟩
  · right
    obtain ⟨rfl, rfl⟩ := Prod.mk.inj (Option.some_inj.mp h)
    exact ⟨hmem, hend.1, rfl, rfl⟩

theorem scanLines_nil (atEOF : Bool) : scanLines [] atEOF = none := by
  simp [scanLines]

theorem scanLines_eq_none {atEOF : Bool} (h : scanLines data atEOF = none) :
    newline ∉ data ∧ (atEOF = true → data = []) := by
  rw [scanLines] at h
  split_ifs at h with hmem hend
  exact ⟨hmem, fun heof => not_not.mp fun hne => hend ⟨heof, hne⟩⟩

end Lines

/-! ### What has been read -/

/-- What has been read is made of complete lines and of what the scanner holds. -/
structure Scanned (text : List UInt8) (lines : List (List UInt8)) (pending : List UInt8) :
    Prop where
  eq : text = lines.flatMap (· ++ [newline]) ++ pending
  complete : ∀ line ∈ lines, newline ∉ line

namespace Scanned

variable {text pending first rest : List UInt8} {lines : List (List UInt8)}

theorem nil : Scanned [] [] [] := ⟨rfl, nofun⟩

theorem next (h : Scanned text lines (first ++ newline :: rest)) (hfirst : newline ∉ first) :
    Scanned text (lines ++ [first]) rest where
  eq := by
    rw [h.eq, List.flatMap_append, List.flatMap_singleton]
    simp only [List.append_assoc, List.singleton_append]
  complete := by
    rw [List.forall_mem_append, List.forall_mem_singleton]
    exact ⟨h.complete, hfirst⟩

theorem more (h : Scanned text lines pending) (added : List UInt8) :
    Scanned (text ++ added) lines (pending ++ added) :=
  ⟨by rw [h.eq, List.append_assoc], h.complete⟩

theorem splitOn_eq (h : Scanned text lines pending) :
    text.splitOn newline = lines ++ pending.splitOn newline := by
  rw [h.eq, Pieces.splitOn_flatMap_append h.complete]

theorem nonEmptyLines_eq (h : Scanned text lines pending) :
    nonEmptyLines text =
      (lines.flatMap fun line => nonEmpty (dropCR line)) ++ nonEmptyLines pending := by
  rw [nonEmptyLines, h.splitOn_eq,
    List.dropLast_append_of_ne_nil (List.splitOn_ne_nil newline pending), List.flatMap_append,
    nonEmptyLines]

theorem unfinished_eq (h : Scanned text lines pending) : unfinished text = unfinished pending := by
  obtain ⟨before, last, hpieces⟩ :=
    (pending.splitOn newline).eq_nil_or_concat'.resolve_left (List.splitOn_ne_nil newline pending)
  rw [unfinished, h.splitOn_eq, unfinished, hpieces, ← List.append_assoc, List.getLastD_concat,
    List.getLastD_concat]

end Scanned

/-! ### Unfinished lines -/

section Unfinished

variable {line added : List UInt8}

theorem dropCR_concat (data : List UInt8) (c : UInt8) :
    dropCR (data ++ [c]) = if c = carriageReturn then data else data ++ [c] := by
  rw [dropCR, List.getLast?_concat, List.dropLast_concat]
  simp only [Option.some_inj]

theorem length_dropCR_le (data : List UInt8) : (dropCR data).length ≤ data.length := by
  rw [dropCR]
  split_ifs
  · rw [List.length_dropLast]
    exact Nat.sub_le _ _
  · exact le_rfl

theorem dropCR_eq_self_iff (data : List UInt8) :
    dropCR data = data ↔ data.getLast? ≠ some carriageReturn := by
  rcases data.eq_nil_or_concat' with rfl | ⟨data, c, rfl⟩
  · simp [dropCR]
  · rw [dropCR_concat, List.getLast?_concat, ne_eq, Option.some_inj]
    split_ifs with hc
    · simp [hc]
    · simp [hc]

/-- An unfinished line is ended as it is by a line feed, with a carriage return before it or not. -/
theorem dropCR_append_eq_iff :
    dropCR (line ++ added) = dropCR line ↔
      added = [] ∨ line.getLast? ≠ some carriageReturn ∧ added = [carriageReturn] := by
  rcases added.eq_nil_or_concat' with rfl | ⟨added, c, rfl⟩
  · simp
  rw [← List.append_assoc, dropCR_concat]
  have hle := length_dropCR_le line
  split_ifs with hc
  · subst hc
    constructor
    · intro h
      have hlength := congrArg List.length h
      rw [List.length_append] at hlength
      obtain rfl : added = [] := List.eq_nil_of_length_eq_zero (by omega)
      rw [List.append_nil] at h
      exact .inr ⟨(dropCR_eq_self_iff line).mp h.symm, rfl⟩
    · rintro (h | ⟨hlast, h⟩)
      · simp at h
      · obtain rfl : added = [] := by simpa using h
        rw [List.append_nil, (dropCR_eq_self_iff line).mpr hlast]
  · refine iff_of_false (fun h => ?_) ?_
    · have hlength := congrArg List.length h
      simp only [List.length_append, List.length_singleton] at hlength
      omega
    · rintro (h | ⟨-, h⟩)
      · simp at h
      · have hlast := congrArg List.getLast? h
        rw [List.getLast?_concat] at hlast
        exact hc (Option.some_inj.mp hlast)

theorem dropCR_append_ne_nil (h : dropCR line ≠ []) : dropCR (line ++ added) ≠ [] := by
  rcases added.eq_nil_or_concat' with rfl | ⟨added, c, rfl⟩
  · rwa [List.append_nil]
  have hline : line ≠ [] := by
    rintro rfl
    exact h rfl
  rw [← List.append_assoc, dropCR_concat]
  split_ifs <;> simp [hline]

/-- **The only line to come is the unfinished one** if and only if it is empty and no line that is
not empty comes, or what is added ends it. -/
theorem nonEmptyLines_append_eq_iff (hline : newline ∉ line) :
    nonEmptyLines (line ++ added) = nonEmpty (dropCR line) ↔
      (dropCR line = [] ∧ nonEmptyLines (line ++ added) = []) ∨
        (dropCR line ≠ [] ∧ EndsLine line added) := by
  by_cases hempty : dropCR line = []
  · simp [hempty, nonEmpty]
  have hone : nonEmpty (dropCR line) = [dropCR line] := if_neg hempty
  simp only [hempty, hone, false_and, false_or, ne_eq, not_false_eq_true, true_and]
  constructor
  · intro h
    have hmem : newline ∈ added := by
      by_contra hadded
      rw [nonEmptyLines_of_not_mem (by simp [hline, hadded])] at h
      cases h
    obtain ⟨first, rest, hfirst, rfl⟩ := exists_first_line hmem
    rw [← List.append_assoc, nonEmptyLines_append_newline (by simp [hline, hfirst]),
      nonEmpty, if_neg (dropCR_append_ne_nil hempty)] at h
    obtain ⟨heq, hrest⟩ := List.cons.inj h
    refine ⟨rest, ?_, hrest⟩
    rcases dropCR_append_eq_iff.mp heq with rfl | ⟨hlast, rfl⟩
    · exact .inl rfl
    · exact .inr ⟨hlast, rfl⟩
  · rintro ⟨rest, rfl | ⟨hlast, rfl⟩, hrest⟩
    · rw [nonEmptyLines_append_newline hline, hone, hrest, List.append_nil]
    · have hcr : newline ∉ line ++ [carriageReturn] := by
        rw [List.mem_append, not_or]
        exact ⟨hline, by decide⟩
      have heq : dropCR (line ++ [carriageReturn]) = dropCR line :=
        dropCR_append_eq_iff.mpr (.inr ⟨hlast, rfl⟩)
      rw [← List.singleton_append, ← List.append_assoc, nonEmptyLines_append_newline hcr, heq, hone,
        hrest, List.append_nil]

end Unfinished

end LineScanner
