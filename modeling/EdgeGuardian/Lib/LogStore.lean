import EdgeGuardian.Lib.LogQl
import EdgeGuardian.Lib.Utf8Search
import Mathlib.Data.List.Infix
import Mathlib.Data.List.Nodup
import Mathlib.Data.List.Perm.Subperm
import Mathlib.Data.List.Sort

/-!
# A store of log lines

A log store keeps lines with their times, in streams that are told apart by labels. The same line of
one stream at the same time is kept once. A query is answered with the lines of a window of time
that it accepts, stream by stream; if these are more than a limit, with the newest ones of them.

## Main definitions

* `LogQl.Record`, `LogQl.store`: what is kept, and what is kept after more lines have come.
* `LogQl.Query.accepts`: the lines that a query accepts.
* `LogQl.Answers`, `LogQl.answer`: the streams are an answer to a query, and one of the answers.

## Main results

* `LogQl.mem_store_iff`, `LogQl.nodup_store`: nothing is lost, and nothing is kept twice.
* `LogQl.answers_answer`: every query has an answer.
* `LogQl.Answers.mem_iff`, `LogQl.Answers.full`: an answer below the limit has every line that is
  accepted, and a line that is left out is no newer than those in the answer.
-/

namespace LogQl

open GoString

/-! ### What is kept -/

/-- The labels of a stream, with their values. -/
abbrev Labels := List (List Char × List UInt8)

/-- A line of a stream. -/
structure Record where
  labels : Labels
  /-- In nanoseconds. -/
  time : ℤ
  line : List UInt8
deriving DecidableEq, Repr

/-- What is kept after `new` has come. -/
def store (stored new : List Record) : List Record :=
  new.foldl (fun stored r => if r ∈ stored then stored else stored ++ [r]) stored

variable {stored new : List Record} {r : Record}

theorem mem_store_iff : r ∈ store stored new ↔ r ∈ stored ∨ r ∈ new := by
  induction new generalizing stored with
  | nil => simp [store]
  | cons r' new ih =>
    rw [store, List.foldl_cons, ← store, ih]
    split_ifs with hmem
    · rw [List.mem_cons]
      constructor
      · rintro (h | h)
        exacts [.inl h, .inr (.inr h)]
      · rintro (h | rfl | h)
        exacts [.inl h, .inl hmem, .inr h]
    · simp [or_assoc]

theorem nodup_store (h : stored.Nodup) : (store stored new).Nodup := by
  induction new generalizing stored with
  | nil => exact h
  | cons r' new ih =>
    rw [store, List.foldl_cons, ← store]
    split_ifs with hmem
    · exact ih h
    · refine ih (List.nodup_append.mpr ⟨h, List.nodup_singleton r', ?_⟩)
      rintro r hr _ hr' rfl
      exact hmem (List.mem_singleton.mp hr' ▸ hr)

/-! ### What a query accepts -/

/-- How a regular expression is matched with a text as a whole, and with a part of it. -/
structure Regexes where
  whole : List UInt8 → List UInt8 → Bool
  within : List UInt8 → List UInt8 → Bool

/-- The value of a label, which is empty where there is none. -/
def Labels.value (labels : Labels) (name : List Char) : List UInt8 :=
  ((labels.find? fun label => label.1 = name).map Prod.snd).getD []

def Matcher.accepts (re : Regexes) (m : Matcher) (labels : Labels) : Bool :=
  match m.comparison with
  | .equal => labels.value m.name = m.value
  | .notEqual => labels.value m.name ≠ m.value
  | .regex => re.whole m.value (labels.value m.name)
  | .notRegex => !re.whole m.value (labels.value m.name)

def LineFilter.accepts (re : Regexes) (f : LineFilter) (line : List UInt8) : Bool :=
  match f.comparison with
  | .equal => f.value <:+: line
  | .notEqual => ¬ f.value <:+: line
  | .regex => re.within f.value line
  | .notRegex => !re.within f.value line

def Query.accepts (re : Regexes) (q : Query) (r : Record) : Bool :=
  (q.matchers.all fun m => m.accepts re r.labels) && q.filters.all fun f => f.accepts re r.line

/-- A line is searched for a text character by character. -/
theorem LineFilter.accepts_utf8 {re : Regexes} {cs ds : List Char} :
    (LineFilter.mk .equal (utf8 cs)).accepts re (utf8 ds) ↔ cs <:+: ds := by
  rw [LineFilter.accepts, decide_eq_true_iff, utf8_isInfix_iff]

/-! ### Answers -/

/-- A stream of an answer. -/
structure Stream where
  labels : Labels
  values : List (ℤ × List UInt8)
deriving DecidableEq, Repr

def Stream.records (s : Stream) : List Record := s.values.map fun v => ⟨s.labels, v.1, v.2⟩

/-- The lines of a window that a query accepts. -/
def matching (re : Regexes) (q : Query) (start stop : ℤ) (stored : List Record) : List Record :=
  stored.filter fun r => start ≤ r.time ∧ r.time < stop ∧ q.accepts re r

/-- The streams are an answer to a query: lines that it accepts, all of them or as many as the
limit, and then the newest ones. -/
structure Answers (re : Regexes) (q : Query) (start stop : ℤ) (limit : ℕ) (stored : List Record)
    (streams : List Stream) : Prop where
  subperm : (streams.flatMap Stream.records).Subperm (matching re q start stop stored)
  length : (streams.flatMap Stream.records).length =
    min limit (matching re q start stop stored).length
  newest : ∀ r ∈ matching re q start stop stored, r ∉ streams.flatMap Stream.records →
    ∀ r' ∈ streams.flatMap Stream.records, r.time ≤ r'.time

namespace Answers

variable {re : Regexes} {q : Query} {start stop : ℤ} {limit : ℕ} {streams : List Stream}

/-- An answer below the limit has every line that is accepted. -/
theorem mem_iff (h : Answers re q start stop limit stored streams)
    (hlt : (streams.flatMap Stream.records).length < limit) :
    r ∈ streams.flatMap Stream.records ↔ r ∈ matching re q start stop stored := by
  have hle : (matching re q start stop stored).length ≤
      (streams.flatMap Stream.records).length := by
    have hlength := h.length
    omega
  exact (h.subperm.perm_of_length_le hle).mem_iff

/-- Where a line is left out, the limit is reached. -/
theorem full (h : Answers re q start stop limit stored streams)
    (hr : r ∈ matching re q start stop stored) (hnot : r ∉ streams.flatMap Stream.records) :
    (streams.flatMap Stream.records).length = limit := by
  have hle : limit ≤ (streams.flatMap Stream.records).length := by
    by_contra hlt
    exact hnot ((h.mem_iff (Nat.not_le.mp hlt)).mpr hr)
  have hlength := h.length
  omega

theorem nodup (h : Answers re q start stop limit stored streams) (hstored : stored.Nodup) :
    (streams.flatMap Stream.records).Nodup := by
  obtain ⟨shown, hperm, hsublist⟩ := h.subperm
  exact hperm.nodup_iff.mp ((hstored.filter _).sublist hsublist)

end Answers

/-! ### An answer -/

/-- The lines that are accepted, newest first and up to the limit, each in a stream of its own. -/
def answer (re : Regexes) (q : Query) (start stop : ℤ) (limit : ℕ) (stored : List Record) :
    List Stream :=
  (((matching re q start stop stored).insertionSort fun r r' => r'.time ≤ r.time).take limit).map
    fun r => ⟨r.labels, [(r.time, r.line)]⟩

variable {re : Regexes} {q : Query} {start stop : ℤ} {limit : ℕ}

theorem flatMap_answer : (answer re q start stop limit stored).flatMap Stream.records =
    ((matching re q start stop stored).insertionSort fun r r' => r'.time ≤ r.time).take limit := by
  rw [answer, List.flatMap_map]
  exact List.flatMap_singleton' _

/-- **Every query has an answer.** -/
theorem answers_answer :
    Answers re q start stop limit stored (answer re q start stop limit stored) := by
  have hperm := List.perm_insertionSort (fun r r' : Record => r'.time ≤ r.time)
    (matching re q start stop stored)
  refine ⟨?_, ?_, ?_⟩
  · rw [flatMap_answer]
    exact (List.take_sublist _ _).subperm.trans hperm.subperm
  · rw [flatMap_answer, List.length_take, hperm.length_eq]
  · rw [flatMap_answer]
    intro r hr hnot r' hr'
    have hsorted := List.pairwise_insertionSort (fun r r' : Record => r'.time ≤ r.time)
      (matching re q start stop stored)
    rw [← List.take_append_drop limit (List.insertionSort _ _), List.pairwise_append] at hsorted
    refine hsorted.2.2 r' hr' r ?_
    -- what is not among the first ones is among the others
    have hmem := hperm.mem_iff.mpr hr
    rw [← List.take_append_drop limit (List.insertionSort _ _), List.mem_append] at hmem
    exact hmem.resolve_left hnot

end LogQl
