import EdgeGuardian.Agent.Logfwd.Forwarder
import EdgeGuardian.Lib.LineScanner

/-!
# The file tailer of the agent

The tailer opens a file, goes to its end and reads the lines that are appended to it with one
`bufio.Scanner`. When the scanner has no more lines, the tailer waits for a while and asks it again.
But a scanner that has met the end of its input once never reads again: it returns what is left as a
line, and has no more lines for good.

Appends come between the parts of a scan in any way. A read returns some of the bytes that are
there, or the end of the input if there are none. The run begins when the file has been opened.

Source: `agent/internal/logfwd/file_reader.go`.

## Main definitions

* `FileTailer.State`, `FileTailer.Action`, `FileTailer.step`: the file and the loop of `Run`.
* `FileTailer.LinesShort`: no line is too long for the scanner.
* `FileTailer.MissesNothing`: the messages are the complete lines that were appended.
* `FileTailer.QuietAfterEnd`: nothing comes after the end that the scanner has met, but what ends
  the line that was unfinished.

## Main results

* `FileTailer.Inv.step`: what has been read, what the scanner holds, and the messages.
* `FileTailer.missesNothing_iff`: after a poll, nothing is missed if and only if `QuietAfterEnd`
  holds.
-/

namespace EdgeGuardian.Agent.Logfwd.FileTailer

open Transition LineScanner

/-! ### The loop -/

/-- `bufio.MaxScanTokenSize`. -/
def maxScanTokenSize : ℕ := 64 * 1024

/-- Where `Run` is. -/
inductive Pc
  /-- At the beginning of the loop. -/
  | looping
  /-- In `Scan`. -/
  | scanning
  | sleeping
  | returned
deriving DecidableEq, Repr

structure State where
  /-- What was appended to the file. -/
  file : List UInt8
  /-- How much of it was read. -/
  offset : ℕ
  /-- What the scanner holds. -/
  pending : List UInt8
  /-- The scanner has an error, which may be the end of the input. -/
  ended : Bool
  pc : Pc
  /-- The entries that were pushed to the forwarder. -/
  pushed : List Entry
  /-- Nothing was appended since `Scan` was called. -/
  current : Bool
  /-- The tailer has polled since the last append: a call of `Scan` after it has returned false. -/
  polled : Bool
deriving DecidableEq, Repr

/-- The file is open, and the tailer is at its end. -/
def State.initial : State where
  file := []
  offset := 0
  pending := []
  ended := false
  pc := .looping
  pushed := []
  current := false
  polled := false

inductive Action
  | append (bytes : List UInt8)
  /-- The tailer looks at its context, and calls `Scan` if it is not cancelled. -/
  | check (cancelled : Bool)
  /-- A read of the scanner returns up to `n` bytes, or the end of the input. -/
  | read (n : ℕ)
  /-- The scanner has no more room. -/
  | tooLong
  /-- `Scan` returns true. -/
  | token (now : Timestamp)
  /-- `Scan` returns false. -/
  | noMore
  | wake
deriving DecidableEq, Repr

/-- The entry for a line. -/
def entryFor (path : String) (line : List UInt8) (now : Timestamp) : Entry where
  timestamp := now
  level := "INFO"
  message := line
  source := "file:" ++ path

/-- One step. -/
def step (path : String) (s : State) : Action → Option State
  | .append bytes =>
    some { s with file := s.file ++ bytes, current := false, polled := false }
  | .check cancelled =>
    if s.pc = .looping then
      if cancelled then some { s with pc := .returned }
      else some { s with pc := .scanning, current := true }
    else none
  | .read n =>
    if s.pc = .scanning ∧ scanLines s.pending s.ended = none ∧ s.ended = false ∧
        s.pending.length < maxScanTokenSize then
      if s.offset = s.file.length then some { s with ended := true }
      else if 0 < n ∧ s.offset + n ≤ s.file.length then
        some { s with
          offset := s.offset + n
          pending := s.pending ++ (s.file.drop s.offset).take n }
      else none
    else none
  | .tooLong =>
    if s.pc = .scanning ∧ scanLines s.pending s.ended = none ∧ s.ended = false ∧
        maxScanTokenSize ≤ s.pending.length then
      some { s with ended := true, pc := .sleeping, polled := s.current }
    else none
  | .token now =>
    if s.pc = .scanning then
      (scanLines s.pending s.ended).map fun (line, rest) =>
        { s with
          pending := rest
          pc := .looping
          pushed := if line = [] then s.pushed else s.pushed ++ [entryFor path line now] }
    else none
  | .noMore =>
    if s.pc = .scanning ∧ scanLines s.pending s.ended = none ∧ s.ended = true then
      some { s with pc := .sleeping, polled := s.current }
    else none
  | .wake => if s.pc = .sleeping then some { s with pc := .looping } else none

/-! ### What the tailer is for -/

/-- What the scanner has read. -/
def State.seen (s : State) : List UInt8 := s.file.take s.offset

/-- What the scanner has not read. -/
def State.unseen (s : State) : List UInt8 := s.file.drop s.offset

/-- The messages that were pushed. -/
def State.messages (s : State) : List (List UInt8) := s.pushed.map Entry.message

/-- The messages are the complete lines that were appended and are not empty, in order. -/
def MissesNothing (s : State) : Prop := s.messages = nonEmptyLines s.file

/-- Every line of a text is shorter than the limit of the scanner. -/
def ShortLines (text : List UInt8) : Prop :=
  ∀ line ∈ text.splitOn newline, line.length < maxScanTokenSize

instance (text : List UInt8) : Decidable (ShortLines text) :=
  inferInstanceAs (Decidable (∀ _ ∈ _, _))

/-- An append leaves no line that is too long. -/
def LinesShort (s : State) : Action → Prop
  | .append bytes => ShortLines (s.file ++ bytes)
  | _ => True

instance (s : State) (a : Action) : Decidable (LinesShort s a) := by
  cases a <;> unfold LinesShort <;> infer_instance

/-- Behind the end of the input that the scanner has met, there is no complete line that is not
empty, or only the end of the line that was unfinished there. -/
def QuietAfterEnd (s : State) : Prop :=
  (dropCR (unfinished s.seen) = [] ∧ nonEmptyLines (unfinished s.seen ++ s.unseen) = []) ∨
    (dropCR (unfinished s.seen) ≠ [] ∧ EndsLine (unfinished s.seen) s.unseen)

/-! ### The invariant -/

/-- The lines that were taken off, and the line after them: the scanner holds it, or it has returned
it at the end of the input. -/
structure Taken (s : State) (lines : List (List UInt8)) (line : List UInt8) : Prop where
  scanned : Scanned s.seen lines line
  unfinished : s.ended = true → newline ∉ line
  messages : (s.pending = line ∧ s.messages = lines.flatMap fun l => nonEmpty (dropCR l)) ∨
    (s.ended = true ∧ s.pending = [] ∧
      s.messages = (lines.flatMap fun l => nonEmpty (dropCR l)) ++ nonEmpty (dropCR line))

structure Inv (s : State) : Prop where
  offset_le : s.offset ≤ s.file.length
  short : ShortLines s.file
  taken : ∃ lines line, Taken s lines line
  polled : s.polled = true → s.ended = true ∧ s.pending = []

theorem inv_initial : Inv State.initial where
  offset_le := le_rfl
  short := by decide
  taken := ⟨[], [], .nil, nofun, .inl ⟨rfl, rfl⟩⟩
  polled := nofun

section Invariant

variable {path : String} {s s' : State}

theorem messages_token (s : State) (path : String) (line : List UInt8) (now : Timestamp) :
    (if line = [] then s.pushed else s.pushed ++ [entryFor path line now]).map Entry.message =
      s.messages ++ nonEmpty line := by
  rw [State.messages, nonEmpty]
  split_ifs
  · rw [List.append_nil]
  · rw [List.map_append]
    rfl

theorem Inv.append (hs : Inv s) {bytes : List UInt8} (hshort : ShortLines (s.file ++ bytes)) :
    Inv { s with file := s.file ++ bytes, current := false, polled := false } where
  offset_le := hs.offset_le.trans (by simp)
  short := hshort
  taken := by
    obtain ⟨lines, line, htaken⟩ := hs.taken
    refine ⟨lines, line, ?_, htaken.unfinished, htaken.messages⟩
    rw [State.seen, List.take_append_of_le_length hs.offset_le]
    exact htaken.scanned
  polled h := by cases h

/-- The scanner goes on with what it holds. -/
theorem Inv.eq_pending (hs : Inv s) (hended : s.ended = false) :
    ∃ lines, Scanned s.seen lines s.pending ∧
      s.messages = lines.flatMap fun l => nonEmpty (dropCR l) := by
  obtain ⟨lines, line, htaken⟩ := hs.taken
  rcases htaken.messages with ⟨rfl, hmessages⟩ | ⟨htrue, -⟩
  · exact ⟨lines, htaken.scanned, hmessages⟩
  · rw [hended] at htrue
    cases htrue

/-- The end of the input. -/
theorem Inv.readEnd (hs : Inv s) (hended : s.ended = false)
    (hnone : scanLines s.pending s.ended = none) : Inv { s with ended := true } where
  offset_le := hs.offset_le
  short := hs.short
  taken := by
    obtain ⟨lines, hscanned, hmessages⟩ := hs.eq_pending hended
    exact ⟨lines, s.pending, hscanned, fun _ => (scanLines_eq_none hnone).1, .inl ⟨rfl, hmessages⟩⟩
  polled h := by
    have htrue := (hs.polled h).1
    rw [hended] at htrue
    cases htrue

theorem Inv.read (hs : Inv s) (hended : s.ended = false) {n : ℕ}
    (hn : s.offset + n ≤ s.file.length) :
    Inv { s with
      offset := s.offset + n
      pending := s.pending ++ (s.file.drop s.offset).take n } where
  offset_le := hn
  short := hs.short
  taken := by
    obtain ⟨lines, hscanned, hmessages⟩ := hs.eq_pending hended
    refine ⟨lines, _, ?_, fun htrue => ?_, .inl ⟨rfl, hmessages⟩⟩
    · rw [State.seen, List.take_add]
      exact hscanned.more _
    · rw [hended] at htrue
      cases htrue
  polled h := by
    have htrue := (hs.polled h).1
    rw [hended] at htrue
    cases htrue

/-- What the scanner holds is the beginning of a line. -/
theorem Inv.length_pending_lt (hs : Inv s) (hended : s.ended = false)
    (hnone : scanLines s.pending s.ended = none) : s.pending.length < maxScanTokenSize := by
  obtain ⟨lines, hscanned, -⟩ := hs.eq_pending hended
  have hfile : s.file = s.seen ++ s.unseen := (List.take_append_drop _ _).symm
  have hpieces := (hscanned.more s.unseen).splitOn_eq
  rw [← hfile] at hpieces
  obtain ⟨piece, hpiece, hle⟩ :=
    exists_length_le_of_mem_splitOn (scanLines_eq_none hnone).1 s.unseen
  exact hle.trans_lt (hs.short piece (hpieces ▸ List.mem_append_right lines hpiece))

theorem Inv.token (hs : Inv s) {line rest : List UInt8}
    (hscan : scanLines s.pending s.ended = some (line, rest)) (path : String) (now : Timestamp) :
    Inv { s with
      pending := rest
      pc := .looping
      pushed := if line = [] then s.pushed else s.pushed ++ [entryFor path line now] } where
  offset_le := hs.offset_le
  short := hs.short
  taken := by
    obtain ⟨lines, left, htaken⟩ := hs.taken
    rcases htaken.messages with ⟨rfl, hmessages⟩ | ⟨-, hnil, -⟩
    · rcases scanLines_eq_some hscan with ⟨first, hfirst, hpending, rfl⟩ | ⟨hno, heof, rfl, rfl⟩
      · refine ⟨lines ++ [first], rest, ?_, fun hended => ?_, .inl ⟨rfl, ?_⟩⟩
        · have hscanned := htaken.scanned
          rw [hpending] at hscanned
          exact hscanned.next hfirst
        · have hno := htaken.unfinished hended
          rw [hpending] at hno
          exact absurd (by simp) hno
        · rw [State.messages, messages_token, hmessages, List.flatMap_append,
            List.flatMap_singleton]
      · refine ⟨lines, s.pending, htaken.scanned, fun _ => hno, .inr ⟨heof, rfl, ?_⟩⟩
        rw [State.messages, messages_token, hmessages]
    · rw [hnil, scanLines_nil] at hscan
      cases hscan
  polled h := by
    rw [(hs.polled h).2, scanLines_nil] at hscan
    cases hscan

theorem Inv.noMore (hs : Inv s) (hended : s.ended = true)
    (hnone : scanLines s.pending s.ended = none) :
    Inv { s with pc := .sleeping, polled := s.current } where
  offset_le := hs.offset_le
  short := hs.short
  taken := by
    obtain ⟨lines, line, htaken⟩ := hs.taken
    exact ⟨lines, line, htaken.scanned, htaken.unfinished, htaken.messages⟩
  polled _ := ⟨hended, (scanLines_eq_none hnone).2 hended⟩

/-- Where the tailer is makes no difference. -/
theorem Inv.moved (hs : Inv s) (pc : Pc) (current : Bool) :
    Inv { s with pc := pc, current := current } where
  offset_le := hs.offset_le
  short := hs.short
  taken := by
    obtain ⟨lines, line, htaken⟩ := hs.taken
    exact ⟨lines, line, htaken.scanned, htaken.unfinished, htaken.messages⟩
  polled := hs.polled

theorem Inv.step (hs : Inv s) {a : Action} (hok : LinesShort s a)
    (h : FileTailer.step path s a = some s') : Inv s' := by
  cases a with
  | append bytes =>
    cases h
    exact hs.append hok
  | check cancelled =>
    simp only [FileTailer.step] at h
    split_ifs at h <;> cases h
    · exact hs.moved .returned s.current
    · exact hs.moved .scanning true
  | read n =>
    simp only [FileTailer.step] at h
    split_ifs at h with hscan hend hn <;> cases h
    · exact hs.readEnd hscan.2.2.1 hscan.2.1
    · exact hs.read hscan.2.2.1 hn.2
  | tooLong =>
    simp only [FileTailer.step] at h
    split_ifs at h with hscan
    obtain ⟨-, hnone, hended, hlong⟩ := hscan
    exact absurd (hs.length_pending_lt hended hnone) (Nat.not_lt.mpr hlong)
  | token now =>
    simp only [FileTailer.step] at h
    by_cases hpc : s.pc = .scanning
    · rw [if_pos hpc] at h
      obtain ⟨⟨line, rest⟩, hscan, heq⟩ := Option.map_eq_some_iff.mp h
      subst heq
      exact hs.token hscan path now
    · rw [if_neg hpc] at h
      cases h
  | noMore =>
    simp only [FileTailer.step] at h
    split_ifs at h with hscan
    cases h
    exact hs.noMore hscan.2.2 hscan.2.1
  | wake =>
    simp only [FileTailer.step] at h
    split_ifs at h
    cases h
    exact hs.moved .looping s.current

theorem inv_of_reaches (h : Reaches (FileTailer.step path) LinesShort State.initial s) : Inv s :=
  h.invariant Inv (fun hs hok hstep => hs.step hok hstep) inv_initial

end Invariant

/-! ### What is missed -/

section Results

variable {path : String} {s : State}

/-- After a poll, the messages are the lines that were taken off and the one that was unfinished. -/
theorem Taken.messages_of_polled {lines : List (List UInt8)} {line : List UInt8}
    (h : Taken s lines line) (hpending : s.pending = []) :
    s.messages = (lines.flatMap fun l => nonEmpty (dropCR l)) ++ nonEmpty (dropCR line) := by
  rcases h.messages with ⟨rfl, hmessages⟩ | ⟨-, -, hmessages⟩
  · rw [hmessages, hpending]
    exact (List.append_nil _).symm
  · exact hmessages

/-- **After a poll, nothing is missed** if and only if nothing comes after the end that the scanner
has met, but what ends the line that was unfinished there. -/
theorem missesNothing_iff (h : Reaches (step path) LinesShort State.initial s)
    (hpolled : s.polled = true) : MissesNothing s ↔ QuietAfterEnd s := by
  have hs := inv_of_reaches h
  obtain ⟨hended, hpending⟩ := hs.polled hpolled
  obtain ⟨lines, line, htaken⟩ := hs.taken
  have hline : newline ∉ line := htaken.unfinished hended
  have hunfinished : LineScanner.unfinished s.seen = line := by
    rw [htaken.scanned.unfinished_eq, unfinished_of_not_mem hline]
  have hfile : nonEmptyLines s.file =
      (lines.flatMap fun l => nonEmpty (dropCR l)) ++ nonEmptyLines (line ++ s.unseen) := by
    rw [← (htaken.scanned.more s.unseen).nonEmptyLines_eq, State.seen, State.unseen,
      List.take_append_drop]
  rw [MissesNothing, hfile, htaken.messages_of_polled hpending, List.append_right_inj, eq_comm,
    nonEmptyLines_append_eq_iff hline, QuietAfterEnd, hunfinished]

/-- A line and a half are there at the first poll, and the second half is a line feed. -/
theorem missesNothing_iff_line_feed : ∃ s,
    Reaches (step "/var/log/syslog") LinesShort State.initial s ∧ s.polled = true ∧
      s.file = [97, 10, 98, 10] ∧ MissesNothing s := by
  obtain ⟨s, hs, hpolled, hfile, hoffset⟩ : ∃ s,
      Reaches (step "/var/log/syslog") LinesShort State.initial s ∧ s.polled = true ∧
        s.file = [97, 10, 98, 10] ∧ s.offset = 3 :=
    exists_reaches_of_execBy
      [.append [97, 10], .check false, .read 1, .append [98], .read 2, .token ⟨2025, 0, 0⟩,
        .check false, .read 1, .token ⟨2025, 0, 0⟩, .check false, .noMore, .append [10], .wake,
        .check false, .noMore]
      ⟨_, rfl, by decide, by decide, by decide⟩
  refine ⟨s, hs, hpolled, hfile, (missesNothing_iff hs hpolled).mpr (.inr ?_)⟩
  rw [State.seen, State.unseen, hfile, hoffset]
  exact ⟨by decide, [], .inl rfl, by decide⟩

/-- The first poll finds nothing, and a line that is appended after it is missed for good. -/
theorem not_missesNothing : ∃ s,
    Reaches (step "/var/log/syslog") LinesShort State.initial s ∧ s.polled = true ∧
      s.file = [104, 105, 10] ∧ s.messages = [] ∧ ¬ MissesNothing s := by
  obtain ⟨s, hs, hpolled, hfile, hmessages⟩ : ∃ s,
      Reaches (step "/var/log/syslog") LinesShort State.initial s ∧ s.polled = true ∧
        s.file = [104, 105, 10] ∧ s.messages = [] :=
    exists_reaches_of_execBy
      [.check false, .read 1, .noMore, .append [104, 105, 10], .wake, .check false, .noMore]
      ⟨_, rfl, by decide, by decide, by decide⟩
  refine ⟨s, hs, hpolled, hfile, hmessages, fun h => ?_⟩
  rw [MissesNothing, hmessages, hfile] at h
  exact absurd h (by decide)

end Results

end EdgeGuardian.Agent.Logfwd.FileTailer
