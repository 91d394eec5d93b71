import EdgeGuardian.Lib.FileStore
import Mathlib.Data.List.Induction
import Mathlib.Order.Nat
import Mathlib.Tactic.SplitIfs

/-!
# The watchdog of the agent

The watchdog starts the agent again whenever it exits. On exit code 42 it puts the staged binary in
the place of the active one and keeps the old one as a backup. A crash that is the next exit after a
swap, and a number of crashes within a window of time, make it put the backup back. There is one
backup and one flag for both reasons. A rename succeeds whenever its source exists.

The binaries are values of an arbitrary type. What the agent has left in the staging file at its
exit, and the time of the exit, are given with the exit. The watchdog may be stopped by a signal
before any turn; the results are about every number of turns.

Source: `agent/cmd/watchdog/main.go`.

## Main definitions

* `Watchdog.swapBinary`, `Watchdog.rollback`: the files after a swap and after a rollback.
* `Watchdog.State`, `Watchdog.turn`: one turn of the main loop.
* `Watchdog.history`, `Watchdog.lastSwap`: what the turns have done.
* `Watchdog.SwapsAndRollbacks`: what holds along every sequence of exits.

## Main results

* `Watchdog.turn_cases`: what a turn does to the binaries.
* `Watchdog.swaps_and_rollbacks`: swaps and rollbacks along every sequence of exits.
-/

namespace EdgeGuardian.Agent.Watchdog

/-! ### The files -/

/-- The files that the watchdog renames. -/
inductive Path
  /-- `agentBinary`. -/
  | agent
  /-- `agentBinary + ".bak"`. -/
  | bak
  /-- `agentBinary + ".failed"`. -/
  | failed
  /-- `agent-staging` in the data directory. -/
  | staging
deriving DecidableEq, Repr

/-- The binaries at the paths. -/
abbrev Files (β : Type*) := Path → Option β

/-- The errors of `swapBinary`. -/
inductive SwapError
  /-- `staging binary not found at %s` -/
  | stagingNotFound
  /-- `backup current binary: %w` -/
  | backup
  /-- `swap staging binary: %w` -/
  | swap
deriving DecidableEq, Repr

/-- The errors of `rollback`. -/
inductive RollbackError
  /-- `no backup binary found at %s` -/
  | noBackup
  /-- `restore backup: %w` -/
  | restore
deriving DecidableEq, Repr

section Files

variable {β : Type*}

/-- `os.Rename`, which fails where there is no source. -/
def rename (source target : Path) (files : Files β) : Option (Files β) :=
  if (files source).isSome then some ((FileStore.Op.rename source target).apply files) else none

/-- `swapBinary`: its error, if any, and the files after it. -/
def swapBinary (files : Files β) : Option SwapError × Files β :=
  if (files .staging).isNone then (some .stagingNotFound, files)
  else
    match rename .agent .bak files with
    | none => (some .backup, files)
    | some backedUp =>
      match rename .staging .agent backedUp with
      | none => (some .swap, (rename .bak .agent backedUp).getD backedUp)
      | some swapped => (none, swapped)

/-- `rollback`: its error, if any, and the files after it. A failed binary that cannot be renamed is
only reported. -/
def rollback (files : Files β) : Option RollbackError × Files β :=
  if (files .bak).isNone then (some .noBackup, files)
  else
    let moved := (rename .agent .failed files).getD files
    match rename .bak .agent moved with
    | none => (some .restore, moved)
    | some restored => (none, restored)

variable {files : Files β} {a b : β}

theorem rename_of_some {source : Path} (target : Path) (h : files source = some b) :
    rename source target files =
      some (Function.update (Function.update files source none) target (some b)) := by
  rw [rename, h, Option.isSome_some, if_pos rfl, FileStore.Op.apply, h]

/-- A swap puts the staged binary in place, and keeps the active one as the backup. -/
theorem swapBinary_of_staged (hagent : files .agent = some a) (hstaging : files .staging = some b) :
    (swapBinary files).1 = none ∧ (swapBinary files).2 .agent = some b ∧
      (swapBinary files).2 .bak = some a := by
  have hstill : (Function.update (Function.update files Path.agent none) Path.bak (some a))
      Path.staging = some b := by simp [hstaging]
  have hswap : swapBinary files = (none, Function.update (Function.update (Function.update
      (Function.update files Path.agent none) Path.bak (some a)) Path.staging none)
      Path.agent (some b)) := by
    simp only [swapBinary, hstaging, Option.isNone_some, Bool.false_eq_true, if_false,
      rename_of_some .bak hagent, rename_of_some .agent hstill]
  rw [hswap]
  simp

theorem swapBinary_of_not_staged (hstaging : files .staging = none) :
    swapBinary files = (some .stagingNotFound, files) := by
  rw [swapBinary, hstaging, Option.isNone_none, if_pos rfl]

/-- A rollback puts the backup in place, and leaves no backup. -/
theorem rollback_of_bak (hagent : files .agent = some a) (hbak : files .bak = some b) :
    (rollback files).1 = none ∧ (rollback files).2 .agent = some b ∧
      (rollback files).2 .bak = none := by
  have hstill : (Function.update (Function.update files Path.agent none) Path.failed (some a))
      Path.bak = some b := by simp [hbak]
  have hrollback : rollback files = (none, Function.update (Function.update (Function.update
      (Function.update files Path.agent none) Path.failed (some a)) Path.bak none)
      Path.agent (some b)) := by
    simp only [rollback, hbak, Option.isNone_some, Bool.false_eq_true, if_false,
      rename_of_some .failed hagent, Option.getD_some, rename_of_some .agent hstill]
  rw [hrollback]
  simp

theorem rollback_of_no_bak (hbak : files .bak = none) :
    rollback files = (some .noBackup, files) := by
  rw [rollback, hbak, Option.isNone_none, if_pos rfl]

end Files

/-! ### The main loop -/

/-- `initialBackoff`, in milliseconds. -/
def initialBackoff : ℕ := 1000

/-- `maxBackoff`, in milliseconds. -/
def maxBackoff : ℕ := 5 * 60000

/-- `otaExitCode`. -/
def otaExitCode : ℤ := 42

/-- `crashThreshold`. -/
def crashThreshold : ℕ := 3

/-- `crashWindow`, in milliseconds. -/
def crashWindow : ℕ := 5 * 60000

/-- The files and the variables of the main loop; `rollbackMarker` is the time in the file
`ota-rollback-marker`. -/
structure State (β : Type*) where
  files : Files β
  backoff : ℕ
  crashTimes : List ℕ
  justSwapped : Bool
  rollbackMarker : Option ℕ

/-- An exit of the agent: its code, which is 0 if `cmd.Run` returns no error, the staging file that
it leaves, and the time. -/
structure Exit (β : Type*) where
  code : ℤ
  staged : Option β
  now : ℕ
deriving DecidableEq, Repr

/-- What a turn of the loop has done about the binaries. -/
inductive Did
  | swapped
  | swapFailed (e : SwapError)
  | rolledBack
  | rollbackFailed (e : RollbackError)
  | restarted
deriving DecidableEq, Repr

/-- The exit is a crash. -/
def Exit.Crash {β : Type*} (x : Exit β) : Prop := x.code ≠ otaExitCode ∧ x.code ≠ 0

section Turns

variable {β : Type*}

/-- The crash times that are within the window. -/
def pruned (now : ℕ) (crashTimes : List ℕ) : List ℕ :=
  crashTimes.filter fun t => now < t + crashWindow

/-- A rollback, with its marker and the crash times after it. -/
def rolledBack (s : State β) (now : ℕ) : Did × State β :=
  match rollback s.files with
  | (none, files) =>
    (.rolledBack, { s with files := files, rollbackMarker := some now, crashTimes := [] })
  | (some e, files) => (.rollbackFailed e, { s with files := files })

/-- The turn after a crash. -/
def crashed (s : State β) (now : ℕ) : Did × State β :=
  if s.justSwapped then
    let r := rolledBack s now
    (r.1, { r.2 with justSwapped := false, backoff := initialBackoff })
  else
    let s := { s with crashTimes := pruned now (s.crashTimes ++ [now]) }
    let r := if crashThreshold ≤ s.crashTimes.length then rolledBack s now else (.restarted, s)
    (r.1, { r.2 with backoff := min (2 * s.backoff) maxBackoff })

/-- The files as the agent leaves them. -/
def State.leave (s : State β) (staged : Option β) : State β :=
  { s with files := Function.update s.files .staging staged }

/-- One turn of the loop, from the exit of the agent to its next start. -/
def turn (s : State β) (x : Exit β) : Did × State β :=
  let s := s.leave x.staged
  if x.code = otaExitCode then
    match swapBinary s.files with
    | (none, files) =>
      (.swapped, { s with files := files, justSwapped := true, backoff := initialBackoff })
    | (some e, files) => (.swapFailed e, { s with files := files, backoff := initialBackoff })
  else if x.code ≠ 0 then crashed s x.now
  else (.restarted, { s with justSwapped := false, backoff := initialBackoff })

/-- The state after some exits. -/
def after (s : State β) (xs : List (Exit β)) : State β := xs.foldl (fun s x => (turn s x).2) s

/-- The active binary before a turn, and what the turn has done. -/
structure Turn (β : Type*) where
  active : Option β
  did : Did
deriving DecidableEq, Repr

/-- The turns of some exits. -/
def history (s : State β) : List (Exit β) → List (Turn β)
  | [] => []
  | x :: xs => ⟨s.files .agent, (turn s x).1⟩ :: history (turn s x).2 xs

/-- The most recent successful swap. -/
def lastSwap (turns : List (Turn β)) : Option (Turn β) :=
  (turns.filter fun t => t.did = .swapped).getLast?

/-- What holds along every sequence of exits. -/
structure SwapsAndRollbacks (s₀ : State β) : Prop where
  /-- There is an active binary whenever the agent is started. -/
  started : ∀ xs, ((after s₀ xs).files .agent).isSome
  /-- A rollback installs the binary that was active before the most recent swap. -/
  restores : ∀ xs x, (turn (after s₀ xs) x).1 = .rolledBack →
    ∃ t, lastSwap (history s₀ xs) = some t ∧ (turn (after s₀ xs) x).2.files .agent = t.active
  /-- Turns among which there is no swap have at most one rollback. -/
  once : ∀ xs ys, (∀ t ∈ history (after s₀ xs) ys, t.did ≠ .swapped) →
    (history (after s₀ xs) ys).countP (fun t => t.did = .rolledBack) ≤ 1
  /-- A crash that is the next exit after a swap rolls it back. -/
  immediate : ∀ xs x y, (turn (after s₀ xs) x).1 = .swapped → y.Crash →
    (turn (after s₀ (xs ++ [x])) y).1 = .rolledBack ∧
      (turn (after s₀ (xs ++ [x])) y).2.files .agent = (after s₀ xs).files .agent

/-! ### What a turn does -/

variable {s s₀ : State β} {x : Exit β} {a : β}

/-- A rollback succeeds iff there is a backup. -/
theorem rolledBack_cases (hagent : s.files .agent = some a) (now : ℕ) :
    (∃ b, s.files .bak = some b ∧ (rolledBack s now).1 = .rolledBack ∧
        (rolledBack s now).2.files .agent = some b ∧ (rolledBack s now).2.files .bak = none) ∨
      s.files .bak = none ∧ (rolledBack s now).1 = .rollbackFailed .noBackup ∧
        (rolledBack s now).2 = s := by
  rcases hbak : s.files .bak with _ | b
  · refine .inr ⟨rfl, ?_⟩
    rw [rolledBack, rollback_of_no_bak hbak]
    exact ⟨rfl, rfl⟩
  · obtain ⟨hok, hnew, hnone⟩ := rollback_of_bak hagent hbak
    have hpair : rollback s.files = (none, (rollback s.files).2) := by rw [← hok]
    rw [rolledBack, hpair]
    exact .inl ⟨b, rfl, rfl, hnew, hnone⟩

@[simp] theorem justSwapped_rolledBack (now : ℕ) :
    (rolledBack s now).2.justSwapped = s.justSwapped := by
  rw [rolledBack]
  split <;> rfl

/-- What the turn after a crash does. -/
theorem crashed_cases (hagent : s.files .agent = some a) (now : ℕ) :
    (∃ b, s.files .bak = some b ∧ (crashed s now).1 = .rolledBack ∧
        (crashed s now).2.files .agent = some b ∧ (crashed s now).2.files .bak = none) ∨
      (crashed s now).1 ≠ .swapped ∧ (crashed s now).1 ≠ .rolledBack ∧
        (crashed s now).2.files = s.files := by
  rw [crashed]
  by_cases hjust : s.justSwapped
  · rw [if_pos hjust]
    rcases rolledBack_cases hagent now with h | ⟨-, hdid, hsame⟩
    · exact .inl h
    · refine .inr ⟨?_, ?_, ?_⟩
      · simp [hdid]
      · simp [hdid]
      · simp [hsame]
  · rw [if_neg hjust]
    by_cases hthreshold : crashThreshold ≤ (pruned now (s.crashTimes ++ [now])).length
    · simp only [if_pos hthreshold]
      rcases rolledBack_cases (s := { s with crashTimes := pruned now (s.crashTimes ++ [now]) })
        hagent now with h | ⟨-, hdid, hsame⟩
      · exact .inl h
      · refine .inr ⟨?_, ?_, ?_⟩
        · simp [hdid]
        · simp [hdid]
        · simp [hsame]
    · simp only [if_neg hthreshold]
      exact .inr ⟨by simp, by simp, trivial⟩

theorem justSwapped_crashed (now : ℕ) : (crashed s now).2.justSwapped = false := by
  rw [crashed]
  split_ifs with hjust
  · rfl
  · rw [Bool.not_eq_true] at hjust
    dsimp only
    split_ifs
    · rw [justSwapped_rolledBack]
      exact hjust
    · exact hjust

@[simp] theorem agent_leave (staged : Option β) :
    (s.leave staged).files .agent = s.files .agent := by
  simp [State.leave]

@[simp] theorem bak_leave (staged : Option β) : (s.leave staged).files .bak = s.files .bak := by
  simp [State.leave]

@[simp] theorem staging_leave (staged : Option β) :
    (s.leave staged).files .staging = staged := by
  simp [State.leave]

/-- **What a turn does to the binaries.** It swaps and keeps the active binary as the backup, or it
installs the backup and leaves none, or it leaves both as they are. -/
theorem turn_cases (hagent : s.files .agent = some a) (x : Exit β) :
    (∃ b, (turn s x).1 = .swapped ∧ (turn s x).2.files .agent = some b ∧
        (turn s x).2.files .bak = some a ∧ (turn s x).2.justSwapped = true) ∨
      (∃ b, s.files .bak = some b ∧ (turn s x).1 = .rolledBack ∧
        (turn s x).2.files .agent = some b ∧ (turn s x).2.files .bak = none ∧
        (turn s x).2.justSwapped = false) ∨
      (turn s x).1 ≠ .swapped ∧ (turn s x).1 ≠ .rolledBack ∧
        (turn s x).2.files .agent = some a ∧ (turn s x).2.files .bak = s.files .bak ∧
        ((turn s x).2.justSwapped → s.justSwapped) := by
  have hleft : (s.leave x.staged).files .agent = some a := (agent_leave _).trans hagent
  rw [turn]
  by_cases hota : x.code = otaExitCode
  · simp only [if_pos hota]
    rcases hstaged : x.staged with _ | b
    · rw [swapBinary_of_not_staged (staging_leave none)]
      rw [hstaged] at hleft
      exact .inr (.inr ⟨by simp, by simp, hleft, bak_leave none, id⟩)
    · rw [hstaged] at hleft
      obtain ⟨hok, hnew, hback⟩ := swapBinary_of_staged hleft (staging_leave (some b))
      have hpair : swapBinary (s.leave (some b)).files =
          (none, (swapBinary (s.leave (some b)).files).2) := by rw [← hok]
      rw [hpair]
      exact .inl ⟨b, rfl, hnew, hback, rfl⟩
  · simp only [if_neg hota]
    by_cases hcrash : x.code ≠ 0
    · simp only [if_pos hcrash]
      have hjust : (crashed (s.leave x.staged) x.now).2.justSwapped = false :=
        justSwapped_crashed x.now
      rcases crashed_cases hleft x.now with ⟨b, hbak, hdid, hnew, hnone⟩ | ⟨hswap, hroll, hsame⟩
      · rw [bak_leave] at hbak
        exact .inr (.inl ⟨b, hbak, hdid, hnew, hnone, hjust⟩)
      · rw [hsame, hjust]
        exact .inr (.inr ⟨hswap, hroll, hleft, bak_leave _, by simp⟩)
    · simp only [if_neg hcrash]
      exact .inr (.inr ⟨by simp, by simp, hleft, bak_leave _, by simp⟩)

/-- A crash while the flag is set rolls back, if there is a backup. -/
theorem turn_of_justSwapped {b : β} (hagent : s.files .agent = some a)
    (hbak : s.files .bak = some b) (hjust : s.justSwapped = true) (hcrash : x.Crash) :
    (turn s x).1 = .rolledBack ∧ (turn s x).2.files .agent = some b := by
  have hleft : (s.leave x.staged).files .agent = some a := (agent_leave _).trans hagent
  have hflag : (s.leave x.staged).justSwapped = true := hjust
  rw [turn]
  simp only [if_neg hcrash.1, if_pos hcrash.2, crashed, hflag, if_true]
  rcases rolledBack_cases hleft x.now with ⟨b', hbak', hdid, hnew, -⟩ | ⟨hnone, -⟩
  · rw [bak_leave, hbak] at hbak'
    rw [Option.some.inj hbak']
    exact ⟨hdid, hnew⟩
  · rw [bak_leave, hbak] at hnone
    exact absurd hnone (Option.some_ne_none _)

/-! ### Sequences of exits -/

theorem after_append (s : State β) (xs : List (Exit β)) (x : Exit β) :
    after s (xs ++ [x]) = (turn (after s xs) x).2 := by
  simp only [after, List.foldl_append, List.foldl_cons, List.foldl_nil]

theorem history_append (s : State β) (xs : List (Exit β)) (x : Exit β) :
    history s (xs ++ [x]) =
      history s xs ++ [⟨(after s xs).files .agent, (turn (after s xs) x).1⟩] := by
  induction xs generalizing s with
  | nil => rfl
  | cons y xs ih =>
    simp only [List.cons_append, history, ih]
    rfl

theorem lastSwap_append_of_swapped (turns : List (Turn β)) (active : Option β) :
    lastSwap (turns ++ [⟨active, .swapped⟩]) = some ⟨active, .swapped⟩ := by
  simp [lastSwap, List.filter_append]

theorem lastSwap_append_of_ne (turns : List (Turn β)) {t : Turn β} (h : t.did ≠ .swapped) :
    lastSwap (turns ++ [t]) = lastSwap turns := by
  simp [lastSwap, List.filter_append, h]

/-- The invariant: there is an active binary, the backup is what was active before the most recent
swap, and while the flag is set there is a backup. -/
structure WatchInv (s : State β) (turns : List (Turn β)) : Prop where
  active : ∃ a, s.files .agent = some a
  backup : ∀ b, s.files .bak = some b → ∃ t, lastSwap turns = some t ∧ t.active = some b
  flag : s.justSwapped = true → ∃ b, s.files .bak = some b

theorem WatchInv.turn {turns : List (Turn β)} (hs : WatchInv s turns) (x : Exit β) :
    WatchInv (turn s x).2 (turns ++ [⟨s.files .agent, (Watchdog.turn s x).1⟩]) := by
  obtain ⟨a, hagent⟩ := hs.active
  rcases turn_cases hagent x with ⟨b, hdid, hnew, hbak, -⟩ | ⟨b, -, hdid, hnew, hbak, hflag⟩ |
    ⟨hswap, hroll, hsame, hbak, hflag⟩
  · rw [hdid, hagent]
    refine ⟨⟨b, hnew⟩, fun b' hb' => ⟨_, lastSwap_append_of_swapped turns _, ?_⟩,
      fun _ => ⟨a, hbak⟩⟩
    exact hbak.symm.trans hb'
  · refine ⟨⟨b, hnew⟩, fun b' hb' => ?_, fun hjust => ?_⟩
    · rw [hbak] at hb'
      exact absurd hb'.symm (Option.some_ne_none _)
    · rw [hflag] at hjust
      exact absurd hjust Bool.false_ne_true
  · refine ⟨⟨a, hsame⟩, fun b' hb' => ?_, fun hjust => ?_⟩
    · rw [hbak] at hb'
      rw [lastSwap_append_of_ne turns hswap]
      exact hs.backup b' hb'
    · rw [hbak]
      exact hs.flag (hflag hjust)

theorem WatchInv.after (h₀ : WatchInv s₀ []) (xs : List (Exit β)) :
    WatchInv (after s₀ xs) (history s₀ xs) := by
  induction xs using List.reverseRecOn with
  | nil => exact h₀
  | append_singleton xs x ih =>
    rw [after_append, history_append]
    exact ih.turn x

/-- Turns without a swap roll back at most once, and only if there is a backup before them. -/
theorem countP_rolledBack_le (hagent : s.files .agent = some a) (ys : List (Exit β))
    (hnone : ∀ t ∈ history s ys, t.did ≠ .swapped) :
    (history s ys).countP (fun t => t.did = .rolledBack) ≤
      if (s.files .bak).isSome then 1 else 0 := by
  induction ys generalizing s a with
  | nil => simp [history]
  | cons y ys ih =>
    have hrest : ∀ t ∈ history (turn s y).2 ys, t.did ≠ .swapped :=
      fun t ht => hnone t (List.mem_cons_of_mem _ ht)
    have hfirst : (turn s y).1 ≠ .swapped := hnone _ List.mem_cons_self
    rw [history, List.countP_cons]
    rcases turn_cases hagent y with ⟨b, hdid, -⟩ | ⟨b, hbak, hdid, hnew, hempty, -⟩ |
      ⟨-, hroll, hsame, hbak, -⟩
    · exact absurd hdid hfirst
    · have hle := ih hnew hrest
      simp only [hempty, Option.isSome_none, Bool.false_eq_true, if_false] at hle
      simp only [hdid, hbak, Option.isSome_some, decide_true, if_true]
      omega
    · have hle := ih hsame hrest
      rw [hbak] at hle
      simp only [hroll, decide_false, Bool.false_eq_true, if_false]
      exact hle

end Turns

/-- **Swaps and rollbacks.** Let there be an active binary, no backup, and the flag not be set. Then
along every sequence of exits the agent is always started with a binary, every rollback installs
what was active before the most recent swap, there is at most one rollback between two swaps, and a
crash that is the next exit after a swap rolls it back. -/
theorem swaps_and_rollbacks {β : Type*} {s₀ : State β} (hagent : (s₀.files .agent).isSome)
    (hbak : s₀.files .bak = none) (hflag : s₀.justSwapped = false) : SwapsAndRollbacks s₀ := by
  have h₀ : WatchInv s₀ [] := by
    refine ⟨Option.isSome_iff_exists.mp hagent, fun b hb => ?_, fun hjust => ?_⟩
    · rw [hbak] at hb
      exact absurd hb.symm (Option.some_ne_none _)
    · rw [hflag] at hjust
      exact absurd hjust Bool.false_ne_true
  refine ⟨fun xs => ?_, fun xs x hdid => ?_, fun xs ys hnone => ?_, fun xs x y hdid hcrash => ?_⟩
  · exact Option.isSome_iff_exists.mpr (h₀.after xs).active
  · obtain ⟨a, ha⟩ := (h₀.after xs).active
    rcases turn_cases ha x with ⟨b, hswap, -⟩ | ⟨b, hb, -, hnew, -⟩ | ⟨-, hroll, -⟩
    · exact absurd (hswap.symm.trans hdid) (by decide)
    · obtain ⟨t, ht, hactive⟩ := (h₀.after xs).backup b hb
      exact ⟨t, ht, hnew.trans hactive.symm⟩
    · exact absurd hdid hroll
  · obtain ⟨a, ha⟩ := (h₀.after xs).active
    have hle := countP_rolledBack_le ha ys hnone
    split_ifs at hle
    · exact hle
    · exact Nat.le_succ_of_le hle
  · obtain ⟨a, ha⟩ := (h₀.after xs).active
    rcases turn_cases ha x with ⟨b, -, hnew, hback, hjust⟩ | ⟨b, -, hroll, -⟩ | ⟨hswap, -⟩
    · rw [after_append, ha]
      exact turn_of_justSwapped hnew hback hjust hcrash
    · exact absurd (hroll.symm.trans hdid) (by decide)
    · exact absurd hdid hswap

/-- The watchdog as it starts, with one binary. -/
def freshState : State ℕ where
  files := fun p => if p = .agent then some 1 else none
  backoff := initialBackoff
  crashTimes := []
  justSwapped := false
  rollbackMarker := none

/-- A binary that crashes right after its swap is rolled back, and a later one is kept until three
crashes within the window. -/
theorem swaps_and_rollbacks_of_fresh :
    (SwapsAndRollbacks freshState ∧
      (history freshState [⟨42, some 2, 10⟩, ⟨1, none, 20⟩, ⟨42, some 3, 30⟩, ⟨0, none, 40⟩,
        ⟨2, none, 50⟩, ⟨2, none, 60⟩, ⟨2, none, 70⟩, ⟨42, none, 80⟩]).map Turn.did =
      [.swapped, .rolledBack, .swapped, .restarted, .restarted, .restarted, .rolledBack,
        .swapFailed .stagingNotFound]) :=
  ⟨swaps_and_rollbacks (by decide) (by decide) rfl, by decide +kernel⟩

end EdgeGuardian.Agent.Watchdog
