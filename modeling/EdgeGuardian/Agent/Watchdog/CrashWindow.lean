import EdgeGuardian.Agent.Watchdog.FailedRenames
import EdgeGuardian.Lib.SlidingWindow

/-!
# The crash window of the watchdog

The watchdog keeps the times of the crashes in a list. With each crash that is not the next exit
after a swap it adds the time, drops in place the times that are five minutes old or older, and
attempts a rollback if three are left. A rollback that succeeds, for either of the two reasons,
clears the list; one that fails does not. Every rename may fail.

The times that a crash drops would not count for a later one, so that the list is as good as the
whole history since the last successful rollback.

Source: `agent/cmd/watchdog/main.go`, lines 50–145.

## Main definitions

* `Watchdog.turnWith`: one turn of the main loop, with renames that may fail.
* `Watchdog.logOf`, `Watchdog.crashesSince`: the ordinary crashes since the last successful
  rollback.

## Main results

* `Watchdog.pruned_eq_compact`: the list is filtered over its own backing array.
* `Watchdog.holds_turnWith`: one turn keeps the list as good as the history.
* `Watchdog.rollback_attempted_iff`: when an ordinary crash leads to a rollback.
-/

namespace EdgeGuardian.Agent.Watchdog

/-! ### Turns with renames that fail -/

/-- The renames of a turn that fail. -/
structure Faults where
  swap : SwapFaults
  rollback : RollbackFaults
deriving DecidableEq, Repr

/-- No rename fails. -/
def Faults.none : Faults := ⟨⟨false, false, false⟩, ⟨false, false⟩⟩

/-- An exit of the agent, and the renames that fail in the turn after it. -/
structure FaultyExit (β : Type*) extends Exit β where
  faults : Faults
deriving DecidableEq, Repr

section Turns

variable {β : Type*}

/-- A rollback, with its marker and the crash times after it. -/
def rolledBackWith (faults : RollbackFaults) (s : State β) (now : ℕ) : Did × State β :=
  match rollbackWith faults s.files with
  | (none, files) =>
    (.rolledBack, { s with files := files, rollbackMarker := some now, crashTimes := [] })
  | (some e, files) => (.rollbackFailed e, { s with files := files })

/-- The turn after a crash. -/
def crashedWith (faults : RollbackFaults) (s : State β) (now : ℕ) : Did × State β :=
  if s.justSwapped then
    let r := rolledBackWith faults s now
    (r.1, { r.2 with justSwapped := false, backoff := initialBackoff })
  else
    let s := { s with crashTimes := pruned now (s.crashTimes ++ [now]) }
    let r :=
      if crashThreshold ≤ s.crashTimes.length then rolledBackWith faults s now else (.restarted, s)
    (r.1, { r.2 with backoff := min (2 * s.backoff) maxBackoff })

/-- One turn of the loop, from the exit of the agent to its next start. -/
def turnWith (s : State β) (x : FaultyExit β) : Did × State β :=
  let s := s.leave x.staged
  if x.code = otaExitCode then
    match swapBinaryWith x.faults.swap s.files with
    | (none, files) =>
      (.swapped, { s with files := files, justSwapped := true, backoff := initialBackoff })
    | (some e, files) => (.swapFailed e, { s with files := files, backoff := initialBackoff })
  else if x.code ≠ 0 then crashedWith x.faults.rollback s x.now
  else (.restarted, { s with justSwapped := false, backoff := initialBackoff })

theorem turnWith_none (s : State β) (x : Exit β) : turnWith s ⟨x, .none⟩ = turn s x := rfl

/-- The state after some exits. -/
def afterWith (s : State β) (xs : List (FaultyExit β)) : State β :=
  xs.foldl (fun s x => (turnWith s x).2) s

/-! ### The window -/

/-- The time is less than the window before the present. -/
def withinWindow (now t : ℕ) : Bool := now < t + crashWindow

theorem movesForward_withinWindow : SlidingWindow.MovesForward withinWindow := by
  intro last now t hle hwithin
  rw [withinWindow, decide_eq_true_eq] at hwithin ⊢
  omega

/-- The loop over the crash times writes the ones that it keeps over the beginning of the list that
it reads. -/
theorem pruned_eq_compact (now : ℕ) (crashTimes : List ℕ) :
    pruned now crashTimes = SlidingWindow.compact (withinWindow now) crashTimes :=
  (SlidingWindow.compact_eq_filter crashTimes).symm

theorem pruned_eq_record (now : ℕ) (crashTimes : List ℕ) :
    pruned now (crashTimes ++ [now]) = SlidingWindow.record withinWindow now crashTimes := rfl

/-! ### The history -/

/-- A crash that counts: it is not the next exit after a swap. -/
def OrdinaryCrash (s : State β) (x : FaultyExit β) : Prop := x.Crash ∧ s.justSwapped = false

instance (s : State β) (x : FaultyExit β) : Decidable (OrdinaryCrash s x) :=
  inferInstanceAs (Decidable ((_ ∧ _) ∧ _))

/-- What a turn adds to the history: the time of an ordinary crash, and whether there was a
successful rollback after it. -/
structure Logged where
  crash : Option ℕ
  rolledBack : Bool
deriving DecidableEq, Repr

/-- The entry of a turn. -/
def logged (s : State β) (x : FaultyExit β) : Logged where
  crash := if OrdinaryCrash s x then some x.now else none
  rolledBack := (turnWith s x).1 = .rolledBack

/-- The history of some exits. -/
def logOf (s : State β) : List (FaultyExit β) → List Logged
  | [] => []
  | x :: xs => logged s x :: logOf (turnWith s x).2 xs

/-- The times of the ordinary crashes since the last successful rollback. -/
def crashesSince (log : List Logged) : List ℕ :=
  ((log.reverse.takeWhile fun l => !l.rolledBack).reverse).filterMap Logged.crash

/-- A rollback was attempted. -/
def Attempted : Did → Prop
  | .rolledBack | .rollbackFailed _ => True
  | _ => False

instance : DecidablePred Attempted
  | .rolledBack | .rollbackFailed _ => inferInstanceAs (Decidable True)
  | .swapped | .swapFailed _ | .restarted => inferInstanceAs (Decidable False)

theorem crashesSince_append (log : List Logged) (l : Logged) :
    crashesSince (log ++ [l]) =
      if l.rolledBack then [] else crashesSince log ++ l.crash.toList := by
  rw [crashesSince, List.reverse_append, List.reverse_singleton, List.singleton_append,
    List.takeWhile_cons]
  rcases hl : l.rolledBack with _ | _
  · rcases hcrash : l.crash with _ | t
    · simp [crashesSince, hcrash]
    · simp [crashesSince, hcrash]
  · simp

variable {s s₀ : State β} {x : FaultyExit β} {xs : List (FaultyExit β)} {log : List Logged}

theorem rolledBack_logged : (logged s x).rolledBack = true ↔ (turnWith s x).1 = .rolledBack :=
  decide_eq_true_iff

theorem afterWith_append (s : State β) (xs : List (FaultyExit β)) (x : FaultyExit β) :
    afterWith s (xs ++ [x]) = (turnWith (afterWith s xs) x).2 := by
  simp only [afterWith, List.foldl_append, List.foldl_cons, List.foldl_nil]

theorem logOf_append (s : State β) (xs : List (FaultyExit β)) (x : FaultyExit β) :
    logOf s (xs ++ [x]) = logOf s xs ++ [logged (afterWith s xs) x] := by
  induction xs generalizing s with
  | nil => rfl
  | cons y xs ih =>
    rw [List.cons_append, logOf, ih, logOf, List.cons_append]
    rfl

/-- The crashes of the history are exits. -/
theorem exists_of_mem_crashesSince {t : ℕ} (h : t ∈ crashesSince (logOf s xs)) :
    ∃ x ∈ xs, x.now = t := by
  have hlog : ∃ l ∈ logOf s xs, l.crash = some t := by
    obtain ⟨l, hl, hcrash⟩ := List.mem_filterMap.mp h
    have hmem := (List.takeWhile_prefix _).subset (List.mem_reverse.mp hl)
    exact ⟨l, List.mem_reverse.mp hmem, hcrash⟩
  clear h
  induction xs generalizing s with
  | nil =>
    obtain ⟨l, hl, -⟩ := hlog
    exact absurd hl List.not_mem_nil
  | cons x xs ih =>
    obtain ⟨l, hl, hcrash⟩ := hlog
    rcases List.mem_cons.mp hl with rfl | htail
    · rw [logged] at hcrash
      dsimp only at hcrash
      split_ifs at hcrash
      exact ⟨x, List.mem_cons_self, Option.some.inj hcrash⟩
    · obtain ⟨y, hy, rfl⟩ := ih ⟨l, htail, hcrash⟩
      exact ⟨y, List.mem_cons_of_mem x hy, rfl⟩

/-! ### One turn -/

/-- A rollback clears the crash times if it succeeds, and leaves them otherwise. -/
theorem rolledBackWith_cases (faults : RollbackFaults) (s : State β) (now : ℕ) :
    ((rolledBackWith faults s now).1 = .rolledBack ∧
        (rolledBackWith faults s now).2.crashTimes = []) ∨
      (∃ e, (rolledBackWith faults s now).1 = .rollbackFailed e) ∧
        (rolledBackWith faults s now).2.crashTimes = s.crashTimes := by
  rw [rolledBackWith]
  split
  · exact .inl ⟨rfl, rfl⟩
  · exact .inr ⟨⟨_, rfl⟩, rfl⟩

theorem turnWith_of_crash (h : x.Crash) :
    turnWith s x = crashedWith x.faults.rollback (s.leave x.staged) x.now := by
  rw [turnWith, if_neg h.1, if_pos h.2]

/-- What a turn without an ordinary crash does to the crash times. -/
theorem turnWith_of_not_ordinary (h : ¬ OrdinaryCrash s x) :
    ((turnWith s x).1 = .rolledBack ∧ (turnWith s x).2.crashTimes = []) ∨
      (turnWith s x).1 ≠ .rolledBack ∧ (turnWith s x).2.crashTimes = s.crashTimes := by
  by_cases hcrash : x.Crash
  · have hjust : (s.leave x.staged).justSwapped = true := by
      by_contra hfalse
      exact h ⟨hcrash, (Bool.not_eq_true _).mp hfalse⟩
    rw [turnWith_of_crash hcrash, crashedWith, if_pos hjust]
    rcases rolledBackWith_cases x.faults.rollback (s.leave x.staged) x.now with
      ⟨hdid, htimes⟩ | ⟨⟨e, hdid⟩, htimes⟩
    · exact .inl ⟨hdid, htimes⟩
    · exact .inr ⟨by simp [hdid], htimes⟩
  · rw [turnWith]
    by_cases hota : x.code = otaExitCode
    · rw [if_pos hota]
      split
      · exact .inr ⟨by simp, rfl⟩
      · exact .inr ⟨by simp, rfl⟩
    · have hzero : ¬ x.code ≠ 0 := fun hzero => hcrash ⟨hota, hzero⟩
      rw [if_neg hota, if_neg hzero]
      exact .inr ⟨by simp, rfl⟩

/-- What a turn with an ordinary crash does: the crash is added, and there is a rollback if there
are enough crashes within the window. -/
theorem turnWith_of_ordinary (h : OrdinaryCrash s x) :
    (Attempted (turnWith s x).1 ↔
        crashThreshold ≤ (SlidingWindow.record withinWindow x.now s.crashTimes).length) ∧
      (((turnWith s x).1 = .rolledBack ∧ (turnWith s x).2.crashTimes = []) ∨
        (turnWith s x).1 ≠ .rolledBack ∧
          (turnWith s x).2.crashTimes = SlidingWindow.record withinWindow x.now s.crashTimes) := by
  obtain ⟨hcrash, hjust⟩ := h
  have hflag : ¬ (s.leave x.staged).justSwapped = true := by
    change ¬ s.justSwapped = true
    rw [hjust]
    exact Bool.false_ne_true
  rw [turnWith_of_crash hcrash, crashedWith, if_neg hflag]
  dsimp only
  rw [pruned_eq_record]
  change (_ ↔ crashThreshold ≤
    (SlidingWindow.record withinWindow x.now (s.leave x.staged).crashTimes).length) ∧ _
  split_ifs with hthreshold
  · rcases rolledBackWith_cases x.faults.rollback
      { s.leave x.staged with
        crashTimes := SlidingWindow.record withinWindow x.now (s.leave x.staged).crashTimes } x.now
      with ⟨hdid, htimes⟩ | ⟨⟨e, hdid⟩, htimes⟩
    · exact ⟨by simp [hdid, Attempted, hthreshold], .inl ⟨hdid, htimes⟩⟩
    · exact ⟨by simp [hdid, Attempted, hthreshold], .inr ⟨by simp [hdid], htimes⟩⟩
  · exact ⟨by simp [Attempted, hthreshold], .inr ⟨by simp, rfl⟩⟩

/-- **One turn.** The crash times stay as good as the history. -/
theorem holds_turnWith
    (h : SlidingWindow.Holds withinWindow x.now (crashesSince log) s.crashTimes) :
    SlidingWindow.Holds withinWindow x.now (crashesSince (log ++ [logged s x]))
      (turnWith s x).2.crashTimes := by
  rw [crashesSince_append]
  by_cases hordinary : OrdinaryCrash s x
  · have hcrash : (logged s x).crash = some x.now := if_pos hordinary
    rcases (turnWith_of_ordinary hordinary).2 with ⟨hdid, htimes⟩ | ⟨hdid, htimes⟩
    · rw [if_pos (rolledBack_logged.mpr hdid), htimes]
      exact SlidingWindow.holds_nil x.now
    · rw [if_neg (rolledBack_logged.not.mpr hdid), hcrash, htimes]
      exact h.record movesForward_withinWindow
  · have hcrash : (logged s x).crash = none := if_neg hordinary
    rcases turnWith_of_not_ordinary hordinary with ⟨hdid, htimes⟩ | ⟨hdid, htimes⟩
    · rw [if_pos (rolledBack_logged.mpr hdid), htimes]
      exact SlidingWindow.holds_nil x.now
    · rw [if_neg (rolledBack_logged.not.mpr hdid), hcrash, htimes, Option.toList_none,
        List.append_nil]
      exact h

/-! ### Sequences of exits -/

/-- The crash times are as good as the history at the time of the next exit. -/
theorem holds_afterWith (hstart : s₀.crashTimes = []) {now : ℕ}
    (hsorted : xs.Pairwise fun x y => x.now ≤ y.now) (hnow : ∀ x ∈ xs, x.now ≤ now) :
    SlidingWindow.Holds withinWindow now (crashesSince (logOf s₀ xs))
      (afterWith s₀ xs).crashTimes := by
  induction xs using List.reverseRecOn generalizing now with
  | nil =>
    change SlidingWindow.Holds withinWindow now [] s₀.crashTimes
    rw [hstart]
    exact SlidingWindow.holds_nil now
  | append_singleton xs x ih =>
    obtain ⟨hsorted', -, hlast⟩ := List.pairwise_append.mp hsorted
    have hbefore : ∀ y ∈ xs, y.now ≤ x.now := fun y hy => hlast y hy x (List.mem_singleton_self x)
    rw [logOf_append, afterWith_append]
    exact (holds_turnWith (ih hsorted' hbefore)).mono
      (hnow x (List.mem_append_right xs (List.mem_singleton_self x)))

end Turns

/-- **The crash window.** Let the watchdog start without crash times. Along every sequence of exits
at times that do not decrease, whichever renames fail, an ordinary crash at the time `t` leads to an
attempted rollback if and only if at least three ordinary crashes since the last successful
rollback, this one included, lie within the five minutes up to `t`. -/
theorem rollback_attempted_iff {β : Type*} {s₀ : State β} (hstart : s₀.crashTimes = [])
    {xs : List (FaultyExit β)} {x : FaultyExit β}
    (hsorted : (xs ++ [x]).Pairwise fun x y => x.now ≤ y.now)
    (hordinary : OrdinaryCrash (afterWith s₀ xs) x) :
    Attempted (turnWith (afterWith s₀ xs) x).1 ↔
      3 ≤ (crashesSince (logOf s₀ xs) ++ [x.now]).countP
        fun t => x.now < t + 5 * 60000 ∧ t ≤ x.now := by
  obtain ⟨hsorted', -, hlast⟩ := List.pairwise_append.mp hsorted
  have hbefore : ∀ y ∈ xs, y.now ≤ x.now := fun y hy => hlast y hy x (List.mem_singleton_self x)
  have hcount : (SlidingWindow.record withinWindow x.now (afterWith s₀ xs).crashTimes).length =
      (crashesSince (logOf s₀ xs) ++ [x.now]).countP
        fun t => x.now < t + 5 * 60000 ∧ t ≤ x.now := by
    rw [(holds_afterWith hstart hsorted' hbefore).record_eq movesForward_withinWindow,
      ← List.countP_eq_length_filter]
    refine List.countP_congr fun t ht => ?_
    have hle : t ≤ x.now := by
      rcases List.mem_append.mp ht with hold | hnew
      · obtain ⟨y, hy, rfl⟩ := exists_of_mem_crashesSince hold
        exact hbefore y hy
      · exact (List.mem_singleton.mp hnew).le
    rw [withinWindow, decide_eq_true_iff, decide_eq_true_iff]
    exact (and_iff_left hle).symm
  rw [(turnWith_of_ordinary hordinary).1, hcount, crashThreshold]

/-- Crashes around the boundary of the window, without a backup: the rollback is attempted at the
third crash, fails, and is not attempted when the first two have become five minutes old. -/
theorem rollback_attempted_at_boundary :
    (([⟨⟨1, none, 0⟩, .none⟩, ⟨⟨1, none, 299999⟩, .none⟩, ⟨⟨1, none, 299999⟩, .none⟩] ++
        [⟨⟨1, none, 599999⟩, .none⟩] : List (FaultyExit ℕ)).Pairwise (fun x y => x.now ≤ y.now) ∧
      OrdinaryCrash (afterWith freshState [⟨⟨1, none, 0⟩, .none⟩, ⟨⟨1, none, 299999⟩, .none⟩,
        ⟨⟨1, none, 299999⟩, .none⟩]) ⟨⟨1, none, 599999⟩, .none⟩) ∧
      ¬ Attempted (turnWith (afterWith freshState [⟨⟨1, none, 0⟩, .none⟩,
        ⟨⟨1, none, 299999⟩, .none⟩, ⟨⟨1, none, 299999⟩, .none⟩]) ⟨⟨1, none, 599999⟩, .none⟩).1 := by
  have hsorted : ([⟨⟨1, none, 0⟩, .none⟩, ⟨⟨1, none, 299999⟩, .none⟩,
      ⟨⟨1, none, 299999⟩, .none⟩] ++ [⟨⟨1, none, 599999⟩, .none⟩] : List (FaultyExit ℕ)).Pairwise
      (fun x y => x.now ≤ y.now) := by decide
  have hordinary : OrdinaryCrash (afterWith freshState [⟨⟨1, none, 0⟩, .none⟩,
      ⟨⟨1, none, 299999⟩, .none⟩, ⟨⟨1, none, 299999⟩, .none⟩]) ⟨⟨1, none, 599999⟩, .none⟩ := by
    decide +kernel
  refine ⟨⟨hsorted, hordinary⟩, ?_⟩
  rw [rollback_attempted_iff rfl hsorted hordinary]
  decide +kernel

end EdgeGuardian.Agent.Watchdog
