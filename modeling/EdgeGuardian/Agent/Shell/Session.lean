import EdgeGuardian.Agent.Shell.Manager

/-!
# The goroutines of a shell session

A session begins when `Open` has started its PTY. `Open` stores the session, starts the read pump
and the watchdog, and only then publishes that the session has started. The read pump publishes what
it reads; when a read fails, it removes the session and publishes that it has ended. The watchdog
and the callers of `Control` and `CloseAll` close the PTY, the first of them for all.

The goroutines interleave in any way. A step is one stretch of one of them between two points at
which another one can get in its way: a stretch under a lock, one read, one publication, one part of
`Close`. Besides, the shell exits by itself, input arrives, time passes, and another session with
the same id takes the place of this one in the map.

Source: `agent/internal/shell/session.go`, `agent/internal/shell/manager.go` (`Open`,
`onSessionExit`, `Control`, `CloseAll`), `agent/internal/shell/pty_unix.go`.

## Main definitions

* `State`, `Action`, `step`: a session with the goroutines around it.
* `Effect`: what a step does to `Open`, to the read pump and to the events.
* `Inv`: the bookkeeping of the read pump.

## Main results

* `effect_of_step`: every step has such an effect.
* `perm_events`: the start and the end are published once each, in some order.
-/

namespace EdgeGuardian.Agent.Shell.Session

open Transition

/-! ### The state -/

/-- The error of a read, with its text where it has one of its own. -/
inductive ReadError
  /-- `io.EOF`. -/
  | eof
  /-- `io.ErrClosedPipe`. -/
  | closedPipe
  /-- An error that matches `os.ErrClosed`. -/
  | closed (text : String)
  /-- `EIO`. -/
  | eio (text : String)
  | other (text : String)
deriving DecidableEq, Repr

/-- What `reportExit` passes on: the first two errors are none. -/
def ReadError.exitErr : ReadError → Option String
  | eof | closedPipe => none
  | closed text | eio text | other text => some text

/-- Who closes a session. -/
inductive CloseCause
  | control
  | closeAll
  | idleTimeout
  | maxDuration
deriving DecidableEq, Repr

/-- Why a read fails. -/
inductive EndCause
  /-- The PTY has been closed. -/
  | closed
  /-- The shell has exited. -/
  | shellExited
  | otherReason
deriving DecidableEq, Repr

/-- Where `Open` is, after it has started the PTY. -/
inductive OpenPc
  | ptyStarted
  | stored
  | touched
  | pumpStarted
  | watchdogStarted
  | returned
deriving DecidableEq, Repr

/-- Where `readPump` is. -/
inductive PumpPc
  | notStarted
  | reading
  /-- A read has returned, and its output has to be published. -/
  | outputting (chunk : List UInt8) (err : Option ReadError)
  /-- At the beginning of `reportExit`. -/
  | reporting (err : ReadError)
  /-- At the beginning of `onSessionExit`. -/
  | removing (exitErr : Option String)
  /-- Behind its lock. -/
  | emitting (exitErr : Option String)
  | returned
deriving DecidableEq, Repr

/-- Where `watchdog` is. When it closes the session, there is nothing left for it to do but to
return. -/
inductive WatchdogPc
  | notStarted
  | spawned
  /-- In its loop, with the time at which it has started. -/
  | waiting (start : ℕ)
  | returned
deriving DecidableEq, Repr

/-- Where a call of `Close` is. -/
inductive ClosePc
  | entering (cause : CloseCause)
  /-- In the function of `closeOnce`. -/
  | closing
  /-- In `unixPTY.Close`, behind the close of the master. -/
  | killing
deriving DecidableEq, Repr

/-- `closeOnce`. -/
inductive Once
  | notCalled
  | running
  | done
deriving DecidableEq, Repr

/-- `withLimits`; zero is no limit. -/
structure Limits where
  idleTimeout : ℕ
  maxDuration : ℕ
deriving DecidableEq, Repr

structure State where
  openPc : OpenPc
  pump : PumpPc
  watchdog : WatchdogPc
  closers : List ClosePc
  closeOnce : Once
  /-- The channel `done` is closed. -/
  done : Bool
  masterClosed : Bool
  shellExited : Bool
  exitOnce : Bool
  /-- The session is in the map of the manager. -/
  inMap : Bool
  now : ℕ
  lastActivity : ℕ
  outputs : List (List UInt8)
  /-- What has been published for the session. -/
  events : List EventType
  /-- Who has closed the session. -/
  closedBy : Option CloseCause
  /-- The error that has ended the reads, and why there was one. -/
  failure : Option (ReadError × EndCause)
deriving DecidableEq, Repr

/-- The PTY has been started. -/
def State.initial : State where
  openPc := .ptyStarted
  pump := .notStarted
  watchdog := .notStarted
  closers := []
  closeOnce := .notCalled
  done := false
  masterClosed := false
  shellExited := false
  exitOnce := false
  inMap := false
  now := 0
  lastActivity := 0
  outputs := []
  events := []
  closedBy := none
  failure := none

/-! ### Steps -/

inductive Action
  /-- `Open` stores the session in the map. -/
  | store
  | touch
  /-- `go s.readPump()`. -/
  | startPump
  /-- `go s.watchdog()`, if there is a limit. -/
  | startWatchdog
  | emitStarted
  /-- A read of the PTY returns. -/
  | read (chunk : List UInt8) (err : Option ReadError)
  | output
  | reportExit
  /-- The stretch of `onSessionExit` under the lock. -/
  | remove
  | emitExit
  /-- The watchdog takes its time of start. -/
  | watchdogBegin
  /-- The watchdog looks at the clock. -/
  | tick
  | watchdogReturn
  /-- `Control` with `close`, or `CloseAll`, finds the session and calls `Close`. -/
  | callClose (all : Bool)
  | enterClose (j : ℕ)
  | closeMaster (j : ℕ)
  | kill (j : ℕ)
  | input
  | shellExit
  /-- A session with the same id is stored, or removed, in place of this one. -/
  | displace
  | advance (d : ℕ)
deriving DecidableEq, Repr

/-- What `readPump` goes on with after a read and its output. -/
def afterRead : Option ReadError → PumpPc
  | none => .reading
  | some err => .reporting err

/-- Why a read fails in this state. -/
def State.endCause (s : State) : EndCause :=
  if s.masterClosed then .closed else if s.shellExited then .shellExited else .otherReason

/-- The event for the end of a session. -/
def exitEvent (exitErr : Option String) : EventType := exitErr.elim .exited .error

/-- The limit that the watchdog finds exceeded. -/
def State.exceeded (l : Limits) (s : State) (start : ℕ) : Option CloseCause :=
  if 0 < l.maxDuration ∧ l.maxDuration ≤ s.now - start then some .maxDuration
  else if 0 < l.idleTimeout ∧ l.idleTimeout ≤ s.now - s.lastActivity then some .idleTimeout
  else none

/-- The steps of `Open`. -/
def stepOpen (l : Limits) (s : State) : Action → Option State
  | .store =>
    if s.openPc = .ptyStarted then some { s with openPc := .stored, inMap := true } else none
  | .touch =>
    if s.openPc = .stored then some { s with openPc := .touched, lastActivity := s.now } else none
  | .startPump =>
    if s.openPc = .touched then some { s with openPc := .pumpStarted, pump := .reading } else none
  | .startWatchdog =>
    if s.openPc = .pumpStarted then
      some { s with
        openPc := .watchdogStarted
        watchdog := if 0 < l.idleTimeout ∨ 0 < l.maxDuration then .spawned else .notStarted }
    else none
  | .emitStarted =>
    if s.openPc = .watchdogStarted then
      some { s with openPc := .returned, events := s.events ++ [.started] }
    else none
  | _ => none

/-- The steps of `readPump`. -/
def stepPump (s : State) : Action → Option State
  | .read chunk err =>
    if s.pump = .reading then
      some { s with
        pump := if chunk = [] then afterRead err else .outputting chunk err
        failure := err.map fun e => (e, s.endCause) }
    else none
  | .output =>
    match s.pump with
    | .outputting chunk err =>
      some { s with pump := afterRead err, outputs := s.outputs ++ [chunk] }
    | _ => none
  | .reportExit =>
    match s.pump with
    | .reporting err =>
      some { s with
        pump := if s.exitOnce then .returned else .removing err.exitErr
        exitOnce := true }
    | _ => none
  | .remove =>
    match s.pump with
    | .removing exitErr => some { s with pump := .emitting exitErr, inMap := false }
    | _ => none
  | .emitExit =>
    match s.pump with
    | .emitting exitErr =>
      some { s with pump := .returned, events := s.events ++ [exitEvent exitErr] }
    | _ => none
  | _ => none

/-- The steps of the watchdog and of the callers of `Close`. -/
def stepClose (l : Limits) (s : State) : Action → Option State
  | .watchdogBegin =>
    if s.watchdog = .spawned then some { s with watchdog := .waiting s.now } else none
  | .tick =>
    match s.watchdog with
    | .waiting start =>
      match s.exceeded l start with
      | some cause =>
        some { s with watchdog := .returned, closers := s.closers ++ [.entering cause] }
      | none => some s
    | _ => none
  | .watchdogReturn =>
    match s.watchdog with
    | .waiting _ => if s.done then some { s with watchdog := .returned } else none
    | _ => none
  | .callClose all =>
    if s.inMap then
      some { s with closers := s.closers ++ [.entering (if all then .closeAll else .control)] }
    else none
  | .enterClose j =>
    match s.closers[j]?, s.closeOnce with
    | some (.entering cause), .notCalled =>
      some { s with
        closers := s.closers.set j .closing
        closeOnce := .running
        done := true
        closedBy := some cause }
    | some (.entering _), .done => some { s with closers := s.closers.eraseIdx j }
    | _, _ => none
  | .closeMaster j =>
    match s.closers[j]? with
    | some .closing => some { s with closers := s.closers.set j .killing, masterClosed := true }
    | _ => none
  | .kill j =>
    match s.closers[j]? with
    | some .killing =>
      some { s with
        closers := s.closers.eraseIdx j
        closeOnce := .done
        shellExited := true }
    | _ => none
  | _ => none

/-- One step. -/
def step (l : Limits) (s : State) (a : Action) : Option State :=
  match a with
  | .store | .touch | .startPump | .startWatchdog | .emitStarted => stepOpen l s a
  | .read _ _ | .output | .reportExit | .remove | .emitExit => stepPump s a
  | .watchdogBegin | .tick | .watchdogReturn | .callClose _ | .enterClose _ | .closeMaster _
  | .kill _ => stepClose l s a
  | .input =>
    -- The session may have left the map since `Input` has found it there.
    if s.openPc = .ptyStarted then none else some { s with lastActivity := s.now }
  | .shellExit => some { s with shellExited := true }
  | .displace => some { s with inMap := false }
  | .advance d => some { s with now := s.now + d }

/-! ### What a step does to `Open`, to the read pump and to the events -/

/-- `Open` has not started the read pump yet. -/
def OpenPc.BeforePump (pc : OpenPc) : Prop := pc = .ptyStarted ∨ pc = .stored ∨ pc = .touched

/-- A step as far as `Open`, the read pump and the events are concerned. -/
inductive Effect (s : State) (a : Action) (s' : State) : Prop
  | quiet (hopen : s'.openPc = s.openPc) (hpump : s'.pump = s.pump)
      (honce : s'.exitOnce = s.exitOnce) (hfailure : s'.failure = s.failure)
      (hevents : s'.events = s.events)
  | prepare (hopen : s.openPc.BeforePump) (hopen' : s'.openPc.BeforePump)
      (hpump : s'.pump = s.pump) (honce : s'.exitOnce = s.exitOnce)
      (hfailure : s'.failure = s.failure) (hevents : s'.events = s.events)
  | startPump (hopen : s.openPc = .touched) (heq : s' = { s with
      openPc := .pumpStarted
      pump := .reading })
  | startWatchdog (hopen : s.openPc = .pumpStarted) (watchdog : WatchdogPc)
      (heq : s' = { s with openPc := .watchdogStarted, watchdog := watchdog })
  | emitStarted (hopen : s.openPc = .watchdogStarted)
      (heq : s' = { s with openPc := .returned, events := s.events ++ [.started] })
  | read (chunk : List UInt8) (err : Option ReadError) (ha : a = .read chunk err)
      (hpump : s.pump = .reading) (heq : s' = { s with
        pump := if chunk = [] then afterRead err else .outputting chunk err
        failure := err.map fun e => (e, s.endCause) })
  | output (chunk : List UInt8) (err : Option ReadError) (hpump : s.pump = .outputting chunk err)
      (heq : s' = { s with pump := afterRead err, outputs := s.outputs ++ [chunk] })
  | reportExit (err : ReadError) (hpump : s.pump = .reporting err) (heq : s' = { s with
      pump := if s.exitOnce then .returned else .removing err.exitErr
      exitOnce := true })
  | remove (exitErr : Option String) (hpump : s.pump = .removing exitErr)
      (heq : s' = { s with pump := .emitting exitErr, inMap := false })
  | emitExit (exitErr : Option String) (ha : a = .emitExit) (hpump : s.pump = .emitting exitErr)
      (heq : s' = { s with pump := .returned, events := s.events ++ [exitEvent exitErr] })

section Effects

variable {l : Limits} {s s' : State} {a : Action}

theorem effect_of_stepOpen (h : stepOpen l s a = some s') : Effect s a s' := by
  cases a with
  | store =>
    simp only [stepOpen] at h
    split_ifs at h with hpc
    cases h
    exact .prepare (.inl hpc) (.inr (.inl rfl)) rfl rfl rfl rfl
  | touch =>
    simp only [stepOpen] at h
    split_ifs at h with hpc
    cases h
    exact .prepare (.inr (.inl hpc)) (.inr (.inr rfl)) rfl rfl rfl rfl
  | startPump =>
    simp only [stepOpen] at h
    split_ifs at h with hpc
    exact .startPump hpc (Option.some_inj.mp h).symm
  | startWatchdog =>
    by_cases hpc : s.openPc = .pumpStarted
    · rw [stepOpen, if_pos hpc] at h
      exact .startWatchdog hpc _ (Option.some_inj.mp h).symm
    · rw [stepOpen, if_neg hpc] at h
      cases h
  | emitStarted =>
    simp only [stepOpen] at h
    split_ifs at h with hpc
    exact .emitStarted hpc (Option.some_inj.mp h).symm
  | _ => cases h

theorem effect_of_stepPump (h : stepPump s a = some s') : Effect s a s' := by
  cases a with
  | read chunk err =>
    by_cases hpump : s.pump = .reading
    · rw [stepPump, if_pos hpump] at h
      exact .read chunk err rfl hpump (Option.some_inj.mp h).symm
    · rw [stepPump, if_neg hpump] at h
      cases h
  | output =>
    simp only [stepPump] at h
    split at h
    next chunk err hpump => exact .output chunk err hpump (Option.some_inj.mp h).symm
    next => cases h
  | reportExit =>
    simp only [stepPump] at h
    split at h
    next err hpump => exact .reportExit err hpump (Option.some_inj.mp h).symm
    next => cases h
  | remove =>
    simp only [stepPump] at h
    split at h
    next exitErr hpump => exact .remove exitErr hpump (Option.some_inj.mp h).symm
    next => cases h
  | emitExit =>
    simp only [stepPump] at h
    split at h
    next exitErr hpump => exact .emitExit exitErr rfl hpump (Option.some_inj.mp h).symm
    next => cases h
  | _ => cases h

/-- The watchdog and the callers of `Close` publish nothing. -/
theorem effect_of_stepClose (h : stepClose l s a = some s') : Effect s a s' := by
  cases a with
  | watchdogBegin =>
    simp only [stepClose] at h
    split_ifs at h
    cases h
    exact .quiet rfl rfl rfl rfl rfl
  | tick =>
    simp only [stepClose] at h
    split at h
    · split at h <;> cases h <;> exact .quiet rfl rfl rfl rfl rfl
    · cases h
  | watchdogReturn =>
    simp only [stepClose] at h
    split at h
    · split_ifs at h
      cases h
      exact .quiet rfl rfl rfl rfl rfl
    · cases h
  | callClose all =>
    simp only [stepClose] at h
    split_ifs at h <;> cases h <;> exact .quiet rfl rfl rfl rfl rfl
  | enterClose j =>
    simp only [stepClose] at h
    split at h <;> cases h <;> exact .quiet rfl rfl rfl rfl rfl
  | closeMaster j =>
    simp only [stepClose] at h
    split at h <;> cases h
    exact .quiet rfl rfl rfl rfl rfl
  | kill j =>
    simp only [stepClose] at h
    split at h <;> cases h
    exact .quiet rfl rfl rfl rfl rfl
  | _ => cases h

/-- **Everything that a step does** to `Open`, to the read pump and to the events. -/
theorem effect_of_step (h : step l s a = some s') : Effect s a s' := by
  cases a with
  | store | touch | startPump | startWatchdog | emitStarted => exact effect_of_stepOpen (l := l) h
  | read | output | reportExit | remove | emitExit => exact effect_of_stepPump h
  | watchdogBegin | tick | watchdogReturn | callClose | enterClose | closeMaster | kill =>
    exact effect_of_stepClose (l := l) h
  | input =>
    simp only [step] at h
    split_ifs at h
    cases h
    exact .quiet rfl rfl rfl rfl rfl
  | shellExit | displace | advance =>
    cases h
    exact .quiet rfl rfl rfl rfl rfl

end Effects

/-! ### The bookkeeping of the read pump -/

/-- The read pump has passed `exitOnce`. -/
def PumpPc.reported : PumpPc → Bool
  | removing _ | emitting _ | returned => true
  | _ => false

/-- The failure of the reads is the one that the read pump is about to report, or has reported. -/
def PumpPc.Carries (failure : Option (ReadError × EndCause)) : PumpPc → Prop
  | notStarted | reading => failure = none
  | outputting _ err => failure.map Prod.fst = err
  | reporting err => failure.map Prod.fst = some err
  | removing exitErr | emitting exitErr => failure.map (fun f => f.1.exitErr) = some exitErr
  | returned => failure.isSome

theorem reported_afterRead (chunk : List UInt8) (err : Option ReadError) :
    (if chunk = [] then afterRead err else .outputting chunk err).reported = false := by
  split_ifs
  · cases err <;> rfl
  · rfl

theorem afterRead_ne_notStarted (chunk : List UInt8) (err : Option ReadError) :
    (if chunk = [] then afterRead err else .outputting chunk err) ≠ .notStarted := by
  split_ifs
  · cases err <;> nofun
  · nofun

theorem carries_afterRead {failure : Option (ReadError × EndCause)} {err : Option ReadError}
    (h : failure.map Prod.fst = err) : (afterRead err).Carries failure := by
  cases err with
  | none => exact Option.map_eq_none_iff.mp h
  | some err => exact h

/-- What holds of the read pump along every run. -/
structure Inv (s : State) : Prop where
  notStarted : s.openPc.BeforePump ↔ s.pump = .notStarted
  exitOnce : s.exitOnce = s.pump.reported
  carries : s.pump.Carries s.failure

theorem inv_initial : Inv State.initial := ⟨iff_of_true (.inl rfl) rfl, rfl, rfl⟩

section Invariant

variable {l : Limits} {s s' : State} {a : Action}

theorem Inv.exitOnce_of (hs : Inv s) {pump : PumpPc} (hpump : s.pump = pump) :
    s.exitOnce = pump.reported := by
  rw [hs.exitOnce, hpump]

theorem Inv.carries_of (hs : Inv s) {pump : PumpPc} (hpump : s.pump = pump) :
    pump.Carries s.failure := by
  rw [← hpump]
  exact hs.carries

/-- A step of the read pump leaves `Open` where it is, behind the start of the pump. -/
theorem Inv.notStarted_iff_of_ne (hs : Inv s) {pump : PumpPc} (hpump : s.pump ≠ .notStarted)
    (hpump' : pump ≠ .notStarted) : s.openPc.BeforePump ↔ pump = .notStarted :=
  iff_of_false (fun hb => hpump (hs.notStarted.mp hb)) hpump'

/-- The invariant stays if nothing changes around the read pump. -/
theorem Inv.of_pump_eq (hs : Inv s) (hopen : s'.openPc.BeforePump ↔ s.openPc.BeforePump)
    (hpump : s'.pump = s.pump) (honce : s'.exitOnce = s.exitOnce)
    (hfailure : s'.failure = s.failure) : Inv s' where
  notStarted := by
    rw [hopen, hpump]
    exact hs.notStarted
  exitOnce := by
    rw [honce, hpump]
    exact hs.exitOnce
  carries := by
    rw [hpump, hfailure]
    exact hs.carries

theorem Inv.step (hs : Inv s) (h : Effect s a s') : Inv s' := by
  cases h with
  | quiet hopen hpump honce hfailure _ =>
    exact hs.of_pump_eq (by rw [hopen]) hpump honce hfailure
  | prepare hopen hopen' hpump honce hfailure _ =>
    exact hs.of_pump_eq (iff_of_true hopen' hopen) hpump honce hfailure
  | startPump hopen heq =>
    subst heq
    have hpump : s.pump = .notStarted := hs.notStarted.mp (.inr (.inr hopen))
    have honce := hs.exitOnce_of hpump
    have hcarries := hs.carries_of hpump
    exact ⟨by simp [OpenPc.BeforePump], honce, hcarries⟩
  | startWatchdog hopen watchdog heq =>
    subst heq
    exact hs.of_pump_eq (by simp [OpenPc.BeforePump, hopen]) rfl rfl rfl
  | emitStarted hopen heq =>
    subst heq
    exact hs.of_pump_eq (by simp [OpenPc.BeforePump, hopen]) rfl rfl rfl
  | read chunk err _ hpump heq =>
    subst heq
    have honce : s.exitOnce = false := hs.exitOnce_of hpump
    have hfst : (err.map fun e => (e, s.endCause)).map Prod.fst = err := by
      cases err <;> rfl
    refine ⟨hs.notStarted_iff_of_ne (by simp [hpump]) (afterRead_ne_notStarted chunk err),
      honce.trans (reported_afterRead chunk err).symm, ?_⟩
    dsimp only
    split_ifs
    · exact carries_afterRead hfst
    · exact hfst
  | output chunk err hpump heq =>
    subst heq
    have honce : s.exitOnce = false := hs.exitOnce_of hpump
    exact ⟨hs.notStarted_iff_of_ne (by simp [hpump]) (afterRead_ne_notStarted [] err),
      honce.trans (reported_afterRead [] err).symm, carries_afterRead (hs.carries_of hpump)⟩
  | reportExit err hpump heq =>
    subst heq
    -- The read pump reports for the first time.
    have honce : s.exitOnce = false := hs.exitOnce_of hpump
    obtain ⟨f, hf, hfst⟩ := Option.map_eq_some_iff.mp (hs.carries_of hpump)
    refine ⟨hs.notStarted_iff_of_ne (by simp [hpump]) (by simp [honce]), ?_, ?_⟩
    · simp [honce, PumpPc.reported]
    · simp [honce, PumpPc.Carries, hf, hfst]
  | remove exitErr hpump heq =>
    subst heq
    have honce := hs.exitOnce_of hpump
    have hcarries := hs.carries_of hpump
    exact ⟨hs.notStarted_iff_of_ne (by simp [hpump]) nofun, honce, hcarries⟩
  | emitExit exitErr _ hpump heq =>
    subst heq
    have honce := hs.exitOnce_of hpump
    obtain ⟨f, hf, -⟩ := Option.map_eq_some_iff.mp (hs.carries_of hpump)
    exact ⟨hs.notStarted_iff_of_ne (by simp [hpump]) nofun, honce, Option.isSome_of_mem hf⟩

theorem inv_of_reaches {ok : State → Action → Prop} (h : Reaches (step l) ok State.initial s) :
    Inv s :=
  h.invariant Inv (fun hs _ hstep => hs.step (effect_of_step hstep)) inv_initial

end Invariant

/-! ### What is published -/

/-- What `Open` has published. -/
def State.openEvents (s : State) : List EventType :=
  if s.openPc = .returned then [.started] else []

/-- What the read pump has published. -/
def State.pumpEvents (s : State) : List EventType :=
  if s.pump = .returned then (s.failure.map fun f => exitEvent f.1.exitErr).toList else []

section Events

variable {l : Limits} {s s' : State} {a : Action}

theorem openEvents_of_ne (h : s.openPc ≠ .returned) : s.openEvents = [] := if_neg h

theorem pumpEvents_of_ne (h : s.pump ≠ .returned) : s.pumpEvents = [] := if_neg h

theorem openEvents_congr (h : s'.openPc = s.openPc) : s'.openEvents = s.openEvents := by
  rw [State.openEvents, h, State.openEvents]

theorem pumpEvents_congr (hpump : s'.pump = s.pump) (hfailure : s'.failure = s.failure) :
    s'.pumpEvents = s.pumpEvents := by
  rw [State.pumpEvents, hpump, hfailure, State.pumpEvents]

theorem ne_returned_of_reported {pc : PumpPc} (h : pc.reported = false) : pc ≠ .returned := by
  rintro rfl
  cases h

theorem OpenPc.BeforePump.ne_returned {pc : OpenPc} (h : pc.BeforePump) : pc ≠ .returned := by
  rintro rfl
  simp [BeforePump] at h

/-- **What a step publishes**: nothing, or the start of the session by `Open`, or its end by the
read pump. -/
theorem Inv.events_step (hs : Inv s) (h : Effect s a s') :
    (s'.events = s.events ∧ s'.openEvents = s.openEvents ∧ s'.pumpEvents = s.pumpEvents) ∨
    (s'.events = s.events ++ [.started] ∧ s.openEvents = [] ∧ s'.openEvents = [.started] ∧
      s'.pumpEvents = s.pumpEvents) ∨
    ∃ e, a = .emitExit ∧ s'.events = s.events ++ [e] ∧ s'.openEvents = s.openEvents ∧
      s.pumpEvents = [] ∧ s'.pumpEvents = [e] := by
  -- The read pump is on its way, and stays on it.
  have silent : s.pump ≠ .returned → s'.pump ≠ .returned → s'.pumpEvents = s.pumpEvents :=
    fun h h' => (pumpEvents_of_ne h').trans (pumpEvents_of_ne h).symm
  cases h with
  | quiet hopen hpump _ hfailure hevents =>
    exact .inl ⟨hevents, openEvents_congr hopen, pumpEvents_congr hpump hfailure⟩
  | prepare hopen hopen' hpump _ hfailure hevents =>
    refine .inl ⟨hevents, ?_, pumpEvents_congr hpump hfailure⟩
    rw [openEvents_of_ne hopen.ne_returned, openEvents_of_ne hopen'.ne_returned]
  | startPump hopen heq =>
    subst heq
    have hpump : s.pump = .notStarted := hs.notStarted.mp (.inr (.inr hopen))
    exact .inl ⟨rfl, (openEvents_of_ne (by simp [hopen])).symm, silent (by simp [hpump]) nofun⟩
  | startWatchdog hopen watchdog heq =>
    subst heq
    exact .inl ⟨rfl, (openEvents_of_ne (by simp [hopen])).symm, rfl⟩
  | emitStarted hopen heq =>
    subst heq
    exact .inr (.inl ⟨rfl, openEvents_of_ne (by simp [hopen]), rfl, rfl⟩)
  | read chunk err _ hpump heq =>
    subst heq
    exact .inl ⟨rfl, rfl, silent (by simp [hpump])
      (ne_returned_of_reported (reported_afterRead chunk err))⟩
  | output chunk err hpump heq =>
    subst heq
    exact .inl ⟨rfl, rfl, silent (by simp [hpump])
      (ne_returned_of_reported (reported_afterRead [] err))⟩
  | reportExit err hpump heq =>
    subst heq
    have honce : s.exitOnce = false := hs.exitOnce_of hpump
    exact .inl ⟨rfl, rfl, silent (by simp [hpump]) (by simp [honce])⟩
  | remove exitErr hpump heq =>
    subst heq
    exact .inl ⟨rfl, rfl, silent (by simp [hpump]) nofun⟩
  | emitExit exitErr ha hpump heq =>
    subst heq
    obtain ⟨f, hf, rfl⟩ := Option.map_eq_some_iff.mp (hs.carries_of hpump)
    exact .inr (.inr ⟨_, ha, rfl, rfl, pumpEvents_of_ne (by simp [hpump]),
      by simp [State.pumpEvents, hf]⟩)

/-- **`Open` and the read pump publish once each**, in whichever order. -/
theorem perm_events {ok : State → Action → Prop} (h : Reaches (step l) ok State.initial s) :
    s.events.Perm (s.openEvents ++ s.pumpEvents) := by
  refine (h.invariant (fun s => Inv s ∧ s.events.Perm (s.openEvents ++ s.pumpEvents))
    (fun {s a s'} hs _ hstep => ?_) ⟨inv_initial, .nil⟩).2
  have heffect := effect_of_step hstep
  refine ⟨hs.1.step heffect, ?_⟩
  obtain ⟨he, ho, hp⟩ | ⟨he, ho, ho', hp⟩ | ⟨e, -, he, ho, hp, hp'⟩ := hs.1.events_step heffect
  · rw [he, ho, hp]
    exact hs.2
  · rw [he, ho', hp]
    have hperm : s.events.Perm s.pumpEvents := by simpa [ho] using hs.2
    exact (List.perm_append_singleton _ _).trans (hperm.cons _)
  · rw [he, ho, hp']
    have hperm : s.events.Perm s.openEvents := by simpa [hp] using hs.2
    exact hperm.append_right _

end Events

end EdgeGuardian.Agent.Shell.Session
