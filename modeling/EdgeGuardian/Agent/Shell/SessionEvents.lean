import EdgeGuardian.Agent.Shell.Session

/-!
# The events of a shell session

Two questions about what is published for a session. The first is the order of the start and the
end: `Open` starts the read pump before it publishes the start, and a read pump that fails at once
can be faster. The second is the reason of the end: `reportExit` takes `io.EOF` and
`io.ErrClosedPipe` for an exit and everything else for an error, but a PTY returns neither of them
when it is closed or when its shell has exited.

Source: `agent/internal/shell/session.go`, `agent/internal/shell/manager.go` (`Open`,
`onSessionExit`), `agent/internal/shell/pty_unix.go`.

## Main definitions

* `OnUnix`: what a read of a Unix PTY returns.
* `InTurn`: the end of a session is published only when `Open` has published its start.
* `Orderly`: the start of the session is published, then its end, and nothing else.
* `EndsCleanly`: an ordinary end is published as an exit.

## Main results

* `orderly_of_inTurn`: the events are published in order along runs in turn.
* `not_orderly_of_emitExit`: an end that is out of turn comes first.
* `endsCleanly_iff`: an end is published as it should be only if it is not an ordinary one.
-/

namespace EdgeGuardian.Agent.Shell.Session

open Transition

/-! ### The reads of a Unix PTY -/

def ReadError.isClosed : ReadError → Bool
  | closed _ => true
  | _ => false

def ReadError.isEio : ReadError → Bool
  | eio _ => true
  | _ => false

/-- What a read of the PTY returns. A read of a closed file fails with an error that matches
`os.ErrClosed`. When the shell has exited, its last output is read, and then the reads fail with
`EIO`. Nothing is assumed of the reads before. -/
def OnUnix (s : State) : Action → Prop
  | .read chunk err =>
    if s.masterClosed then chunk = [] ∧ err.any ReadError.isClosed
    else s.shellExited → err.all ReadError.isEio
  | _ => True

instance (s : State) (a : Action) : Decidable (OnUnix s a) := by
  cases a <;> unfold OnUnix <;> infer_instance

/-! ### The order of the events -/

/-- The end of the session is published only when `Open` has published its start. -/
def InTurn (s : State) (a : Action) : Prop := a = .emitExit → s.openPc = .returned

instance (s : State) (a : Action) : Decidable (InTurn s a) :=
  inferInstanceAs (Decidable (a = .emitExit → s.openPc = .returned))

/-- The start of the session is published, when `Open` has returned, and after it the end, when the
read pump has. Nothing else is published. -/
def Orderly (s : State) : Prop :=
  ∃ exitErr, s.events <+: [.started, exitEvent exitErr] ∧
    (s.openPc = .returned → .started ∈ s.events) ∧
    (s.pump = .returned → exitEvent exitErr ∈ s.events)

section Order

variable {l : Limits} {s s' : State}

/-- In turn, the events of `Open` come first, and the read pump has none without them. -/
theorem events_eq_of_inTurn (h : Reaches (step l) InTurn State.initial s) :
    s.events = s.openEvents ++ s.pumpEvents ∧ (s.openEvents = [] → s.pumpEvents = []) := by
  refine (h.invariant (fun s => Inv s ∧ s.events = s.openEvents ++ s.pumpEvents ∧
    (s.openEvents = [] → s.pumpEvents = [])) (fun {s a s'} hs hok hstep => ?_)
    ⟨inv_initial, rfl, fun _ => rfl⟩).2
  have heffect := effect_of_step hstep
  obtain ⟨hinv, heq, hfirst⟩ := hs
  refine ⟨hinv.step heffect, ?_⟩
  obtain ⟨he, ho, hp⟩ | ⟨he, ho, ho', hp⟩ | ⟨e, ha, he, ho, hp, hp'⟩ := hinv.events_step heffect
  · rw [he, ho, hp]
    exact ⟨heq, hfirst⟩
  · rw [he, heq, ho', hp, ho, hfirst ho]
    exact ⟨rfl, fun _ => rfl⟩
  · have hopen : s.openEvents = [.started] := if_pos (hok ha)
    rw [he, heq, ho, hp, hp', hopen]
    exact ⟨rfl, nofun⟩

/-- **Along every run in turn, the start of a session is published once and then its end once.** -/
theorem orderly_of_inTurn (h : Reaches (step l) InTurn State.initial s) : Orderly s := by
  obtain ⟨heq, hfirst⟩ := events_eq_of_inTurn h
  by_cases hpump : s.pump = .returned
  · obtain ⟨f, hf⟩ := Option.isSome_iff_exists.mp ((inv_of_reaches h).carries_of hpump)
    have hp : s.pumpEvents = [exitEvent f.1.exitErr] := by simp [State.pumpEvents, hpump, hf]
    have hopen : s.openPc = .returned := by
      by_contra hne
      have hnil := hfirst (openEvents_of_ne hne)
      rw [hp] at hnil
      cases hnil
    have ho : s.openEvents = [.started] := if_pos hopen
    rw [ho, hp] at heq
    exact ⟨f.1.exitErr, by simp [heq], by simp [heq], by simp [heq]⟩
  · rw [pumpEvents_of_ne hpump, List.append_nil] at heq
    by_cases hopen : s.openPc = .returned
    · have ho : s.openEvents = [.started] := if_pos hopen
      exact ⟨none, by simp [heq, ho], by simp [heq, ho], fun h => absurd h hpump⟩
    · rw [openEvents_of_ne hopen] at heq
      exact ⟨none, by simp [heq], fun h => absurd h hopen, fun h => absurd h hpump⟩

theorem exitEvent_ne_started (exitErr : Option String) : exitEvent exitErr ≠ .started := by
  cases exitErr <;> nofun

/-- A session with a watchdog whose shell prints a byte and is closed by the idle timeout. -/
theorem orderly_of_inTurn_idleTimeout : ∃ s,
    Reaches (step ⟨5, 0⟩) InTurn State.initial s ∧ Orderly s ∧ s.closedBy = some .idleTimeout ∧
      s.events = [.started, .error "read /dev/ptmx: file already closed"] := by
  obtain ⟨s, hs, hclosed, hevents⟩ : ∃ s, Reaches (step ⟨5, 0⟩) InTurn State.initial s ∧
      s.closedBy = some .idleTimeout ∧
      s.events = [.started, .error "read /dev/ptmx: file already closed"] :=
    exists_reaches_of_execBy
      [.store, .touch, .startPump, .read [36] none, .startWatchdog, .output, .watchdogBegin,
        .advance 6, .tick, .enterClose 0, .closeMaster 0,
        .read [] (some (.closed "read /dev/ptmx: file already closed")), .reportExit, .remove,
        .emitStarted, .emitExit, .kill 0]
      ⟨_, rfl, by decide, by decide⟩
  exact ⟨s, hs, orderly_of_inTurn hs, hclosed, hevents⟩

/-- The shell exits at once, and the read pump is faster than `Open`: the end of the session is
published before its start. -/
theorem not_orderly : ∃ s, Reaches (step ⟨5, 0⟩) OnUnix State.initial s ∧
    s.openPc = .returned ∧ s.pump = .returned ∧
    s.events = [.error "read /dev/ptmx: input/output error", .started] ∧ ¬ Orderly s := by
  obtain ⟨s, hs, hopen, hpump, hevents⟩ : ∃ s, Reaches (step ⟨5, 0⟩) OnUnix State.initial s ∧
      s.openPc = .returned ∧ s.pump = .returned ∧
      s.events = [.error "read /dev/ptmx: input/output error", .started] :=
    exists_reaches_of_execBy
      [.store, .touch, .startPump, .shellExit,
        .read [] (some (.eio "read /dev/ptmx: input/output error")), .reportExit, .remove,
        .emitExit, .startWatchdog, .emitStarted]
      ⟨_, rfl, by decide, by decide, by decide⟩
  refine ⟨s, hs, hopen, hpump, hevents, ?_⟩
  rintro ⟨_, hprefix, -⟩
  rw [hevents] at hprefix
  exact absurd (List.cons_prefix_cons.mp hprefix).1 (by decide)

/-- An end that is published out of turn is the first event. -/
theorem not_orderly_of_emitExit {ok : State → Action → Prop}
    (h : Reaches (step l) ok State.initial s) (hstep : step l s .emitExit = some s')
    (hopen : s.openPc ≠ .returned) : ¬ Orderly s' := by
  simp only [step, stepPump] at hstep
  split at hstep
  next exitErr hpump =>
    have hnil : s.events = [] := by
      have hperm := perm_events h
      rw [openEvents_of_ne hopen, pumpEvents_of_ne (by simp [hpump])] at hperm
      exact hperm.eq_nil
    rintro ⟨_, hprefix, -⟩
    rw [← Option.some_inj.mp hstep, hnil] at hprefix
    exact exitEvent_ne_started exitErr (List.cons_prefix_cons.mp hprefix).1
  next => cases hstep

/-- Until both have returned, `Open` or the read pump has a step to take, in turn. -/
theorem exists_step_inTurn {ok : State → Action → Prop} (h : Reaches (step l) ok State.initial s)
    (hne : s.openPc ≠ .returned ∨ s.pump ≠ .returned) :
    ∃ a s', InTurn s a ∧ (stepOpen l s a = some s' ∨ stepPump s a = some s') := by
  cases hopen : s.openPc with
  | ptyStarted => exact ⟨.store, _, by simp [InTurn], .inl (if_pos hopen)⟩
  | stored => exact ⟨.touch, _, by simp [InTurn], .inl (if_pos hopen)⟩
  | touched => exact ⟨.startPump, _, by simp [InTurn], .inl (if_pos hopen)⟩
  | pumpStarted => exact ⟨.startWatchdog, _, by simp [InTurn], .inl (if_pos hopen)⟩
  | watchdogStarted => exact ⟨.emitStarted, _, by simp [InTurn], .inl (if_pos hopen)⟩
  | returned =>
    cases hpump : s.pump with
    | notStarted =>
      have hb := (inv_of_reaches h).notStarted.mpr hpump
      exact absurd hopen hb.ne_returned
    | reading => exact ⟨.read [] (some .eof), _, by simp [InTurn], .inr (if_pos hpump)⟩
    | outputting chunk err => exact ⟨.output, _, by simp [InTurn], .inr (by rw [stepPump, hpump])⟩
    | reporting err => exact ⟨.reportExit, _, by simp [InTurn], .inr (by rw [stepPump, hpump])⟩
    | removing exitErr => exact ⟨.remove, _, by simp [InTurn], .inr (by rw [stepPump, hpump])⟩
    | emitting exitErr => exact ⟨.emitExit, _, fun _ => hopen, .inr (by rw [stepPump, hpump])⟩
    | returned => exact absurd hpump (hne.resolve_left (not_not.mpr hopen))

end Order

/-! ### The reason of an end -/

/-- The reads have failed because the PTY was closed, or because the shell had exited. -/
def State.OrdinaryEnd (s : State) : Prop := ∃ f ∈ s.failure, f.2 ≠ .otherReason

/-- An ordinary end is published as an exit, and nothing but another end as an error. -/
def EndsCleanly (s : State) : Prop :=
  (s.pump = .returned → s.OrdinaryEnd → .exited ∈ s.events) ∧
    ∀ msg, .error msg ∈ s.events → ¬ s.OrdinaryEnd

section Ends

variable {l : Limits} {s s' : State} {a : Action}

/-- `reportExit` has a text to pass on for every read that fails at an ordinary end. -/
theorem exitErr_of_onUnix {chunk : List UInt8} {err : ReadError}
    (h : OnUnix s (.read chunk (some err))) (hcause : s.endCause ≠ .otherReason) :
    err.exitErr.isSome := by
  by_cases hclosed : s.masterClosed = true
  · simp only [OnUnix, hclosed, if_true] at h
    cases err <;> simp_all [ReadError.isClosed, ReadError.exitErr]
  · by_cases hexited : s.shellExited = true
    · rw [OnUnix, if_neg hclosed] at h
      have heio := h hexited
      cases err <;> simp_all [ReadError.isEio, ReadError.exitErr]
    · simp [State.endCause, hclosed, hexited] at hcause

/-- Every ordinary end has a text. -/
theorem exitErr_of_ordinaryEnd (h : Reaches (step l) OnUnix State.initial s) :
    ∀ f ∈ s.failure, f.2 ≠ .otherReason → f.1.exitErr.isSome := by
  refine h.invariant (fun s => ∀ f ∈ s.failure, f.2 ≠ .otherReason → f.1.exitErr.isSome)
    (fun {s a s'} hs hok hstep => ?_) nofun
  cases effect_of_step hstep with
  | quiet _ _ _ hfailure _ | prepare _ _ _ _ hfailure _ =>
    rw [hfailure]
    exact hs
  | read chunk err ha _ heq =>
    subst ha heq
    intro f hf hcause
    obtain ⟨e, rfl, rfl⟩ := Option.map_eq_some_iff.mp hf
    exact exitErr_of_onUnix hok hcause
  | startPump _ heq | startWatchdog _ _ heq | emitStarted _ heq | output _ _ _ heq
  | reportExit _ _ heq | remove _ _ heq | emitExit _ _ _ heq =>
    subst heq
    exact hs

/-- The end that the read pump has published. -/
theorem exitEvent_mem_events {ok : State → Action → Prop}
    (h : Reaches (step l) ok State.initial s) (hpump : s.pump = .returned)
    {f : ReadError × EndCause} (hf : f ∈ s.failure) : exitEvent f.1.exitErr ∈ s.events := by
  rw [(perm_events h).mem_iff]
  have hp : s.pumpEvents = [exitEvent f.1.exitErr] := by
    rw [State.pumpEvents, if_pos hpump, Option.mem_def.mp hf]
    rfl
  exact List.mem_append_right _ (hp ▸ List.mem_singleton_self _)

/-- Only the read pump publishes an error, and nothing after it. -/
theorem returned_of_error_mem {ok : State → Action → Prop}
    (h : Reaches (step l) ok State.initial s) {msg : String} (hmem : .error msg ∈ s.events) :
    s.pump = .returned := by
  rw [(perm_events h).mem_iff] at hmem
  rcases List.mem_append.mp hmem with hmem | hmem
  · rw [State.openEvents] at hmem
    split_ifs at hmem
    · cases List.mem_singleton.mp hmem
    · cases hmem
  · by_contra hne
    rw [pumpEvents_of_ne hne] at hmem
    cases hmem

/-- **On Unix, no ordinary end is published as an exit.** A session ends as it should as long as its
end is not an ordinary one: the errors of both ordinary ends are texts for `reportExit`. -/
theorem endsCleanly_iff (h : Reaches (step l) OnUnix State.initial s) :
    EndsCleanly s ↔ (s.pump = .returned → ¬ s.OrdinaryEnd) := by
  constructor
  · rintro hclean hpump ⟨f, hf, hcause⟩
    obtain ⟨text, htext⟩ := Option.isSome_iff_exists.mp (exitErr_of_ordinaryEnd h f hf hcause)
    have hmem := exitEvent_mem_events h hpump hf
    rw [htext] at hmem
    exact hclean.2 text hmem ⟨f, hf, hcause⟩
  · intro hend
    refine ⟨fun hpump hordinary => absurd hordinary (hend hpump), fun msg hmem => ?_⟩
    exact hend (returned_of_error_mem h hmem)

/-- A session whose reads fail while its shell runs. -/
theorem endsCleanly_iff_otherReason : ∃ s, Reaches (step ⟨5, 0⟩) OnUnix State.initial s ∧
    s.pump = .returned ∧ EndsCleanly s ∧
      s.events = [.started, .error "read /dev/ptmx: cannot allocate memory"] := by
  obtain ⟨s, hs, hpump, hfailure, hevents⟩ : ∃ s,
      Reaches (step ⟨5, 0⟩) OnUnix State.initial s ∧ s.pump = .returned ∧
      s.failure.map Prod.snd = some .otherReason ∧
      s.events = [.started, .error "read /dev/ptmx: cannot allocate memory"] :=
    exists_reaches_of_execBy
      [.store, .touch, .startPump, .startWatchdog, .emitStarted, .read [36] none, .output, .input,
        .read [] (some (.other "read /dev/ptmx: cannot allocate memory")), .reportExit, .remove,
        .emitExit]
      ⟨_, rfl, by decide, by decide, by decide⟩
  refine ⟨s, hs, hpump, (endsCleanly_iff hs).mpr fun _ => ?_, hevents⟩
  rintro ⟨f, hf, hcause⟩
  rw [Option.mem_def.mp hf] at hfailure
  exact hcause (Option.some_inj.mp hfailure)

/-- A shell that exits by itself and a session that `Control` closes both end with an error. -/
theorem not_endsCleanly :
    (∃ s, Reaches (step ⟨5, 0⟩) OnUnix State.initial s ∧ s.closedBy = none ∧
      s.events = [.started, .error "read /dev/ptmx: input/output error"] ∧ ¬ EndsCleanly s) ∧
    ∃ s, Reaches (step ⟨5, 0⟩) OnUnix State.initial s ∧ s.closedBy = some .control ∧
      s.events = [.started, .error "read /dev/ptmx: file already closed"] ∧ ¬ EndsCleanly s := by
  constructor
  · obtain ⟨s, hs, hclosed, hevents, hfailure⟩ : ∃ s,
        Reaches (step ⟨5, 0⟩) OnUnix State.initial s ∧ s.closedBy = none ∧
        s.events = [.started, .error "read /dev/ptmx: input/output error"] ∧
        s.failure = some (.eio "read /dev/ptmx: input/output error", .shellExited) :=
      exists_reaches_of_execBy
        [.store, .touch, .startPump, .startWatchdog, .emitStarted, .input, .shellExit,
          .read [36] none, .output, .read [] (some (.eio "read /dev/ptmx: input/output error")),
          .reportExit, .remove, .emitExit]
        ⟨_, rfl, by decide, by decide, by decide⟩
    have hmem : .error "read /dev/ptmx: input/output error" ∈ s.events := by simp [hevents]
    exact ⟨s, hs, hclosed, hevents, fun h => h.2 _ hmem ⟨_, hfailure, nofun⟩⟩
  · obtain ⟨s, hs, hclosed, hevents, hfailure⟩ : ∃ s,
        Reaches (step ⟨5, 0⟩) OnUnix State.initial s ∧ s.closedBy = some .control ∧
        s.events = [.started, .error "read /dev/ptmx: file already closed"] ∧
        s.failure = some (.closed "read /dev/ptmx: file already closed", .closed) :=
      exists_reaches_of_execBy
        [.store, .touch, .startPump, .startWatchdog, .emitStarted, .callClose false,
          .enterClose 0, .closeMaster 0, .kill 0,
          .read [] (some (.closed "read /dev/ptmx: file already closed")), .reportExit, .remove,
          .emitExit]
        ⟨_, rfl, by decide, by decide, by decide⟩
    have hmem : .error "read /dev/ptmx: file already closed" ∈ s.events := by simp [hevents]
    exact ⟨s, hs, hclosed, hevents, fun h => h.2 _ hmem ⟨_, hfailure, nofun⟩⟩

end Ends

end EdgeGuardian.Agent.Shell.Session
