import EdgeGuardian.Agent.Plugins.ServiceManager
import Mathlib.Data.List.DropRight

/-!
# Services under systemd

On Linux the executor of the service manager asks `systemctl`. Its queries end with an error code
where the answer is no, and the executor tells a no from a failure by the word that is printed: for
any other word than three, the query has failed, and the manager reports an error and leaves the
service alone. A unit that has failed, that is being started or stopped, or that is masked has
such a word.

`systemctl` is a parameter here: what its manual says of it is stated as laws, for units that stay
up once they are started and change their state by its commands only. It may fail to reach systemd
at any time. The start or the stop of a unit may start or stop the units that are linked with it: by
a dependency (`Requires=`, `Wants=` and so on), by `Conflicts=`, or as another name of the same
unit.

Source: `agent/plugins/service/executor_linux.go`, `agent/plugins/service/service.go`.

## Main definitions

* `Systemctl`, `runCheck`, `realSystemd`: the executor.
* `Documented`: what `systemctl` does.
* `Answerable`: the states of a unit that the manager can tell.
* `Apart`: the specs are for the unit itself or for units that are not linked with it.
* `passes`: the passes of the manager, one after the other.

## Main results

* `left_alone`: a unit in another state is left as it is, by every pass.
* `running_iff_of_passes`: which services run after some passes.
-/

namespace EdgeGuardian.Agent.Systemd

open ServiceManager Reconciler

/-! ### The executor -/

/-- What `cmd.CombinedOutput` returns: the output, and the text of the error. -/
structure Answer where
  output : String
  err : Option String
deriving DecidableEq, Repr

/-- `systemctl`, with a verb and a name. -/
abbrev Systemctl (σ : Type*) := String → String → σ → Answer × σ

/-- `unicode.IsSpace`. -/
def isSpace (c : Char) : Bool :=
  c.toNat ∈ [0x09, 0x0A, 0x0B, 0x0C, 0x0D, 0x20, 0x85, 0xA0, 0x1680, 0x2000, 0x2001, 0x2002, 0x2003,
    0x2004, 0x2005, 0x2006, 0x2007, 0x2008, 0x2009, 0x200A, 0x2028, 0x2029, 0x202F, 0x205F, 0x3000]

/-- `strings.TrimSpace`. -/
def trimSpace (text : String) : String :=
  String.ofList ((text.toList.dropWhile isSpace).rdropWhile isSpace)

section Executor

variable {σ : Type*} (systemctl : Systemctl σ)

/-- The text of an error. -/
def failure (verb name : String) (answer : Answer) (err : String) : String :=
  "systemctl " ++ verb ++ " " ++ name ++ ": " ++ trimSpace answer.output ++ ": " ++ err

/-- `runCheck`. -/
def runCheck (verb name : String) (s : σ) : Except String Bool × σ :=
  match systemctl verb name s with
  | (answer, s) =>
    let result := trimSpace answer.output
    match answer.err with
    | some err =>
      if result = "inactive" ∨ result = "disabled" ∨ result = "unknown" then (.ok false, s)
      else (.error (failure verb name answer err), s)
    | none => (.ok (result = "active" || result = "enabled"), s)

/-- `run`. -/
def run (verb name : String) (s : σ) : Except String Unit × σ :=
  match systemctl verb name s with
  | (answer, s) =>
    match answer.err with
    | some err => (.error (failure verb name answer err), s)
    | none => (.ok (), s)

/-- `RealSystemd`. -/
def realSystemd : ServiceExecutor σ where
  isActive := runCheck systemctl "is-active"
  isEnabled := runCheck systemctl "is-enabled"
  start := run systemctl "start"
  stop := run systemctl "stop"
  enable := run systemctl "enable"
  disable := run systemctl "disable"

end Executor

/-! ### What systemctl does -/

/-- The state of a unit, as a word of `is-active`. -/
abbrev ActiveState := String

/-- systemd has answered: `is-active` prints the state, and succeeds for a unit that is active or
reloading. -/
def Answers {σ : Type*} (systemctl : Systemctl σ) (unit : σ → String → ActiveState) (n : String)
    (s : σ) : Prop :=
  trimSpace (systemctl "is-active" n s).1.output = unit s n ∧
    ((systemctl "is-active" n s).1.err = none ↔ unit s n = "active" ∨ unit s n = "reloading")

/-- systemd has not been reached: there is an error, and none of the words of a unit that is not
running. -/
def Answer.Unreachable (a : Answer) : Prop :=
  a.err.isSome ∧ trimSpace a.output ∉ ["inactive", "disabled", "unknown"]

/-- `systemctl` as its manual has it, for units that stay up once they are started. -/
structure Documented {σ : Type*} (linked : String → String → Prop) (systemctl : Systemctl σ)
    (unit : σ → String → ActiveState) : Prop where
  /-- Nothing happens to another unit that is not linked with the unit. -/
  frame : ∀ verb n s k, k ≠ n → ¬ linked n k → unit (systemctl verb n s).2 k = unit s k
  /-- Queries change nothing, and neither do the commands for the start at boot. -/
  query : ∀ verb ∈ ["is-active", "is-enabled", "enable", "disable"], ∀ n s k,
    unit (systemctl verb n s).2 k = unit s k
  /-- `is-active` answers, or does not reach systemd. -/
  isActive : ∀ n s, Answers systemctl unit n s ∨ (systemctl "is-active" n s).1.Unreachable
  /-- A unit that has been started is active. -/
  start : ∀ n s, (systemctl "start" n s).1.err = none → unit (systemctl "start" n s).2 n = "active"

/-- The states that the manager can tell. -/
def Answerable (state : ActiveState) : Prop :=
  state ∈ ["active", "reloading", "inactive", "disabled", "unknown"]

/-- The specs are for the unit `n`, or for units that are not linked with it. -/
def Apart (linked : String → String → Prop) (n : String) (specs : List ServiceSpec) : Prop :=
  ∀ spec ∈ specs, spec.name ≠ n → ¬ linked spec.name n

/-! ### One service -/

section Service

variable {σ : Type*} {linked : String → String → Prop} {systemctl : Systemctl σ}
  {unit : σ → String → ActiveState} {n : String} {s : σ}

@[simp] theorem runCheck_snd (verb name : String) (s : σ) :
    (runCheck systemctl verb name s).2 = (systemctl verb name s).2 := by
  rw [runCheck]
  dsimp only
  split
  · split_ifs <;> rfl
  · rfl

@[simp] theorem run_snd (verb name : String) (s : σ) :
    (run systemctl verb name s).2 = (systemctl verb name s).2 := by
  rw [run]
  dsimp only
  split <;> rfl

/-- A unit in another state has no answer. -/
theorem isActive_error (hctl : Documented linked systemctl unit) (hs : ¬ Answerable (unit s n)) :
    ∃ e, (runCheck systemctl "is-active" n s).1 = .error e := by
  have hwords : ∀ state, ¬ Answerable state →
      state ∉ ["inactive", "disabled", "unknown"] ∧ ¬ (state = "active" ∨ state = "reloading") := by
    intro state hstate
    simp only [Answerable, List.mem_cons, List.not_mem_nil, or_false, not_or] at hstate ⊢
    exact ⟨hstate.2.2, hstate.1, hstate.2.1⟩
  obtain ⟨err, herr, hword⟩ : ∃ err, (systemctl "is-active" n s).1.err = some err ∧
      trimSpace (systemctl "is-active" n s).1.output ∉ ["inactive", "disabled", "unknown"] := by
    rcases hctl.isActive n s with ⟨hword, hzero⟩ | ⟨hsome, hword⟩
    · obtain ⟨hnot, hcode⟩ := hwords _ hs
      obtain ⟨err, herr⟩ := Option.ne_none_iff_exists'.mp (mt hzero.mp hcode)
      exact ⟨err, herr, hword ▸ hnot⟩
    · obtain ⟨err, herr⟩ := Option.isSome_iff_exists.mp hsome
      exact ⟨err, herr, hword⟩
  rw [runCheck]
  simp only [herr]
  rw [if_neg (by simpa using hword)]
  exact ⟨_, rfl⟩

/-- The answer for a unit whose state the manager can tell. -/
theorem isActive_ok (hanswers : Answers systemctl unit n s) (hs : Answerable (unit s n)) :
    (runCheck systemctl "is-active" n s).1 = .ok (unit s n = "active") := by
  obtain ⟨hword, hzero⟩ := hanswers
  rw [runCheck]
  simp only [hword]
  rcases herr : (systemctl "is-active" n s).1.err with _ | err
  · rcases hzero.mp herr with hactive | hreloading
    · simp [hactive]
    · simp [hreloading]
  · have hcode : ¬ (unit s n = "active" ∨ unit s n = "reloading") := by
      rw [← hzero, herr]
      nofun
    simp only [Answerable, List.mem_cons, List.not_mem_nil, or_false] at hs
    rw [not_or] at hcode
    have hno := (hs.resolve_left hcode.1).resolve_left hcode.2
    simp [hno, hcode.1]

/-- What a query and the two commands keep, the reconciliation of the aspect keeps. -/
theorem reconcileAspect_keeps {P : σ → Prop} {query : σ → Except String Bool × σ}
    {on off : σ → Except String Unit × σ} (hquery : ∀ s, P s → P (query s).2)
    (hon : ∀ s, P s → P (on s).2) (hoff : ∀ s, P s → P (off s).2) (texts : AspectTexts)
    (want : Bool) (hs : P s) : P (reconcileAspect query on off texts want s).2 := by
  have hcorrect {command : σ → Except String Unit × σ} (hcommand : ∀ s, P s → P (command s).2)
      (text change : String) {s : σ} (hs : P s) : P (correct command text change s).2 := by
    have h := hcommand s hs
    rw [correct]
    rcases hc : command s with ⟨e | u, t⟩ <;> rwa [hc] at h
  have h := hquery s hs
  rw [reconcileAspect]
  rcases hq : query s with ⟨e | is, t⟩
  · rwa [hq] at h
  · rw [hq] at h
    dsimp only
    split_ifs
    · exact hcorrect hon _ _ h
    · exact hcorrect hoff _ _ h
    · exact h

/-- The state of another unit that is not linked, and that of every unit when one is asked or set to
start at boot, are kept. -/
theorem unit_systemctl (hctl : Documented linked systemctl unit) {verb name k : String}
    {state : ActiveState} (h : k ≠ name ∧ ¬ linked name k ∨
      verb ∈ ["is-active", "is-enabled", "enable", "disable"])
    (s : σ) (hs : unit s k = state) : unit (systemctl verb name s).2 k = state := by
  rcases h with ⟨hk, hlinked⟩ | hverb
  · exact (hctl.frame verb name s k hk hlinked).trans hs
  · exact (hctl.query verb hverb name s k).trans hs

/-- The aspect of the start at boot leaves every unit in its state. -/
theorem unit_reconcileEnabled (hctl : Documented linked systemctl unit) (spec : ServiceSpec)
    {k : String} {state : ActiveState} (hs : unit s k = state) :
    unit (reconcileEnabled (realSystemd systemctl) spec s).2 k = state := by
  rw [reconcileEnabled]
  split_ifs
  · exact hs
  · refine reconcileAspect_keeps (P := fun s => unit s k = state) ?_ ?_ ?_ _ _ hs
    · intro s hs
      show unit (runCheck systemctl _ _ s).2 k = state
      rw [runCheck_snd]
      exact unit_systemctl hctl (.inr (by decide)) s hs
    · intro s hs
      show unit (run systemctl _ _ s).2 k = state
      rw [run_snd]
      exact unit_systemctl hctl (.inr (by decide)) s hs
    · intro s hs
      show unit (run systemctl _ _ s).2 k = state
      rw [run_snd]
      exact unit_systemctl hctl (.inr (by decide)) s hs

/-- The state of a service leaves the units that are not linked with it in theirs. -/
theorem unit_reconcileState_of_ne (hctl : Documented linked systemctl unit) (spec : ServiceSpec)
    {k : String} {state : ActiveState} (hk : k ≠ spec.name ∧ ¬ linked spec.name k)
    (hs : unit s k = state) :
    unit (reconcileState (realSystemd systemctl) spec s).2 k = state := by
  rw [reconcileState]
  split_ifs
  · exact hs
  · refine reconcileAspect_keeps (P := fun s => unit s k = state) ?_ ?_ ?_ _ _ hs
    · intro s hs
      show unit (runCheck systemctl _ _ s).2 k = state
      rw [runCheck_snd]
      exact unit_systemctl hctl (.inl hk) s hs
    · intro s hs
      show unit (run systemctl _ _ s).2 k = state
      rw [run_snd]
      exact unit_systemctl hctl (.inl hk) s hs
    · intro s hs
      show unit (run systemctl _ _ s).2 k = state
      rw [run_snd]
      exact unit_systemctl hctl (.inl hk) s hs

/-- What the two aspects leave is what the service is left in. -/
theorem reconcileService_snd {exec : ServiceExecutor σ} {spec : ServiceSpec} {P : σ → Prop}
    (hs : spec.name = "" → P s) (hstate : P (reconcileState exec spec s).2)
    (henabled : ∀ t, P t → P (reconcileEnabled exec spec t).2) :
    P (reconcileService exec spec s).2 := by
  rw [reconcileService]
  split_ifs with hname
  · exact hs hname
  · rcases hr : reconcileState exec spec s with ⟨failure | changes, t⟩ <;> rw [hr] at hstate
    · exact hstate
    · have h := henabled t hstate
      dsimp only
      rcases hr' : reconcileEnabled exec spec t with ⟨failure | changes', u⟩ <;> rwa [hr'] at h

/-- A service is reconciled without a change to another unit that is not linked with it. -/
theorem unit_reconcileService_of_ne (hctl : Documented linked systemctl unit) (spec : ServiceSpec)
    {k : String} {state : ActiveState} (hk : k ≠ spec.name ∧ ¬ linked spec.name k)
    (hs : unit s k = state) :
    unit (reconcileService (realSystemd systemctl) spec s).2 k = state :=
  reconcileService_snd (P := fun s => unit s k = state) (fun _ => hs)
    (unit_reconcileState_of_ne hctl spec hk hs) fun _ ht => unit_reconcileEnabled hctl spec ht

/-- The query of a unit in another state ends the reconciliation of the service. -/
theorem reconcileState_of_not_answerable (hctl : Documented linked systemctl unit)
    {spec : ServiceSpec} (hstate : spec.state ≠ "") (hs : ¬ Answerable (unit s spec.name)) :
    ∃ e, (reconcileState (realSystemd systemctl) spec s).1 =
        .error (.skipped, "check active state: " ++ e) ∧
      unit (reconcileState (realSystemd systemctl) spec s).2 spec.name = unit s spec.name := by
  obtain ⟨e, he⟩ := isActive_error hctl hs
  have hsame := hctl.query "is-active" (by decide) spec.name s spec.name
  rw [← runCheck_snd] at hsame
  rw [reconcileState, if_neg hstate, reconcileAspect]
  have hquery : (realSystemd systemctl).isActive = runCheck systemctl "is-active" := rfl
  rw [hquery]
  rcases hq : runCheck systemctl "is-active" spec.name s with ⟨e' | is, t⟩ <;> rw [hq] at he hsame
  · exact ⟨e', rfl, hsame⟩
  · cases he

/-- **A unit in another state is left as it is**, and the action says so. -/
theorem reconcileService_of_not_answerable (hctl : Documented linked systemctl unit)
    {spec : ServiceSpec} (hs : ¬ Answerable (unit s spec.name)) :
    unit (reconcileService (realSystemd systemctl) spec s).2 spec.name = unit s spec.name ∧
      (spec.name ≠ "" → spec.state ≠ "" →
        ∃ e, (reconcileService (realSystemd systemctl) spec s).1 =
          failed spec.name (.skipped, "check active state: " ++ e)) := by
  refine ⟨?_, ?_⟩
  · refine reconcileService_snd (P := fun t => unit t spec.name = unit s spec.name)
      (fun _ => rfl) ?_ fun _ ht => unit_reconcileEnabled hctl spec ht
    by_cases hstate : spec.state = ""
    · rw [reconcileState, if_pos hstate]
    · obtain ⟨e, -, hsame⟩ := reconcileState_of_not_answerable hctl hstate hs
      exact hsame
  · intro hname hstate
    obtain ⟨e, he, -⟩ := reconcileState_of_not_answerable hctl hstate hs
    refine ⟨e, ?_⟩
    rw [reconcileService, if_neg hname]
    rcases hr : reconcileState (realSystemd systemctl) spec s with ⟨failure | changes, t⟩ <;>
      rw [hr] at he <;> cases he
    rfl

/-- A service whose unit the manager can tell runs afterwards, if systemd is reached and the start
succeeds. -/
theorem reconcileService_running (hctl : Documented linked systemctl unit) {spec : ServiceSpec}
    (hname : spec.name ≠ "") (hstate : spec.state = "running")
    (hanswers : ∀ s, Answers systemctl unit spec.name s)
    (hstart : ∀ s, (systemctl "start" spec.name s).1.err = none)
    (hs : Answerable (unit s spec.name)) :
    unit (reconcileService (realSystemd systemctl) spec s).2 spec.name = "active" := by
  have hquery : (realSystemd systemctl).isActive = runCheck systemctl "is-active" := rfl
  have hrun : (realSystemd systemctl).start = run systemctl "start" := rfl
  have hanswer := isActive_ok (hanswers s) hs
  have hsame := hctl.query "is-active" (by decide) spec.name s spec.name
  rw [← runCheck_snd] at hsame
  have hrunning : unit (reconcileState (realSystemd systemctl) spec s).2 spec.name = "active" := by
    rw [reconcileState, if_neg (by simp [hstate]), reconcileAspect, hquery, hrun]
    rcases hq : runCheck systemctl "is-active" spec.name s with ⟨e | is, t⟩ <;>
      rw [hq] at hanswer hsame
    · cases hanswer
    · obtain rfl : is = decide (unit s spec.name = "active") := Except.ok.inj hanswer
      dsimp only at hsame ⊢
      by_cases hactive : unit s spec.name = "active"
      · simpa [hactive, hstate] using hsame.trans hactive
      · have hstarted := hctl.start spec.name t (hstart t)
        rw [← run_snd] at hstarted
        simp only [hactive, hstate, decide_true, decide_false, Bool.not_false, Bool.and_true,
          if_true, correct]
        rcases hc : run systemctl "start" spec.name t with ⟨e | u, v⟩ <;> rwa [hc] at hstarted
  exact reconcileService_snd (P := fun s => unit s spec.name = "active")
    (fun h => absurd h hname) hrunning fun _ ht => unit_reconcileEnabled hctl spec ht

end Service

/-! ### Passes -/

section Passes

variable {σ : Type*} {linked : String → String → Prop} {systemctl : Systemctl σ}
  {unit : σ → String → ActiveState} {n : String} {s : σ}

/-- The passes of the manager, one after the other. -/
def passes (systemctl : Systemctl σ) (ps : List (Context × List ServiceSpec)) (s : σ) :
    List (List Action) × σ :=
  KeyedPass.run (fun p => reconcile (realSystemd systemctl) p.1 p.2) ps s

/-- What the manager says of a unit that it cannot tell. -/
def CannotTell (n : String) (spec : ServiceSpec) (action : Action) : Prop :=
  spec.name = n → spec.state ≠ "" →
    ∃ e, action = failed n (.skipped, "check active state: " ++ e)

/-- One pass leaves a unit in another state as it is. -/
theorem pass_of_not_answerable (hctl : Documented linked systemctl unit) (hname : n ≠ "")
    {state : ActiveState} (hstate : ¬ Answerable state) {p : Context × List ServiceSpec}
    (hapart : Apart linked n p.2) (hs : unit s n = state) :
    unit (reconcile (realSystemd systemctl) p.1 p.2 s).2 n = state ∧
      ∀ q ∈ (p.1.reached p.2).zip (reconcile (realSystemd systemctl) p.1 p.2 s).1,
        CannotTell n q.1 q.2 := by
  rw [reconcile_snd, zip_reconcile]
  refine KeyedPass.forall_run (P := fun t => unit t n = state) (fun spec hmem t ht => ?_) hs
  by_cases hspec : spec.name = n
  · subst hspec
    rw [← ht] at hstate
    obtain ⟨hsame, haction⟩ := reconcileService_of_not_answerable hctl hstate
    exact ⟨hsame.trans ht, fun _ => haction hname⟩
  · have hlinked := hapart spec (Context.mem_of_mem_reached hmem) hspec
    exact ⟨unit_reconcileService_of_ne hctl spec ⟨Ne.symm hspec, hlinked⟩ ht,
      fun h => absurd h hspec⟩

/-- **A unit in another state is left as it is** by every sequence of passes, whatever they ask of
it and of units that are not linked with it, and every action for its state is skipped with an
error. -/
theorem left_alone (hctl : Documented linked systemctl unit) (hname : n ≠ "")
    (hs : ¬ Answerable (unit s n)) {ps : List (Context × List ServiceSpec)}
    (hapart : ∀ p ∈ ps, Apart linked n p.2) :
    unit (passes systemctl ps s).2 n = unit s n ∧
      ∀ p ∈ ps.zip (passes systemctl ps s).1, ∀ q ∈ (p.1.1.reached p.1.2).zip p.2,
        CannotTell n q.1 q.2 :=
  KeyedPass.forall_run (P := fun t => unit t n = unit s n)
    (Q := fun (p : Context × List ServiceSpec) (actions : List Action) =>
      ∀ q ∈ (p.1.reached p.2).zip actions, CannotTell n q.1 q.2)
    (fun p hp _ ht => pass_of_not_answerable hctl hname hs (hapart p hp) ht) rfl

/-- A unit that every step leaves as it is or active. -/
theorem active_run {ι α : Type*} {step : ι → σ → α × σ} {T : ι → Prop} {xs : List ι}
    (hstep : ∀ x ∈ xs, ∀ t, Answerable (unit t n) →
      unit (step x t).2 n = "active" ∨ ¬ T x ∧ unit (step x t).2 n = unit t n)
    (hs : Answerable (unit s n)) :
    unit (KeyedPass.run step xs s).2 n = "active" ∨
      (∀ x ∈ xs, ¬ T x) ∧ unit (KeyedPass.run step xs s).2 n = unit s n := by
  induction xs generalizing s with
  | nil => exact .inr ⟨nofun, rfl⟩
  | cons x xs ih =>
    have hactive : Answerable "active" := List.mem_cons_self
    have hrest := fun t => ih (s := t) fun y hy => hstep y (List.mem_cons_of_mem _ hy)
    rw [KeyedPass.run, List.forall_mem_cons]
    rcases hstep x List.mem_cons_self s hs with hx | ⟨hT, hx⟩
    · rcases hrest (step x s).2 (hx ▸ hactive) with h | ⟨-, h⟩
      · exact .inl h
      · exact .inl (h.trans hx)
    · rcases hrest (step x s).2 (hx ▸ hs) with h | ⟨hxs, h⟩
      · exact .inl h
      · exact .inr ⟨⟨hT, hxs⟩, h.trans hx⟩

/-- **Which services run after some passes.** Where systemd is reached, the start of a unit
succeeds, and the other specs are for units that are not linked with it, a service that is to run by
every spec for it, and is reached by one of the passes, runs afterwards if and only if its unit was
in a state that the manager can tell. -/
theorem running_iff_of_passes (hctl : Documented linked systemctl unit) (hname : n ≠ "")
    (hanswers : ∀ s, Answers systemctl unit n s)
    (hstart : ∀ s, (systemctl "start" n s).1.err = none) {ps : List (Context × List ServiceSpec)}
    (hapart : ∀ p ∈ ps, Apart linked n p.2)
    (hps : ∀ p ∈ ps, ∀ spec ∈ p.2, spec.name = n → spec.state = "running")
    (hmem : ∃ p ∈ ps, ∃ spec ∈ p.1.reached p.2, spec.name = n) :
    unit (passes systemctl ps s).2 n = "active" ↔ Answerable (unit s n) := by
  constructor
  · intro h
    by_contra hs
    have hkept : unit (passes systemctl ps s).2 n = unit s n :=
      (KeyedPass.forall_run (P := fun t => unit t n = unit s n) (Q := fun _ _ => True)
        (fun p hp _ ht => ⟨(pass_of_not_answerable hctl hname hs (hapart p hp) ht).1, trivial⟩)
        rfl).1
    rw [hkept] at h
    exact hs (by simp [Answerable, h])
  · intro hs
    have hone : ∀ spec : ServiceSpec, (spec.name = n → spec.state = "running") →
        (spec.name ≠ n → ¬ linked spec.name n) → ∀ t, Answerable (unit t n) →
          unit (reconcileService (realSystemd systemctl) spec t).2 n = "active" ∨
            spec.name ≠ n ∧
              unit (reconcileService (realSystemd systemctl) spec t).2 n = unit t n := by
      intro spec hspec hlinked t ht
      by_cases hn : spec.name = n
      · subst hn
        exact .inl (reconcileService_running hctl hname (hspec rfl) hanswers hstart ht)
      · exact .inr ⟨hn, unit_reconcileService_of_ne hctl spec ⟨Ne.symm hn, hlinked hn⟩ rfl⟩
    have hpass : ∀ p ∈ ps, ∀ t, Answerable (unit t n) →
        unit (reconcile (realSystemd systemctl) p.1 p.2 t).2 n = "active" ∨
          ¬ (∃ spec ∈ p.1.reached p.2, spec.name = n) ∧
            unit (reconcile (realSystemd systemctl) p.1 p.2 t).2 n = unit t n := by
      intro p hp t ht
      rw [reconcile_snd]
      refine (active_run (T := fun spec => spec.name = n) (fun spec hspec => ?_) ht).imp_right
        (And.imp_left fun h => by simpa using h)
      have hmem := Context.mem_of_mem_reached hspec
      exact hone spec (hps p hp spec hmem) (hapart p hp spec hmem)
    rcases active_run hpass hs with h | ⟨hnone, -⟩
    · exact h
    · obtain ⟨p, hp, hspec⟩ := hmem
      exact absurd hspec (hnone p hp)

end Passes

/-! ### A machine with three kinds of states -/

inductive SimpleState
  | up
  | down
  | crashed
deriving DecidableEq, Repr

def SimpleState.word : SimpleState → ActiveState
  | up => "active"
  | down => "inactive"
  | crashed => "failed"

/-- Only the unit `web` wants another one. -/
def wants (n k : String) : Prop := n = "web" ∧ k = "db"

/-- `systemctl` on a machine whose units all start at boot, and whose starts and stops succeed. -/
def simple : Systemctl (String → SimpleState)
  | "is-active", n, s => (⟨(s n).word ++ "\n", if s n = .up then none else some "exit status 3"⟩, s)
  | "is-enabled", _, s => (⟨"enabled\n", none⟩, s)
  | "start", n, s =>
    (⟨"", none⟩, Function.update (if n = "web" then Function.update s "db" .up else s) n .up)
  | "stop", n, s => (⟨"", none⟩, Function.update s n .down)
  | _, _, s => (⟨"", none⟩, s)

theorem answers_simple (n : String) (s : String → SimpleState) :
    Answers simple (fun s n => (s n).word) n s := by
  show trimSpace ((s n).word ++ "\n") = (s n).word ∧
    ((if s n = .up then none else some "exit status 3") = none ↔
      (s n).word = "active" ∨ (s n).word = "reloading")
  cases s n <;> exact ⟨by decide +kernel, by decide⟩

theorem documented_simple : Documented wants simple fun s n => (s n).word where
  frame verb n s k hk hwants := by
    have hdb : n = "web" → k ≠ "db" := fun hn hk => hwants ⟨hn, hk⟩
    rw [simple.eq_def]
    split
    · rfl
    · rfl
    · by_cases hn : n = "web"
      · simp [Function.update_of_ne hk, if_pos hn, Function.update_of_ne (hdb hn)]
      · simp [Function.update_of_ne hk, if_neg hn]
    · simp [Function.update_of_ne hk]
    · rfl
  query verb hverb n s k := by
    simp only [List.mem_cons, List.not_mem_nil, or_false] at hverb
    rcases hverb with rfl | rfl | rfl | rfl <;> rfl
  isActive n s := .inl (answers_simple n s)
  start n s _ := by
    show (Function.update (if n = "web" then Function.update s "db" .up else s) n .up n).word =
      "active"
    rw [Function.update_self]
    rfl

/-- A service that is to run. -/
def nginx : ServiceSpec := ⟨"nginx", "nginx", "running", "true"⟩

theorem apart_nginx : Apart wants "nginx" [nginx] := by
  intro spec hspec hne
  obtain rfl := List.mem_singleton.mp hspec
  exact absurd rfl hne

def machine (state : SimpleState) : String → SimpleState := fun _ => state

theorem not_answerable_crashed : ¬ Answerable (machine .crashed "nginx").word := by
  simp [Answerable, machine, SimpleState.word]

/-- A crashed service stays so. -/
theorem left_alone_nginx :
    ((passes simple [(none, [nginx]), (none, [nginx])] (machine .crashed)).2 "nginx").word =
      "failed" :=
  (left_alone documented_simple (by decide) not_answerable_crashed
    (by simpa using apart_nginx)).1

/-- A stopped service runs after a pass, and a crashed one does not. -/
theorem running_nginx :
    ((passes simple [(none, [nginx])] (machine .down)).2 "nginx").word = "active" ∧
      ((passes simple [(none, [nginx])] (machine .crashed)).2 "nginx").word ≠ "active" := by
  have hstart (s : String → SimpleState) : (simple "start" "nginx" s).1.err = none := rfl
  have hps : ∀ p ∈ [((none : Context), [nginx])], ∀ spec ∈ p.2, spec.name = "nginx" →
      spec.state = "running" := by decide
  have hmem : ∃ p ∈ [((none : Context), [nginx])], ∃ spec ∈ Context.reached p.1 p.2,
      ServiceSpec.name spec = "nginx" := ⟨_, List.mem_cons_self, nginx, List.mem_cons_self, rfl⟩
  have hiff (s : String → SimpleState) :=
    running_iff_of_passes (s := s) documented_simple (by decide) (answers_simple "nginx") hstart
      (by simpa using apart_nginx) hps hmem
  exact ⟨(hiff (machine .down)).mpr (by simp [Answerable, machine, SimpleState.word]),
    mt (hiff (machine .crashed)).mp not_answerable_crashed⟩

end EdgeGuardian.Agent.Systemd
