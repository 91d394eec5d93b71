import EdgeGuardian.Agent.Reconciler

/-!
# The service manager

The service manager brings the services of the manifest to the state that their specs ask for. A
service has two aspects, whether it runs and whether it is enabled at boot, and a spec may leave
either of them open. Each is read, and then corrected by a command if it differs. The executor of
the platform is a parameter: what its queries report is what its commands have done, and any call
may fail, in which case it has no effect.

Source: `agent/plugins/service/service.go`, lines 15–191, `service_test.go`, lines 11–71.

## Main definitions

* `ServiceExecutor`, `ServiceExecutor.Faithful`: an executor, and what is asked of it.
* `reconcileService`, `reconcile`: one spec, and a pass over all of them.
* `Reconciled`: what a pass leaves.

## Main results

* `reconcileService_spec`: what is done for one spec.
* `reconciled`: what a pass leaves, for every list of specs and every executor.
-/

namespace EdgeGuardian.Agent.ServiceManager

open Reconciler

/-! ### Services and executors -/

/-- A service of the manifest: the name of the resource, and the fields of `spec.Fields`, which are
empty where they are missing or no strings. -/
structure ServiceSpec where
  resource : String
  name : String
  state : String
  enabled : String
deriving DecidableEq, Repr

/-- Whether a service is running, and whether it is enabled at boot. -/
@[ext] structure Aspects where
  active : Bool
  enabled : Bool
deriving DecidableEq, Repr

/-- `ServiceExecutor`, with a state of its own. -/
structure ServiceExecutor (σ : Type*) where
  isActive : String → σ → Except String Bool × σ
  isEnabled : String → σ → Except String Bool × σ
  start : String → σ → Except String Unit × σ
  stop : String → σ → Except String Unit × σ
  enable : String → σ → Except String Unit × σ
  disable : String → σ → Except String Unit × σ

section Laws

variable {σ : Type*}

/-- A query that succeeds reports an aspect, and no query changes anything. -/
def Reports (query : String → σ → Except String Bool × σ) (view : σ → String → Aspects)
    (aspect : Aspects → Bool) : Prop :=
  ∀ n s, view (query n s).2 = view s ∧ ∀ b, (query n s).1 = .ok b → b = aspect (view s n)

/-- A command that succeeds changes the service it names, and one that fails has no effect. -/
def Sets (command : String → σ → Except String Unit × σ) (view : σ → String → Aspects)
    (change : Aspects → Aspects) : Prop :=
  ∀ n s, view (command n s).2 =
    match (command n s).1 with
    | .ok _ => Function.update (view s) n (change (view s n))
    | .error _ => view s

/-- The queries report exactly the effect of the commands. -/
structure ServiceExecutor.Faithful (exec : ServiceExecutor σ) (view : σ → String → Aspects) :
    Prop where
  isActive : Reports exec.isActive view Aspects.active
  isEnabled : Reports exec.isEnabled view Aspects.enabled
  start : Sets exec.start view fun v => { v with active := true }
  stop : Sets exec.stop view fun v => { v with active := false }
  enable : Sets exec.enable view fun v => { v with enabled := true }
  disable : Sets exec.disable view fun v => { v with enabled := false }

/-- The queries do not fail. -/
structure ServiceExecutor.Answers (exec : ServiceExecutor σ) : Prop where
  isActive : ∀ n s, (exec.isActive n s).1.toOption.isSome
  isEnabled : ∀ n s, (exec.isEnabled n s).1.toOption.isSome

/-- No call for the service fails. -/
structure ServiceExecutor.SucceedsOn (exec : ServiceExecutor σ) (n : String) : Prop where
  isActive : ∀ s, (exec.isActive n s).1.toOption.isSome
  isEnabled : ∀ s, (exec.isEnabled n s).1.toOption.isSome
  start : ∀ s, (exec.start n s).1.toOption.isSome
  stop : ∀ s, (exec.stop n s).1.toOption.isSome
  enable : ∀ s, (exec.enable n s).1.toOption.isSome
  disable : ∀ s, (exec.disable n s).1.toOption.isSome

end Laws

/-! ### The manager -/

/-- `ServiceManager.Name`. -/
def name : String := "service_manager"

/-- The texts of one aspect: the beginnings of its errors, and its changes. -/
structure AspectTexts where
  check : String
  on : String
  off : String
  turnedOn : String
  turnedOff : String
deriving DecidableEq, Repr

section Manager

variable {σ : Type*}

/-- A command that corrects an aspect. -/
def correct (command : σ → Except String Unit × σ) (text change : String) (s : σ) :
    Except (ActionType × String) (List String) × σ :=
  match command s with
  | (.error e, s) => (.error (.update, text ++ e), s)
  | (.ok _, s) => (.ok [change], s)

/-- The reconciliation of one aspect, the same for both: the changes, or the type and the error of
the action that ends the reconciliation of the service. -/
def reconcileAspect (query : σ → Except String Bool × σ) (on off : σ → Except String Unit × σ)
    (texts : AspectTexts) (want : Bool) (s : σ) :
    Except (ActionType × String) (List String) × σ :=
  match query s with
  | (.error e, s) => (.error (.skipped, texts.check ++ e), s)
  | (.ok is, s) =>
    if want && !is then correct on texts.on texts.turnedOn s
    else if !want && is then correct off texts.off texts.turnedOff s
    else (.ok [], s)

variable (exec : ServiceExecutor σ) (spec : ServiceSpec)

/-- Check and reconcile the running state. -/
def reconcileState (s : σ) : Except (ActionType × String) (List String) × σ :=
  if spec.state = "" then (.ok [], s)
  else
    reconcileAspect (exec.isActive spec.name) (exec.start spec.name) (exec.stop spec.name)
      { check := "check active state: "
        on := "start service: "
        off := "stop service: "
        turnedOn := "started"
        turnedOff := "stopped" }
      (spec.state = "running") s

/-- Check and reconcile the enabled state. -/
def reconcileEnabled (s : σ) : Except (ActionType × String) (List String) × σ :=
  if spec.enabled = "" then (.ok [], s)
  else
    reconcileAspect (exec.isEnabled spec.name) (exec.enable spec.name) (exec.disable spec.name)
      { check := "check enabled state: "
        on := "enable service: "
        off := "disable service: "
        turnedOn := "enabled"
        turnedOff := "disabled" }
      (spec.enabled = "true") s

/-- An action with an error. -/
def failed (resource : String) (failure : ActionType × String) : Action where
  plugin := name
  resource := resource
  actionType := failure.1
  description := ""
  error := failure.2

/-- The action after both aspects, by the changes made. -/
def finished (resource : String) (changes : List String) : Action where
  plugin := name
  resource := resource
  actionType := if changes = [] then .noop else .update
  description :=
    if changes = [] then "service already in desired state" else ", ".intercalate changes
  error := ""

/-- `reconcileService`. -/
def reconcileService (s : σ) : Action × σ :=
  if spec.name = "" then (failed spec.resource (.skipped, "empty service name"), s)
  else
    match reconcileState exec spec s with
    | (.error failure, s) => (failed spec.name failure, s)
    | (.ok changes, s) =>
      match reconcileEnabled exec spec s with
      | (.error failure, s) => (failed spec.name failure, s)
      | (.ok changes', s) => (finished spec.name (changes ++ changes'), s)

/-- `Reconcile`. -/
def reconcile (ctx : Context) (specs : List ServiceSpec) (s : σ) : List Action × σ :=
  reconcileEach name ServiceSpec.resource (reconcileService exec) ctx specs s

end Manager

/-- The errors of an aspect have a text. -/
theorem reconcileAspect_error {σ : Type*} {query : σ → Except String Bool × σ}
    {on off : σ → Except String Unit × σ} {texts : AspectTexts} {want : Bool} {s : σ}
    (htexts : texts.check ≠ "" ∧ texts.on ≠ "" ∧ texts.off ≠ "") {failure : ActionType × String}
    (h : (reconcileAspect query on off texts want s).1 = .error failure) : failure.2 ≠ "" := by
  have hcorrect {command : σ → Except String Unit × σ} {text change : String} {t : σ}
      (htext : text ≠ "") (h : (correct command text change t).1 = .error failure) :
      failure.2 ≠ "" := by
    rw [correct] at h
    split at h
    · cases h
      simp [htext]
    · cases h
  rw [reconcileAspect] at h
  split at h
  · cases h
    simp [htexts.1]
  · split_ifs at h
    · exact hcorrect htexts.2.1 h
    · exact hcorrect htexts.2.2 h

/-- The action of a service is about its name, and is skipped only with an error. -/
theorem accountsFor_reconcileService {σ : Type*} (exec : ServiceExecutor σ) {spec : ServiceSpec}
    (hresource : spec.resource = spec.name) (s : σ) :
    (reconcileService exec spec s).1.AccountsFor spec.name := by
  have hstate {failure : ActionType × String} {t : σ}
      (h : (reconcileState exec spec t).1 = .error failure) : failure.2 ≠ "" := by
    rw [reconcileState] at h
    split_ifs at h
    exact reconcileAspect_error (by decide) h
  have henabled {failure : ActionType × String} {t : σ}
      (h : (reconcileEnabled exec spec t).1 = .error failure) : failure.2 ≠ "" := by
    rw [reconcileEnabled] at h
    split_ifs at h
    exact reconcileAspect_error (by decide) h
  rw [reconcileService]
  split_ifs with hname
  · exact ⟨hresource, fun _ => by simp [Action.Ok, failed]⟩
  · split
    next failure t hr => exact ⟨rfl, fun _ => hstate (congrArg Prod.fst hr)⟩
    next changes t hr =>
      split
      next failure u hr' => exact ⟨rfl, fun _ => henabled (congrArg Prod.fst hr')⟩
      next changes' u hr' =>
        refine ⟨rfl, fun h => ?_⟩
        change (if changes ++ changes' = [] then ActionType.noop else .update) = .skipped at h
        split_ifs at h

/-! ### What a spec asks for -/

namespace ServiceSpec

variable (spec : ServiceSpec)

/-- The aspects after the first of the two has been reconciled. -/
def withState (v : Aspects) : Aspects :=
  if spec.state = "" then v else { v with active := spec.state = "running" }

/-- The aspects after the second of the two has been reconciled. -/
def withEnabled (v : Aspects) : Aspects :=
  if spec.enabled = "" then v else { v with enabled := spec.enabled = "true" }

/-- The aspects that the spec asks for. -/
def desired (v : Aspects) : Aspects := spec.withEnabled (spec.withState v)

/-- The service is as the spec asks for, in the aspects that it gives. -/
structure Settled (v : Aspects) : Prop where
  active : spec.state ≠ "" → (v.active = true ↔ spec.state = "running")
  enabled : spec.enabled ≠ "" → (v.enabled = true ↔ spec.enabled = "true")

/-- The aspects that the spec leaves open are the same. -/
structure Keeps (v v' : Aspects) : Prop where
  active : spec.state = "" → v'.active = v.active
  enabled : spec.enabled = "" → v'.enabled = v.enabled

@[simp] theorem enabled_withState (v : Aspects) : (spec.withState v).enabled = v.enabled := by
  rw [withState]
  split_ifs <;> rfl

@[simp] theorem active_desired (v : Aspects) :
    (spec.desired v).active = (spec.withState v).active := by
  rw [desired, withEnabled]
  split_ifs <;> rfl

theorem active_withState (v : Aspects) :
    (spec.withState v).active = if spec.state = "" then v.active else spec.state = "running" := by
  rw [withState]
  split_ifs <;> rfl

theorem enabled_desired (v : Aspects) :
    (spec.desired v).enabled = if spec.enabled = "" then v.enabled else spec.enabled = "true" := by
  rw [desired, withEnabled]
  split_ifs with h
  · exact enabled_withState spec v
  · rfl

theorem settled_desired (v : Aspects) : spec.Settled (spec.desired v) where
  active h := by simp [active_withState, h]
  enabled h := by simp [enabled_desired, h]

theorem keeps_desired (v : Aspects) : spec.Keeps v (spec.desired v) where
  active h := by simp [active_withState, h]
  enabled h := by simp [enabled_desired, h]

theorem keeps_withState (v : Aspects) : spec.Keeps v (spec.withState v) where
  active h := by simp [active_withState, h]
  enabled _ := enabled_withState spec v

/-- Nothing is to be changed iff neither of the two aspects is. -/
theorem desired_eq_self_iff {v : Aspects} :
    spec.desired v = v ↔ spec.withState v = v ∧ spec.withEnabled v = v := by
  constructor
  · intro h
    have hstate : spec.withState v = v := by
      ext
      · rw [← active_desired, h]
      · exact enabled_withState spec v
    exact ⟨hstate, by rwa [desired, hstate] at h⟩
  · rintro ⟨hstate, henabled⟩
    rw [desired, hstate, henabled]

/-- What a spec asks for is what it asks for of that. -/
theorem desired_desired (v : Aspects) : spec.desired (spec.desired v) = spec.desired v := by
  ext
  · simp only [active_desired, active_withState]
    split_ifs <;> rfl
  · simp only [enabled_desired]
    split_ifs <;> rfl

end ServiceSpec

/-! ### One aspect -/

/-- What the reconciliation of an aspect of a service comes to, where it is to leave the aspects
`v`: they are there, and a change is reported iff they were not before, or nothing has happened and
there is an error. -/
def Outcome {σ : Type*} (view : σ → String → Aspects) (n : String) (s : σ) (v : Aspects)
    (r : Except (ActionType × String) (List String) × σ) : Prop :=
  (∃ changes, r.1 = .ok changes ∧ view r.2 = Function.update (view s) n v ∧
      (changes = [] ↔ v = view s n)) ∨
    ∃ failure, r.1 = .error failure ∧ failure.2 ≠ "" ∧ view r.2 = view s

section Aspect

variable {σ : Type*} {view : σ → String → Aspects} {n : String} {s : σ}
  {query : String → σ → Except String Bool × σ} {on off : String → σ → Except String Unit × σ}
  {get : Aspects → Bool} {texts : AspectTexts}

theorem outcome_unchanged : Outcome view n s (view s n) (.ok [], s) :=
  .inl ⟨[], rfl, (Function.update_eq_self n (view s)).symm, by simp⟩

theorem outcome_correct {command : String → σ → Except String Unit × σ} {change : Aspects → Aspects}
    (hcommand : Sets command view change) (hchange : change (view s n) ≠ view s n) {text : String}
    (htext : text ≠ "") (word : String) :
    Outcome view n s (change (view s n)) (correct (command n) text word s) := by
  have hview := hcommand n s
  rw [correct]
  rcases hc : command n s with ⟨e | u, t⟩
  · rw [hc] at hview
    exact .inr ⟨_, rfl, by simp [htext], hview⟩
  · rw [hc] at hview
    exact .inl ⟨_, rfl, hview, by simp [hchange]⟩

theorem Outcome.of_ok {t : σ} {v : Aspects} {changes : List String}
    (h : Outcome view n s v (.ok changes, t)) :
    view t = Function.update (view s) n v ∧ (changes = [] ↔ v = view s n) := by
  obtain ⟨_, hok, hview, hchanges⟩ | ⟨_, herror, -⟩ := h
  · cases hok
    exact ⟨hview, hchanges⟩
  · cases herror

theorem Outcome.of_error {t : σ} {v : Aspects} {failure : ActionType × String}
    (h : Outcome view n s v (.error failure, t)) : failure.2 ≠ "" ∧ view t = view s := by
  obtain ⟨_, hok, -⟩ | ⟨_, herror, hne, hview⟩ := h
  · cases hok
  · cases herror
    exact ⟨hne, hview⟩

/-- The outcome is about what the state shows. -/
theorem Outcome.of_view_eq {t : σ} {v : Aspects}
    {r : Except (ActionType × String) (List String) × σ} (hview : view t = view s)
    (h : Outcome view n t v r) : Outcome view n s v r := by
  rw [Outcome, hview] at h
  exact h

/-- What the reconciliation of an aspect comes to. -/
theorem outcome_reconcileAspect (set : Bool → Aspects → Aspects)
    (hquery : Reports query view get) (hon : Sets on view (set true))
    (hoff : Sets off view (set false)) (hget : ∀ v, set (get v) v = v)
    (hset : ∀ b v, get (set b v) = b)
    (htexts : texts.check ≠ "" ∧ texts.on ≠ "" ∧ texts.off ≠ "") (want : Bool) (s : σ) :
    Outcome view n s (set want (view s n))
      (reconcileAspect (query n) (on n) (off n) texts want s) := by
  obtain ⟨hview, hreport⟩ := hquery n s
  have hchanges : ∀ b, get (view s n) ≠ b → set b (view s n) ≠ view s n := by
    intro b hb heq
    exact hb (by rw [← heq, hset])
  rw [reconcileAspect]
  rcases hq : query n s with ⟨e | is, t⟩
  · rw [hq] at hview
    exact .inr ⟨_, rfl, by simp [htexts.1], hview⟩
  · rw [hq] at hview hreport
    obtain rfl : is = get (view s n) := hreport is rfl
    refine Outcome.of_view_eq hview ?_
    rw [← congrFun hview n] at hchanges ⊢
    dsimp only at hview hchanges ⊢
    have hsame : ∀ b, get (view t n) = b → Outcome view n t (set b (view t n)) (.ok [], t) := by
      rintro b rfl
      rw [hget]
      exact outcome_unchanged
    rcases want with _ | _ <;> rcases his : get (view t n) with _ | _
    · simpa using hsame false his
    · simpa using outcome_correct hoff (hchanges false (by simp [his])) htexts.2.2 texts.turnedOff
    · simpa using outcome_correct hon (hchanges true (by simp [his])) htexts.2.1 texts.turnedOn
    · simpa using hsame true his

/-- An aspect that is as wanted is left alone, if the query does not fail. -/
theorem reconcileAspect_of_eq (hquery : Reports query view get)
    (hanswers : (query n s).1.toOption.isSome) {want : Bool} (hwant : get (view s n) = want) :
    reconcileAspect (query n) (on n) (off n) texts want s = (.ok [], (query n s).2) := by
  obtain ⟨-, hreport⟩ := hquery n s
  rw [reconcileAspect]
  rcases hq : query n s with ⟨e | is, t⟩
  · simp [hq, Except.toOption] at hanswers
  · rw [hq] at hreport
    obtain rfl : is = get (view s n) := hreport is rfl
    subst hwant
    simp

/-- Where no call fails, there is no error. -/
theorem reconcileAspect_ok (hquery : ∀ s, (query n s).1.toOption.isSome)
    (hon : ∀ s, (on n s).1.toOption.isSome) (hoff : ∀ s, (off n s).1.toOption.isSome)
    (want : Bool) (s : σ) :
    (reconcileAspect (query n) (on n) (off n) texts want s).1.toOption.isSome := by
  have hcorrect : ∀ {command : String → σ → Except String Unit × σ} (text word : String) (t : σ),
      (∀ s, (command n s).1.toOption.isSome) →
        (correct (command n) text word t).1.toOption.isSome := by
    intro command text word t hcommand
    have hok := hcommand t
    rw [correct]
    rcases hc : command n t with ⟨e | u, t'⟩
    · simp [hc, Except.toOption] at hok
    · rfl
  have hok := hquery s
  rw [reconcileAspect]
  rcases hq : query n s with ⟨e | is, t⟩
  · simp [hq, Except.toOption] at hok
  · dsimp only
    split_ifs
    · exact hcorrect _ _ t hon
    · exact hcorrect _ _ t hoff
    · rfl

end Aspect

/-! ### One service -/

section Service

variable {σ : Type*} {exec : ServiceExecutor σ} {view : σ → String → Aspects} {spec : ServiceSpec}

theorem outcome_reconcileState (spec : ServiceSpec) (hexec : exec.Faithful view) (s : σ) :
    Outcome view spec.name s (spec.withState (view s spec.name)) (reconcileState exec spec s) := by
  rw [reconcileState, ServiceSpec.withState]
  split_ifs
  · exact outcome_unchanged
  · exact outcome_reconcileAspect (fun b v => { v with active := b }) hexec.isActive hexec.start
      hexec.stop (fun _ => rfl) (fun _ _ => rfl) (by simp) _ s

theorem outcome_reconcileEnabled (spec : ServiceSpec) (hexec : exec.Faithful view) (s : σ) :
    Outcome view spec.name s (spec.withEnabled (view s spec.name))
      (reconcileEnabled exec spec s) := by
  rw [reconcileEnabled, ServiceSpec.withEnabled]
  split_ifs
  · exact outcome_unchanged
  · exact outcome_reconcileAspect (fun b v => { v with enabled := b }) hexec.isEnabled
      hexec.enable hexec.disable (fun _ => rfl) (fun _ _ => rfl) (by simp) _ s

/-- **One service.** Without an error the service is as the spec asks for, and the action is a
`Noop` iff it was so before. With an error, no other service and no aspect that the spec leaves open
has changed. -/
theorem reconcileService_spec (hexec : exec.Faithful view) (hname : spec.name ≠ "") (s : σ) :
    ((reconcileService exec spec s).1.Ok ∧
      view (reconcileService exec spec s).2 =
        Function.update (view s) spec.name (spec.desired (view s spec.name)) ∧
      ((reconcileService exec spec s).1.actionType = .noop ↔
        spec.desired (view s spec.name) = view s spec.name)) ∨
    (¬ (reconcileService exec spec s).1.Ok ∧ ∃ v, spec.Keeps (view s spec.name) v ∧
      view (reconcileService exec spec s).2 = Function.update (view s) spec.name v) := by
  have hstate := outcome_reconcileState spec hexec s
  rw [reconcileService, if_neg hname]
  rcases hr : reconcileState exec spec s with ⟨failure | changes, t⟩
  · rw [hr] at hstate
    refine .inr ⟨hstate.of_error.1, view s spec.name, ⟨fun _ => rfl, fun _ => rfl⟩, ?_⟩
    rw [Function.update_eq_self]
    exact hstate.of_error.2
  · rw [hr] at hstate
    obtain ⟨hview, hchanges⟩ := hstate.of_ok
    have hat : view t spec.name = spec.withState (view s spec.name) := by
      rw [hview, Function.update_self]
    have henabled := outcome_reconcileEnabled spec hexec t
    dsimp only
    rcases hr' : reconcileEnabled exec spec t with ⟨failure | changes', u⟩
    · rw [hr'] at henabled
      exact .inr ⟨henabled.of_error.1, _, spec.keeps_withState _, henabled.of_error.2.trans hview⟩
    · rw [hr', hat] at henabled
      obtain ⟨hview', hchanges'⟩ := henabled.of_ok
      refine .inl ⟨rfl, ?_, ?_⟩
      · rw [hview', hview, Function.update_idem]
        rfl
      · have hnoop : (finished spec.name (changes ++ changes')).actionType = .noop ↔
            changes = [] ∧ changes' = [] := by
          simp [finished]
        rw [hnoop, hchanges, hchanges', hat, ServiceSpec.desired_eq_self_iff]
        constructor
        · rintro ⟨hsame, hsame'⟩
          exact ⟨hsame, by rwa [hsame] at hsame'⟩
        · rintro ⟨hsame, hsame'⟩
          exact ⟨hsame, by rw [hsame, hsame']⟩

theorem local_reconcileService (hexec : exec.Faithful view) :
    KeyedPass.Local (reconcileService exec) ServiceSpec.name view := by
  intro spec s k hk
  by_cases hname : spec.name = ""
  · rw [reconcileService, if_pos hname]
  · rcases reconcileService_spec hexec hname s with ⟨-, hview, -⟩ | ⟨-, v, -, hview⟩
    · rw [hview, Function.update_of_ne hk]
    · rw [hview, Function.update_of_ne hk]

/-- Without an error in the two aspects, there is none in the action. -/
theorem ok_of_isSome (hname : spec.name ≠ "") {s : σ}
    (hstate : (reconcileState exec spec s).1.toOption.isSome)
    (henabled : (reconcileEnabled exec spec (reconcileState exec spec s).2).1.toOption.isSome) :
    (reconcileService exec spec s).1.Ok := by
  rw [reconcileService, if_neg hname]
  rcases hr : reconcileState exec spec s with ⟨failure | changes, t⟩
  · simp [hr, Except.toOption] at hstate
  · rw [hr] at henabled
    dsimp only at henabled ⊢
    rcases hr' : reconcileEnabled exec spec t with ⟨failure | changes', u⟩
    · simp [hr', Except.toOption] at henabled
    · rfl

/-- Where no call for a service fails, its action has no error. -/
theorem ok_of_succeedsOn (hexec : exec.SucceedsOn spec.name) (hname : spec.name ≠ "") (s : σ) :
    (reconcileService exec spec s).1.Ok := by
  refine ok_of_isSome hname ?_ ?_
  · rw [reconcileState]
    split_ifs
    · rfl
    · exact reconcileAspect_ok hexec.isActive hexec.start hexec.stop _ s
  · rw [reconcileEnabled]
    split_ifs
    · rfl
    · exact reconcileAspect_ok hexec.isEnabled hexec.enable hexec.disable _ _

/-- A service that is as its spec asks for is left alone, if the queries do not fail. -/
theorem noop_of_desired (hexec : exec.Faithful view) (hanswers : exec.Answers)
    (hname : spec.name ≠ "") {s : σ}
    (hdesired : spec.desired (view s spec.name) = view s spec.name) :
    (reconcileService exec spec s).1.actionType = .noop ∧
      view (reconcileService exec spec s).2 = view s := by
  obtain ⟨hstate, henabled⟩ := spec.desired_eq_self_iff.mp hdesired
  have hfirst : (reconcileState exec spec s).1 = .ok [] ∧
      view (reconcileState exec spec s).2 = view s := by
    rw [reconcileState]
    rw [ServiceSpec.withState] at hstate
    split_ifs at hstate ⊢
    · exact ⟨rfl, rfl⟩
    · have hactive := (congrArg Aspects.active hstate).symm
      rw [reconcileAspect_of_eq hexec.isActive (hanswers.isActive _ s) hactive]
      exact ⟨rfl, (hexec.isActive _ s).1⟩
  have hsecond : (reconcileEnabled exec spec (reconcileState exec spec s).2).1 = .ok [] := by
    rw [reconcileEnabled]
    rw [ServiceSpec.withEnabled] at henabled
    split_ifs at henabled ⊢
    · rfl
    · rw [← hfirst.2] at henabled
      have hactive := (congrArg Aspects.enabled henabled).symm
      rw [reconcileAspect_of_eq hexec.isEnabled (hanswers.isEnabled _ _) hactive]
  have hok : (reconcileService exec spec s).1.Ok :=
    ok_of_isSome hname (by rw [hfirst.1]; rfl) (by rw [hsecond]; rfl)
  rcases reconcileService_spec hexec hname s with ⟨-, hview, hnoop⟩ | ⟨herror, -⟩
  · refine ⟨hnoop.mpr hdesired, ?_⟩
    rw [hview, hdesired, Function.update_eq_self]
  · exact absurd hok herror

end Service

/-! ### Passes -/

section Pass

variable {σ : Type*} (exec : ServiceExecutor σ) (view : σ → String → Aspects) (ctx : Context)
  (specs : List ServiceSpec) (s : σ)

/-- What a pass leaves. The specs that it reaches are those before the one at which its context is
found cancelled, all of them if that does not happen. -/
structure Reconciled : Prop where
  /-- A service whose action has no error is as its spec asks for. -/
  settled : ∀ p ∈ (ctx.reached specs).zip (reconcile exec ctx specs s).1, p.2.Ok →
    p.1.Settled (view (reconcile exec ctx specs s).2 p.1.name)
  /-- The services that no spec names, and those that are not reached, are unchanged. -/
  unnamed : ∀ n ∉ (ctx.reached specs).map ServiceSpec.name,
    view (reconcile exec ctx specs s).2 n = view s n
  /-- The aspects that a spec leaves open are unchanged. -/
  unasked : ∀ spec ∈ specs,
    spec.Keeps (view s spec.name) (view (reconcile exec ctx specs s).2 spec.name)
  /-- A service meets its aspects as they were, and is left as if it were alone. -/
  alone : ∀ p ∈ (ctx.reached specs).zip (reconcile exec ctx specs s).1,
    ∃ t, view t p.1.name = view s p.1.name ∧ (reconcileService exec p.1 t).1 = p.2 ∧
      view (reconcile exec ctx specs s).2 p.1.name =
        view (reconcileService exec p.1 t).2 p.1.name
  /-- A service none of whose calls fails has an action without an error, whatever fails for the
  others. -/
  isolated : ∀ spec ∈ ctx.reached specs, exec.SucceedsOn spec.name →
    ∃ action, (spec, action) ∈ (ctx.reached specs).zip (reconcile exec ctx specs s).1 ∧ action.Ok
  /-- After a pass to the end without an error, another one to the end changes nothing. -/
  again : exec.Answers → ctx.Outlasts specs → (∀ a ∈ (reconcile exec ctx specs s).1, a.Ok) →
    ∀ ctx' : Context, ctx'.Outlasts specs →
      (∀ a ∈ (reconcile exec ctx' specs (reconcile exec ctx specs s).2).1,
        a.actionType = .noop) ∧
      view (reconcile exec ctx' specs (reconcile exec ctx specs s).2).2 =
        view (reconcile exec ctx specs s).2

variable {exec view ctx specs s} (hexec : exec.Faithful view)

theorem reconcile_snd :
    (reconcile exec ctx specs s).2 =
      (KeyedPass.run (reconcileService exec) (ctx.reached specs) s).2 := by
  rw [reconcile, reconcileEach_eq]

theorem zip_reconcile :
    (ctx.reached specs).zip (reconcile exec ctx specs s).1 =
      (ctx.reached specs).zip (KeyedPass.run (reconcileService exec) (ctx.reached specs) s).1 :=
  zip_reconcileEach name ServiceSpec.resource (reconcileService exec) ctx specs s

include hexec

/-- A pass over services that are as their specs ask for changes nothing. -/
theorem run_of_desired (hanswers : exec.Answers) (hnames : ∀ spec ∈ specs, spec.name ≠ "") {s : σ}
    (hdesired : ∀ spec ∈ specs, spec.desired (view s spec.name) = view s spec.name) :
    (∀ a ∈ (KeyedPass.run (reconcileService exec) specs s).1, a.actionType = .noop) ∧
      view (KeyedPass.run (reconcileService exec) specs s).2 = view s := by
  induction specs generalizing s with
  | nil => exact ⟨fun a ha => absurd ha List.not_mem_nil, rfl⟩
  | cons spec specs ih =>
    obtain ⟨hnoop, hview⟩ := noop_of_desired hexec hanswers (hnames spec List.mem_cons_self)
      (hdesired spec List.mem_cons_self)
    obtain ⟨hrest, hlast⟩ := ih (fun spec' h => hnames spec' (List.mem_cons_of_mem _ h))
      (s := (reconcileService exec spec s).2) fun spec' h => by
        rw [hview]
        exact hdesired spec' (List.mem_cons_of_mem _ h)
    refine ⟨fun a ha => ?_, hlast.trans hview⟩
    rcases List.mem_cons.mp ha with rfl | htail
    · exact hnoop
    · exact hrest a htail

/-- The turn of a spec that is reached. -/
theorem exists_turn (hnodup : (specs.map ServiceSpec.name).Nodup) {spec : ServiceSpec}
    {action : Action}
    (h : (spec, action) ∈ (ctx.reached specs).zip (reconcile exec ctx specs s).1) :
    ∃ t, view t spec.name = view s spec.name ∧ (reconcileService exec spec t).1 = action ∧
      view (reconcile exec ctx specs s).2 spec.name =
        view (reconcileService exec spec t).2 spec.name := by
  rw [zip_reconcile] at h
  rw [reconcile_snd]
  exact KeyedPass.exists_turn (local_reconcileService hexec) (ctx.nodup_reached hnodup) h

/-- The turn of every spec that is reached. -/
theorem exists_turn_of_mem (hnodup : (specs.map ServiceSpec.name).Nodup) {spec : ServiceSpec}
    (h : spec ∈ ctx.reached specs) :
    ∃ t, (spec, (reconcileService exec spec t).1) ∈
        (ctx.reached specs).zip (reconcile exec ctx specs s).1 ∧
      view t spec.name = view s spec.name ∧
      view (reconcile exec ctx specs s).2 spec.name =
        view (reconcileService exec spec t).2 spec.name := by
  obtain ⟨action, hmem⟩ := KeyedPass.exists_mem_zip (reconcileService exec) h s
  rw [← zip_reconcile] at hmem
  obtain ⟨t, hmet, rfl, hleft⟩ := exists_turn hexec hnodup hmem
  exact ⟨t, hmem, hmet, hleft⟩

/-- **What a pass leaves.** For every list of services with distinct names and every faithful
executor, a service whose action has no error is as its spec asks for, everything else is unchanged,
no failure reaches another service, and a second pass after one without an error changes nothing. -/
theorem reconciled (hnodup : (specs.map ServiceSpec.name).Nodup)
    (hnames : ∀ spec ∈ specs, spec.name ≠ "") : Reconciled exec view ctx specs s where
  settled := by
    rintro ⟨spec, action⟩ h hok
    have hname : spec.name ≠ "" :=
      hnames spec (Context.mem_of_mem_reached (List.of_mem_zip h).1)
    obtain ⟨t, -, rfl, hleft⟩ := exists_turn hexec hnodup h
    rcases reconcileService_spec hexec hname t with ⟨-, hview, -⟩ | ⟨herror, -⟩
    · rw [hleft, hview, Function.update_self]
      exact spec.settled_desired _
    · exact absurd hok herror
  unnamed := by
    intro n hn
    rw [reconcile_snd]
    exact KeyedPass.view_run_of_notMem (local_reconcileService hexec) hn s
  unasked := by
    intro spec hspec
    by_cases hmem : spec.name ∈ (ctx.reached specs).map ServiceSpec.name
    · obtain ⟨spec', hreached, hsame⟩ := List.mem_map.mp hmem
      obtain rfl : spec' = spec :=
        List.inj_on_of_nodup_map hnodup (Context.mem_of_mem_reached hreached) hspec hsame
      obtain ⟨t, -, hmet, hleft⟩ := exists_turn_of_mem hexec hnodup hreached (s := s)
      rw [hleft, ← hmet]
      rcases reconcileService_spec hexec (hnames spec' hspec) t with ⟨-, hview, -⟩ |
          ⟨-, v, hkeeps, hview⟩
      · rw [hview, Function.update_self]
        exact spec'.keeps_desired _
      · rw [hview, Function.update_self]
        exact hkeeps
    · rw [reconcile_snd, KeyedPass.view_run_of_notMem (local_reconcileService hexec) hmem s]
      exact ⟨fun _ => rfl, fun _ => rfl⟩
  alone := fun p h => exists_turn hexec hnodup h
  isolated := by
    intro spec hreached hsucceeds
    have hname : spec.name ≠ "" := hnames spec (Context.mem_of_mem_reached hreached)
    obtain ⟨t, h, -, -⟩ := exists_turn_of_mem hexec hnodup hreached (s := s)
    exact ⟨_, h, ok_of_succeedsOn hsucceeds hname t⟩
  again := by
    intro hanswers hout hok ctx' hout'
    have hdesired : ∀ spec ∈ specs, spec.desired (view (reconcile exec ctx specs s).2 spec.name) =
        view (reconcile exec ctx specs s).2 spec.name := by
      intro spec hspec
      have hreached : spec ∈ ctx.reached specs := by rwa [Context.reached_of_outlasts hout]
      obtain ⟨t, h, -, hleft⟩ := exists_turn_of_mem hexec hnodup hreached (s := s)
      have hactionOk := hok _ (List.of_mem_zip h).2
      rcases reconcileService_spec hexec (hnames spec hspec) t with ⟨-, hview, -⟩ | ⟨herror, -⟩
      · rw [hleft, hview, Function.update_self, ServiceSpec.desired_desired]
      · exact absurd hactionOk herror
    have hrun : reconcile exec ctx' specs (reconcile exec ctx specs s).2 =
        KeyedPass.run (reconcileService exec) specs (reconcile exec ctx specs s).2 :=
      reconcileEach_of_outlasts hout' _
    rw [hrun]
    exact run_of_desired hexec hanswers hnames hdesired

end Pass

/-! ### The executor of the tests -/

/-- `mockExecutor`, with the functions for its maps. -/
structure MockExecutor where
  activeState : String → Bool
  enabledState : String → Bool
  calls : List String
  failOn : String

namespace MockExecutor

/-- What the state shows. -/
def view (m : MockExecutor) (n : String) : Aspects := ⟨m.activeState n, m.enabledState n⟩

/-- A call is recorded. -/
def called (m : MockExecutor) (verb n : String) : MockExecutor :=
  { m with calls := m.calls ++ [verb ++ ":" ++ n] }

/-- A command that fails if it is the one to fail on. -/
def command (verb : String) (change : MockExecutor → String → MockExecutor) (n : String)
    (m : MockExecutor) : Except String Unit × MockExecutor :=
  if m.failOn = verb then (.error ("mock " ++ verb ++ " failure"), m.called verb n)
  else (.ok (), change (m.called verb n) n)

/-- The write of `activeState`. -/
def setActive (b : Bool) (m : MockExecutor) (n : String) : MockExecutor :=
  { m with activeState := Function.update m.activeState n b }

/-- The write of `enabledState`. -/
def setEnabled (b : Bool) (m : MockExecutor) (n : String) : MockExecutor :=
  { m with enabledState := Function.update m.enabledState n b }

/-- The executor. -/
def executor : ServiceExecutor MockExecutor where
  isActive n m := (.ok (m.activeState n), m.called "is-active" n)
  isEnabled n m := (.ok (m.enabledState n), m.called "is-enabled" n)
  start := command "start" (setActive true)
  stop := command "stop" (setActive false)
  enable := command "enable" (setEnabled true)
  disable := command "disable" (setEnabled false)

theorem sets_command {change : MockExecutor → String → MockExecutor} {f : Aspects → Aspects}
    (h : ∀ m n, (change m n).view = Function.update m.view n (f (m.view n))) (verb : String) :
    Sets (command verb change) view f := by
  intro n m
  rw [command]
  split_ifs
  · rfl
  · exact h _ n

theorem view_setActive (b : Bool) (m : MockExecutor) (n : String) :
    (m.setActive b n).view = Function.update m.view n { m.view n with active := b } := by
  funext k
  by_cases hk : k = n
  · subst hk
    simp [view, setActive]
  · simp [view, setActive, hk]

theorem view_setEnabled (b : Bool) (m : MockExecutor) (n : String) :
    (m.setEnabled b n).view = Function.update m.view n { m.view n with enabled := b } := by
  funext k
  by_cases hk : k = n
  · subst hk
    simp [view, setEnabled]
  · simp [view, setEnabled, hk]

theorem faithful_executor : executor.Faithful view where
  isActive n m := ⟨rfl, fun b h => by cases h; rfl⟩
  isEnabled n m := ⟨rfl, fun b h => by cases h; rfl⟩
  start := sets_command (view_setActive true) "start"
  stop := sets_command (view_setActive false) "stop"
  enable := sets_command (view_setEnabled true) "enable"
  disable := sets_command (view_setEnabled false) "disable"

/-- Two services, and an executor under which nothing runs and enabling fails. -/
def nginx : ServiceSpec := ⟨"nginx", "nginx", "running", "true"⟩

def sshd : ServiceSpec := ⟨"sshd", "sshd", "running", ""⟩

def idle : MockExecutor := ⟨fun _ => false, fun _ => false, [], "enable"⟩

end MockExecutor

open MockExecutor in
/-- A pass in which one of two services fails. -/
theorem reconciled_nginx_sshd :
    (executor.Faithful view ∧ ([nginx, sshd].map ServiceSpec.name).Nodup ∧
        ∀ spec ∈ [nginx, sshd], spec.name ≠ "") ∧
      Reconciled executor view none [nginx, sshd] idle := by
  have hnodup : ([nginx, sshd].map ServiceSpec.name).Nodup := by decide
  have hnames : ∀ spec ∈ [nginx, sshd], spec.name ≠ "" := by decide
  exact ⟨⟨faithful_executor, hnodup, hnames⟩, reconciled faithful_executor hnodup hnames⟩

open MockExecutor in
/-- With a cancelled context, a service has an action without an error and is not started. -/
theorem not_settled_of_cancelled :
    ¬ ∀ (σ : Type) (exec : ServiceExecutor σ) (view : σ → String → Aspects) (ctx : Context)
        (specs : List ServiceSpec) (s : σ), exec.Faithful view →
        (specs.map ServiceSpec.name).Nodup → (∀ spec ∈ specs, spec.name ≠ "") →
        ∀ p ∈ specs.zip (reconcile exec ctx specs s).1, p.2.Ok →
          p.1.Settled (view (reconcile exec ctx specs s).2 p.1.name) := by
  intro h
  have hsettled := h MockExecutor executor view (some 0) [nginx] idle faithful_executor
    (by decide) (by decide) (nginx, contextCancelled name "nginx") List.mem_cons_self rfl
  have hstarted : (view idle "nginx").active = true := (hsettled.active (by decide)).mpr rfl
  exact absurd hstarted (by decide)

end EdgeGuardian.Agent.ServiceManager
