import EdgeGuardian.Agent.Reconciler.Plugins
import Mathlib.Data.List.Perm.Basic

/-!
# The reconcile cycle

A cycle gives every registered plugin, in the order of registration, the specs of the manifest whose
kind it can handle. The status of the cycle comes from the errors of the actions that the plugins
report: it is `error` if there is one, and `converged` otherwise. A spec whose kind no plugin
handles has no action, and a plugin that finds its context cancelled reports a skipped action
without an error and leaves out the rest of its specs. Neither of them shows in the status.

The calls of the plugins in a cycle are recorded beside what the cycle stores.

Source: `agent/internal/reconciler/reconciler.go`, lines 118–200.

## Main definitions

* `dispatch`, `reconcileOnce`: the calls of the plugins, and the cycle.
* `ExactlyDispatched`: what a cycle does where every kind has one plugin.

## Main results

* `exactlyDispatched`: every resource has one action, in order.
* `settled_of_converged`: what the status `converged` says about the resources.
-/

namespace EdgeGuardian.Agent.Reconciler

/-! ### The cycle -/

/-- The values of `Reconciler.status`. -/
inductive Status
  | converged
  | drifted
  | error
deriving DecidableEq, Repr

end Reconciler

/-- `Reconciler`, without its interval. -/
structure Reconciler (σ : Type*) where
  plugins : List (Reconciler.Plugin σ)
  desiredState : Option Model.DeviceManifest
  lastReconcile : ℕ
  reconcileCount : ℕ
  status : Reconciler.Status
  lastActions : List Reconciler.Action

namespace Reconciler

open Model

variable {σ : Type*}

/-- A call of `Reconcile`: the plugin, the context as it finds it, what it is given, and what it
reports. -/
structure Dispatch (σ : Type*) where
  plugin : Plugin σ
  ctx : Context
  specs : List ResourceSpec
  actions : List Action

/-- The loop over the plugins. -/
def dispatch (specs : List ResourceSpec) : List (Plugin σ) → Context → σ → List (Dispatch σ) × σ
  | [], _, s => ([], s)
  | plugin :: plugins, ctx, s =>
    let specsForPlugin := plugin.specsFor specs
    if specsForPlugin = [] then dispatch specs plugins ctx s
    else
      let (actions, s) := plugin.reconcile ctx specsForPlugin s
      let (calls, s) := dispatch specs plugins (ctx.after specsForPlugin.length) s
      (⟨plugin, ctx, specsForPlugin, actions⟩ :: calls, s)

/-- What a cycle leaves, with the calls that it has made. -/
structure Cycle (σ : Type*) where
  reconciler : Reconciler σ
  calls : List (Dispatch σ)
  device : σ

/-- Some action has an error. -/
def hasErrors (actions : List Action) : Bool := actions.any fun a => a.error ≠ ""

/-- `reconcileOnce` for the specs of the manifest. -/
def reconcileSpecs (r : Reconciler σ) (specs : List ResourceSpec) (ctx : Context) (s : σ) :
    Cycle σ :=
  let (calls, s) := dispatch specs r.plugins ctx s
  let allActions := calls.flatMap Dispatch.actions
  { reconciler :=
      { r with
        lastActions := allActions
        status := if hasErrors allActions then .error else .converged }
    calls := calls
    device := s }

/-- `reconcileOnce`. -/
def reconcileOnce (r : Reconciler σ) (now : ℕ) (ctx : Context) (s : σ) : Cycle σ :=
  let r := { r with reconcileCount := r.reconcileCount + 1, lastReconcile := now }
  let idle : Cycle σ := ⟨{ r with status := .converged, lastActions := [] }, [], s⟩
  match r.desiredState with
  | none => idle
  | some manifest =>
    if (diff manifest).hasResources then reconcileSpecs r (diff manifest).allSpecs ctx s else idle

/-! ### The calls of a cycle -/

section Calls

variable {specs : List ResourceSpec} {plugins : List (Plugin σ)} {ctx : Context} {s : σ}

/-- The plugins that are called, and what they are given, do not depend on what any plugin
reports. -/
theorem dispatch_fst_map (specs : List ResourceSpec) (plugins : List (Plugin σ)) (ctx : Context)
    (s : σ) :
    (dispatch specs plugins ctx s).1.map (fun d => (d.plugin, d.specs)) =
      (plugins.map fun p => (p, p.specsFor specs)).filter fun c => c.2 ≠ [] := by
  induction plugins generalizing ctx s with
  | nil => rfl
  | cons p plugins ih =>
    rw [dispatch, List.map_cons, List.filter_cons]
    by_cases hnil : p.specsFor specs = []
    · simpa [hnil] using ih ctx s
    · simpa [hnil] using ih _ _

/-- All specs that are given to a plugin, in the order of the calls. -/
theorem dispatch_flatMap_specs (specs : List ResourceSpec) (plugins : List (Plugin σ))
    (ctx : Context) (s : σ) :
    (dispatch specs plugins ctx s).1.flatMap Dispatch.specs =
      plugins.flatMap fun p => p.specsFor specs := by
  induction plugins generalizing ctx s with
  | nil => rfl
  | cons p plugins ih =>
    rw [dispatch, List.flatMap_cons]
    by_cases hnil : p.specsFor specs = []
    · simpa [hnil] using ih ctx s
    · simpa [hnil] using ih _ _

/-- A plugin is called with the specs that it can handle, if there are any. -/
theorem exists_call {p : Plugin σ} (hp : p ∈ plugins) {spec : ResourceSpec} (hspec : spec ∈ specs)
    (hkind : p.canHandle spec.kind = true) (ctx : Context) (s : σ) :
    ∃ d ∈ (dispatch specs plugins ctx s).1, d.plugin = p ∧ spec ∈ d.specs := by
  have hmem : spec ∈ p.specsFor specs := List.mem_filter.mpr ⟨hspec, hkind⟩
  have hcall : (p, p.specsFor specs) ∈
      (dispatch specs plugins ctx s).1.map fun d => (d.plugin, d.specs) := by
    rw [dispatch_fst_map, List.mem_filter]
    exact ⟨List.mem_map_of_mem hp, by simpa using List.ne_nil_of_mem hmem⟩
  obtain ⟨d, hd, heq⟩ := List.mem_map.mp hcall
  rw [Prod.mk.injEq] at heq
  exact ⟨d, hd, heq.1, heq.2 ▸ hmem⟩

/-- What a call reports is what its plugin reports for its specs. -/
theorem exists_reconcile_of_mem {d : Dispatch σ} (hd : d ∈ (dispatch specs plugins ctx s).1) :
    d.plugin ∈ plugins ∧ d.specs = d.plugin.specsFor specs ∧
      ∃ t, d.actions = (d.plugin.reconcile d.ctx d.specs t).1 := by
  induction plugins generalizing ctx s with
  | nil => exact absurd hd List.not_mem_nil
  | cons p plugins ih =>
    have hrest {ctx : Context} {s : σ} (h : d ∈ (dispatch specs plugins ctx s).1) :
        d.plugin ∈ p :: plugins ∧ d.specs = d.plugin.specsFor specs ∧
          ∃ t, d.actions = (d.plugin.reconcile d.ctx d.specs t).1 := by
      obtain ⟨hmem, hfor⟩ := ih h
      exact ⟨List.mem_cons_of_mem p hmem, hfor⟩
    rw [dispatch] at hd
    by_cases hnil : p.specsFor specs = []
    · rw [if_pos hnil] at hd
      exact hrest hd
    · rw [if_neg hnil] at hd
      rcases List.mem_cons.mp hd with rfl | htail
      · exact ⟨List.mem_cons_self, rfl, s, rfl⟩
      · exact hrest htail

/-- Where every plugin answers its specs in order, and the context outlasts the cycle, the actions
answer the specs in the order of the calls. -/
theorem forall₂_dispatch {answers : ResourceSpec → Action → Prop}
    (hone : ∀ p ∈ plugins, ∀ (ctx : Context) (s : σ), ctx.Outlasts (p.specsFor specs) →
      List.Forall₂ answers (p.specsFor specs) (p.reconcile ctx (p.specsFor specs) s).1)
    (hctx : ctx.Outlasts (plugins.flatMap fun p => p.specsFor specs)) :
    List.Forall₂ answers ((dispatch specs plugins ctx s).1.flatMap Dispatch.specs)
      ((dispatch specs plugins ctx s).1.flatMap Dispatch.actions) := by
  induction plugins generalizing ctx s with
  | nil => exact .nil
  | cons p plugins ih =>
    obtain ⟨hfirst, hrest⟩ := Context.outlasts_append hctx
    have hone' := fun q hq => hone q (List.mem_cons_of_mem p hq)
    rw [dispatch]
    by_cases hnil : p.specsFor specs = []
    · rw [if_pos hnil]
      have hafter : ctx.after (p.specsFor specs).length = ctx := by
        rcases ctx with _ | k
        · rfl
        · simp [hnil, Context.after]
      rw [hafter] at hrest
      exact ih hone' hrest
    · rw [if_neg hnil]
      exact List.rel_append (hone p List.mem_cons_self ctx s hfirst) (ih hone' hrest)

end Calls

/-! ### Exact dispatch -/

/-- Of some predicates exactly one holds of each element of a list. Then the elements that they
select are, one predicate after the other, those of the list. -/
theorem perm_flatMap_filter {α ι : Type*} (select : ι → α → Bool) (is : List ι) {xs : List α}
    (h : ∀ x ∈ xs, is.countP (fun i => select i x) = 1) :
    (is.flatMap fun i => xs.filter (select i)).Perm xs := by
  induction xs with
  | nil => simp
  | cons x xs ih =>
    have hhead : (is.flatMap fun i => if select i x then [x] else []) = [x] := by
      have hcount : ∀ is : List ι, (is.flatMap fun i => if select i x then [x] else []) =
          List.replicate (is.countP fun i => select i x) x := by
        intro is
        induction is with
        | nil => rfl
        | cons i is ih =>
          rw [List.flatMap_cons, ih, List.countP_cons]
          by_cases hi : select i x
          · simp [hi, List.replicate_succ]
          · simp [hi]
      rw [hcount, h x List.mem_cons_self]
      rfl
    have hsplit : (fun i => (x :: xs).filter (select i)) =
        fun i => (if select i x then [x] else []) ++ xs.filter (select i) := by
      funext i
      rw [List.filter_cons]
      split_ifs <;> rfl
    rw [hsplit]
    refine (List.flatMap_append_perm is _ _).symm.trans ?_
    rw [hhead]
    exact (ih fun y hy => h y (List.mem_cons_of_mem x hy)).cons x

/-- What a cycle does for a manifest. -/
structure ExactlyDispatched (manifest : DeviceManifest) (answers : ResourceSpec → Action → Prop)
    (plugins : List (Plugin σ)) (cycle : Cycle σ) : Prop where
  /-- The plugins that have a resource of the manifest to handle are called in the order of their
  registration, whatever the others report, with their resources in the order of the manifest. -/
  calls : cycle.calls.map (fun d => (d.plugin, d.specs)) =
    (plugins.map fun p => (p, p.specsFor (diff manifest).allSpecs)).filter fun c => c.2 ≠ []
  /-- The actions are those of the calls, one after the other. -/
  actions : cycle.reconciler.lastActions = cycle.calls.flatMap Dispatch.actions
  /-- There is one action for each resource that is dispatched, in order. -/
  answered : List.Forall₂ answers (cycle.calls.flatMap Dispatch.specs)
    cycle.reconciler.lastActions
  /-- Each resource of the manifest is dispatched, and none of them twice. -/
  once : (cycle.calls.flatMap Dispatch.specs).Perm (diff manifest).allSpecs
  /-- The status is by the errors. -/
  status : cycle.reconciler.status = .error ↔ ∃ a ∈ cycle.reconciler.lastActions, ¬ a.Ok

theorem hasErrors_iff {actions : List Action} :
    hasErrors actions = true ↔ ∃ a ∈ actions, ¬ a.Ok := by
  simp [hasErrors, Action.Ok]

theorem status_reconcileSpecs (r : Reconciler σ) (specs : List ResourceSpec) (ctx : Context)
    (s : σ) :
    (reconcileSpecs r specs ctx s).reconciler.status = .error ↔
      ∃ a ∈ (reconcileSpecs r specs ctx s).reconciler.lastActions, ¬ a.Ok := by
  rw [← hasErrors_iff, reconcileSpecs]
  dsimp only
  split_ifs with h <;> simp [h]

/-- A cycle for a manifest is the dispatch of its specs, also where there are none. -/
theorem reconcileOnce_eq {r : Reconciler σ} {manifest : DeviceManifest}
    (hdesired : r.desiredState = some manifest) (now : ℕ) (ctx : Context) (s : σ) :
    reconcileOnce r now ctx s =
      reconcileSpecs { r with reconcileCount := r.reconcileCount + 1, lastReconcile := now }
        (diff manifest).allSpecs ctx s := by
  rw [reconcileOnce]
  simp only [hdesired]
  split_ifs with h
  · rfl
  · have hnone : (diff manifest).allSpecs = [] := by simpa [DiffResult.allSpecs_eq_nil_iff] using h
    have hdispatch (plugins : List (Plugin σ)) :
        dispatch [] plugins ctx s = (([] : List (Dispatch σ)), s) := by
      induction plugins with
      | nil => rfl
      | cons p plugins ih => rw [dispatch, Plugin.specsFor, List.filter_nil, if_pos rfl, ih]
    rw [hnone, reconcileSpecs, hdispatch]
    rfl

/-- **Exact dispatch.** Let each of the three kinds have exactly one plugin, and let every plugin
report one action for each of its specs in order while the context is not cancelled. Then a cycle
has exactly one action for each resource of the manifest, plugin by plugin in the order of
registration and within a plugin in the order of the manifest, and its status is `error` if and only
if one of them has an error. -/
theorem exactlyDispatched {r : Reconciler σ} {manifest : DeviceManifest}
    (hdesired : r.desiredState = some manifest) {answers : ResourceSpec → Action → Prop}
    (hkinds : ∀ kind ∈ ["file", "service", "certificate"],
      r.plugins.countP (fun p => p.canHandle kind) = 1)
    (hone : ∀ p ∈ r.plugins, ∀ (ctx : Context) (specs : List ResourceSpec) (s : σ),
      (∀ spec ∈ specs, p.Accepts spec) → ctx.Outlasts specs →
        List.Forall₂ answers specs (p.reconcile ctx specs s).1)
    {ctx : Context} (hctx : ctx.Outlasts (diff manifest).allSpecs) (now : ℕ) (s : σ) :
    ExactlyDispatched manifest answers r.plugins (reconcileOnce r now ctx s) := by
  have hperm : (r.plugins.flatMap fun p => p.specsFor (diff manifest).allSpecs).Perm
      (diff manifest).allSpecs := by
    refine perm_flatMap_filter (fun (p : Plugin σ) (spec : ResourceSpec) => p.canHandle spec.kind)
      r.plugins fun spec hspec => ?_
    exact hkinds _ (declared_of_mem_allSpecs hspec).kind_mem
  have hout : ctx.Outlasts (r.plugins.flatMap fun p => p.specsFor (diff manifest).allSpecs) := by
    rcases ctx with _ | k
    · rfl
    · exact List.getElem?_eq_none_iff.mpr (hperm.length_eq ▸ List.getElem?_eq_none_iff.mp hctx)
  have haccepts (p : Plugin σ) : ∀ spec ∈ p.specsFor (diff manifest).allSpecs, p.Accepts spec :=
    fun _ h => Plugin.accepts_of_mem_specsFor (fun _ => declared_of_mem_allSpecs) h
  rw [reconcileOnce_eq hdesired]
  refine
    { calls := dispatch_fst_map _ _ _ _
      actions := rfl
      answered := forall₂_dispatch (fun p hp ctx s => hone p hp ctx _ s (haccepts p)) hout
      once := ?_
      status := status_reconcileSpecs _ _ _ _ }
  change ((dispatch (diff manifest).allSpecs r.plugins ctx s).1.flatMap Dispatch.specs).Perm _
  rw [dispatch_flatMap_specs]
  exact hperm

namespace Sample

/-- A platform on which every file belongs to one user. -/
def platform : FileManager.Platform where
  resolve := id
  umask := 0o022
  createdOwner _ := ⟨0, 0⟩
  lookupUser _ := some 0
  lookupGroup _ := some 0
  number _ := none
  chown _ _ := some ⟨0, 0⟩
  isPrint _ := true

/-- A certificate that meets no error. -/
def conditions : CertificateManager.Conditions where
  now := 0
  key := 1
  failing _ := none
  parseError := ""
  loadError := ""

/-- The plugins of the agent, in the order in which it registers them. -/
def registered : List (Plugin (Device ServiceManager.MockExecutor)) :=
  [fileManager platform fun _ => .succeed, serviceManager ServiceManager.MockExecutor.executor,
    certificateManager platform.resolve fun _ => conditions]

/-- A manifest with one file and one service. -/
def manifest : DeviceManifest :=
  { DeviceManifest.zero with
    spec :=
      { ManifestSpec.zero with
        files := .ofList [⟨"/etc/app.conf", "x", "0644", ""⟩]
        services := .ofList [⟨"nginx", "true", "running"⟩] } }

/-- The reconciler of the agent with the manifest. -/
def reconciler (plugins : List (Plugin (Device ServiceManager.MockExecutor))) :
    Reconciler (Device ServiceManager.MockExecutor) where
  plugins := plugins
  desiredState := some manifest
  lastReconcile := 0
  reconcileCount := 0
  status := .converged
  lastActions := []

/-- A device without files and requests, on which enabling a service fails. -/
def device : Device ServiceManager.MockExecutor where
  files _ := none
  services := ServiceManager.MockExecutor.idle
  certificates := ⟨fun _ => none, fun _ => none, []⟩

theorem oneByOne_registered : ∀ p ∈ registered, p.OneByOne := by
  intro p hp
  simp only [registered, List.mem_cons, List.not_mem_nil, or_false] at hp
  rcases hp with rfl | rfl | rfl
  · exact oneByOne_fileManager _ _
  · exact oneByOne_serviceManager _
  · exact oneByOne_certificateManager _ _

end Sample

open Sample in
/-- The cycle of the agent for the manifest. -/
theorem exactlyDispatched_sample :
    ((∀ kind ∈ ["file", "service", "certificate"],
        registered.countP (fun p => p.canHandle kind) = 1) ∧
      (reconcileOnce (reconciler registered) 7 none device).reconciler.lastActions.map
        (fun a => (a.resource, a.error)) =
          [("/etc/app.conf", ""), ("nginx", "enable service: mock enable failure")]) ∧
      ExactlyDispatched manifest (fun spec a => a.AccountsFor spec.name) registered
        (reconcileOnce (reconciler registered) 7 none device) :=
  ⟨⟨by decide, by decide +kernel⟩, exactlyDispatched (r := reconciler registered) rfl (by decide)
    (fun p hp _ _ s h hctx => (oneByOne_registered p hp).forall₂ h hctx s)
    (rfl : Context.Outlasts none (diff manifest).allSpecs) 7 device⟩

/-! ### What the status says -/

/-- An element of one of two related lists has a partner. -/
theorem exists_of_mem_forall₂ {α β : Type*} {R : α → β → Prop} {xs : List α} {ys : List β}
    (h : List.Forall₂ R xs ys) {x : α} (hx : x ∈ xs) : ∃ y ∈ ys, R x y := by
  induction h with
  | nil => exact absurd hx List.not_mem_nil
  | cons hrel _ ih =>
    rcases List.mem_cons.mp hx with rfl | htail
    · exact ⟨_, List.mem_cons_self, hrel⟩
    · obtain ⟨y, hy, hrel'⟩ := ih htail
      exact ⟨y, List.mem_cons_of_mem _ hy, hrel'⟩

/-- What there is for a resource in a cycle without an error. -/
theorem settled_of_ok {r : Reconciler σ} {specs : List ResourceSpec} {ctx : Context} {s : σ}
    (hdeclared : ∀ spec ∈ specs, spec.Declared) (hplugins : ∀ p ∈ r.plugins, p.OneByOne)
    (hok : ∀ a ∈ (reconcileSpecs r specs ctx s).reconciler.lastActions, a.Ok)
    {spec : ResourceSpec} (hspec : spec ∈ specs) {p : Plugin σ} (hp : p ∈ r.plugins)
    (hkind : p.canHandle spec.kind = true) :
    ∃ d ∈ (reconcileSpecs r specs ctx s).calls, d.plugin = p ∧ spec ∈ d.specs ∧
      (spec ∈ d.ctx.reached d.specs →
        ∃ a ∈ (reconcileSpecs r specs ctx s).reconciler.lastActions,
          a.resource = spec.name ∧ a.Ok ∧ a.actionType ≠ .skipped) := by
  obtain ⟨d, hd, rfl, hmem⟩ := exists_call hp hspec hkind ctx s
  refine ⟨d, hd, rfl, hmem, fun hreached => ?_⟩
  obtain ⟨-, hspecs, t, hactions⟩ := exists_reconcile_of_mem hd
  have haccepts : ∀ spec ∈ d.specs, d.plugin.Accepts spec := by
    rw [hspecs]
    exact fun _ h => Plugin.accepts_of_mem_specsFor hdeclared h
  obtain ⟨actions, hforall, heq⟩ := hplugins d.plugin hp d.ctx d.specs t haccepts
  obtain ⟨a, ha, haccounts⟩ := exists_of_mem_forall₂ hforall hreached
  have hlast : a ∈ (reconcileSpecs r specs ctx s).reconciler.lastActions := by
    refine List.mem_flatMap.mpr ⟨d, hd, ?_⟩
    rw [hactions, heq]
    exact List.mem_append_left _ ha
  exact ⟨a, hlast, haccounts.resource, hok a hlast,
    fun hskipped => haccounts.skipped hskipped (hok a hlast)⟩

/-- **What `converged` says.** Let the plugins take their specs one by one. If a cycle ends with the
status `converged`, then every resource was passed to every plugin that handles its kind, and unless
that plugin found its context cancelled before it came to it, there is an action for the resource
without an error that is not skipped. -/
theorem settled_of_converged {r : Reconciler σ} {manifest : DeviceManifest}
    (hdesired : r.desiredState = some manifest) (hplugins : ∀ p ∈ r.plugins, p.OneByOne) {now : ℕ}
    {ctx : Context} {s : σ}
    (hstatus : (reconcileOnce r now ctx s).reconciler.status = .converged) :
    ∀ spec ∈ (diff manifest).allSpecs, ∀ p ∈ r.plugins, p.canHandle spec.kind = true →
      ∃ d ∈ (reconcileOnce r now ctx s).calls, d.plugin = p ∧ spec ∈ d.specs ∧
        (spec ∈ d.ctx.reached d.specs →
          ∃ a ∈ (reconcileOnce r now ctx s).reconciler.lastActions,
            a.resource = spec.name ∧ a.Ok ∧ a.actionType ≠ .skipped) := by
  intro spec hspec p hp hkind
  rw [reconcileOnce_eq hdesired] at hstatus ⊢
  refine settled_of_ok (fun spec h => declared_of_mem_allSpecs h) hplugins (fun a ha => ?_) hspec hp
    hkind
  by_contra hne
  have herror := (status_reconcileSpecs _ _ ctx s).mpr ⟨a, ha, hne⟩
  exact absurd (hstatus.symm.trans herror) (by decide)

open Sample in
/-- A cycle that is cancelled after the file. -/
theorem settled_of_converged_sample :
    (reconcileOnce (reconciler registered) 7 (some 1) device).reconciler.status = .converged ∧
      ∀ spec ∈ (diff manifest).allSpecs, ∀ p ∈ registered, p.canHandle spec.kind = true →
        ∃ d ∈ (reconcileOnce (reconciler registered) 7 (some 1) device).calls,
          d.plugin = p ∧ spec ∈ d.specs ∧ (spec ∈ d.ctx.reached d.specs →
            ∃ a ∈ (reconcileOnce (reconciler registered) 7 (some 1) device).reconciler.lastActions,
              a.resource = spec.name ∧ a.Ok ∧ a.actionType ≠ .skipped) := by
  have hstatus : (reconcileOnce (reconciler registered) 7 (some 1) device).reconciler.status =
      .converged := by decide +kernel
  exact ⟨hstatus, settled_of_converged (r := reconciler registered) rfl oneByOne_registered hstatus⟩

/-- A cycle with the status `converged` has passed every resource of the manifest to a plugin, and
has an action for it without an error that is not skipped. -/
def MeansReconciled (manifest : DeviceManifest) (cycle : Cycle σ) : Prop :=
  cycle.reconciler.status = .converged → ∀ spec ∈ (diff manifest).allSpecs,
    ∃ d ∈ cycle.calls, spec ∈ d.specs ∧ ∃ a ∈ cycle.reconciler.lastActions,
      a.resource = spec.name ∧ a.Ok ∧ a.actionType ≠ .skipped

open Sample in
/-- A cycle whose context is cancelled at its beginning, and one without a plugin for services. -/
theorem not_meansReconciled :
    ¬ MeansReconciled manifest (reconcileOnce (reconciler registered) 7 (some 0) device) ∧
      ¬ MeansReconciled manifest
        (reconcileOnce (reconciler (registered.take 1)) 7 none device) := by
  constructor
  · intro h
    obtain ⟨-, -, -, a, ha, -, -, hnot⟩ := h (by decide +kernel)
      (fileSpec ⟨"/etc/app.conf", "x", "0644", ""⟩) (by decide +kernel)
    have hskipped : ∀ a ∈ (reconcileOnce (reconciler registered) 7 (some 0)
        device).reconciler.lastActions, a.actionType = .skipped := by decide +kernel
    exact hnot (hskipped a ha)
  · intro h
    obtain ⟨d, hd, hmem, -⟩ := h (by decide +kernel) (serviceSpec ⟨"nginx", "true", "running"⟩)
      (by decide +kernel)
    have hother : ∀ d ∈ (reconcileOnce (reconciler (registered.take 1)) 7 none device).calls,
        serviceSpec ⟨"nginx", "true", "running"⟩ ∉ d.specs := by decide +kernel
    exact hother d hd hmem

end EdgeGuardian.Agent.Reconciler
