import EdgeGuardian.Agent.Model.DeviceManifest
import EdgeGuardian.Agent.Plugins.CertificateReconcile
import EdgeGuardian.Agent.Plugins.FileManager
import EdgeGuardian.Agent.Plugins.ServiceManager

/-!
# Specs and plugins

A reconcile cycle takes the manifest apart into specs, one for each file, service and certificate.
A plugin says which kinds of specs it can handle, and reconciles a list of them. The plugins of the
agent are its three managers. Each of them reads its specs from the fields of the specs of the
manifest, and takes them one by one: it reports one action for each of them, until it finds its
context cancelled.

The state of the device is of an arbitrary type, on which the plugins work.

Source: `agent/internal/reconciler/diff.go`, `plugin.go`, and `Name`, `CanHandle` and `Reconcile` of
`agent/plugins/filemanager/filemanager.go`, `agent/plugins/service/service.go` and
`agent/plugins/certificate/certificate.go`.

## Main definitions

* `ResourceSpec`, `diff`, `DiffResult.allSpecs`: the specs of a manifest.
* `Plugin`, `Plugin.OneByOne`: a plugin, and how the managers take their specs.
* `fileManager`, `serviceManager`, `certificateManager`: the managers as plugins.

## Main results

* `oneByOne_fileManager`, `oneByOne_serviceManager`, `oneByOne_certificateManager`.
-/

namespace EdgeGuardian.Agent.Reconciler

open Model

/-! ### The specs of a manifest -/

/-- A value of `ResourceSpec.Fields`. -/
inductive FieldValue
  | text (s : String)
  | texts (ss : List String)
deriving DecidableEq, Repr

/-- `ResourceSpec`. -/
structure ResourceSpec where
  kind : String
  name : String
  fields : List (String × FieldValue)
deriving DecidableEq, Repr

/-- A field as the plugins read it: empty where it is missing or no string. -/
def ResourceSpec.text (spec : ResourceSpec) (field : String) : String :=
  match spec.fields.lookup field with
  | some (.text s) => s
  | _ => ""

/-- The spec of a file. -/
def fileSpec (f : FileResource) : ResourceSpec where
  kind := "file"
  name := f.path
  fields := [("path", .text f.path), ("content", .text f.content), ("mode", .text f.mode),
    ("owner", .text f.owner)]

/-- The spec of a service. -/
def serviceSpec (s : ServiceResource) : ResourceSpec where
  kind := "service"
  name := s.name
  fields := [("name", .text s.name), ("enabled", .text s.enabled), ("state", .text s.state)]

/-- The spec of a certificate. -/
def certificateSpec (c : CertificateResource) : ResourceSpec where
  kind := "certificate"
  name := c.name
  fields := [("name", .text c.name), ("commonName", .text c.commonName),
    ("sans", .texts c.sans.toList), ("certPath", .text c.certPath), ("keyPath", .text c.keyPath),
    ("keyAlgo", .text c.keyAlgo)]

/-- `DiffResult`. -/
structure DiffResult where
  fileSpecs : List ResourceSpec
  serviceSpecs : List ResourceSpec
  certSpecs : List ResourceSpec
deriving DecidableEq, Repr

/-- `Diff`. -/
def diff (manifest : DeviceManifest) : DiffResult where
  fileSpecs := manifest.spec.files.toList.map fileSpec
  serviceSpecs := manifest.spec.services.toList.map serviceSpec
  certSpecs := manifest.spec.certificates.toList.map certificateSpec

namespace DiffResult

variable (d : DiffResult)

/-- `AllSpecs`. -/
def allSpecs : List ResourceSpec := d.fileSpecs ++ d.serviceSpecs ++ d.certSpecs

/-- `HasResources`. -/
def hasResources : Bool :=
  d.fileSpecs.length > 0 || d.serviceSpecs.length > 0 || d.certSpecs.length > 0

theorem allSpecs_eq_nil_iff : d.allSpecs = [] ↔ d.hasResources = false := by
  simp [allSpecs, hasResources, List.append_eq_nil_iff, and_assoc]

end DiffResult

/-- A spec that comes from a manifest. -/
inductive ResourceSpec.Declared : ResourceSpec → Prop
  | file (f : FileResource) : Declared (fileSpec f)
  | service (s : ServiceResource) : Declared (serviceSpec s)
  | certificate (c : CertificateResource) : Declared (certificateSpec c)

theorem declared_of_mem_allSpecs {manifest : DeviceManifest} {spec : ResourceSpec}
    (h : spec ∈ (diff manifest).allSpecs) : spec.Declared := by
  simp only [DiffResult.allSpecs, diff, List.mem_append, List.mem_map] at h
  rcases h with (⟨f, -, rfl⟩ | ⟨s, -, rfl⟩) | ⟨c, -, rfl⟩
  · exact .file f
  · exact .service s
  · exact .certificate c

theorem ResourceSpec.Declared.kind_mem {spec : ResourceSpec} (h : spec.Declared) :
    spec.kind ∈ ["file", "service", "certificate"] := by
  cases h with
  | file f => exact List.mem_cons_self
  | service s => exact List.mem_cons_of_mem _ List.mem_cons_self
  | certificate c => exact List.mem_cons_of_mem _ (List.mem_cons_of_mem _ List.mem_cons_self)

/-! ### Plugins -/

namespace Context

/-- The context once `n` more specs have been taken. -/
def after (ctx : Context) (n : ℕ) : Context := ctx.map (· - n)

theorem outlasts_append {ι : Type*} {ctx : Context} {xs ys : List ι}
    (h : ctx.Outlasts (xs ++ ys)) : ctx.Outlasts xs ∧ (ctx.after xs.length).Outlasts ys := by
  rcases ctx with _ | k
  · exact ⟨rfl, rfl⟩
  · have hlength : (xs ++ ys).length ≤ k := List.getElem?_eq_none_iff.mp h
    rw [List.length_append] at hlength
    have hrest : ys.length ≤ k - xs.length := by omega
    exact ⟨List.getElem?_eq_none_iff.mpr (by omega), List.getElem?_eq_none_iff.mpr hrest⟩

end Context

/-- `Plugin`, for devices with states in `σ`. -/
structure Plugin (σ : Type*) where
  name : String
  canHandle : String → Bool
  reconcile : Context → List ResourceSpec → σ → List Action × σ

/-- The specs that a plugin can handle. -/
def Plugin.specsFor {σ : Type*} (p : Plugin σ) (specs : List ResourceSpec) : List ResourceSpec :=
  specs.filter fun spec => p.canHandle spec.kind

/-- A spec that a plugin may be given: it comes from a manifest, and is of a kind that the plugin
handles. -/
structure Plugin.Accepts {σ : Type*} (p : Plugin σ) (spec : ResourceSpec) : Prop where
  declared : spec.Declared
  canHandle : p.canHandle spec.kind = true

theorem Plugin.accepts_of_mem_specsFor {σ : Type*} {p : Plugin σ} {specs : List ResourceSpec}
    (hdeclared : ∀ spec ∈ specs, spec.Declared) {spec : ResourceSpec}
    (h : spec ∈ p.specsFor specs) : p.Accepts spec :=
  ⟨hdeclared spec (List.mem_filter.mp h).1, (List.mem_filter.mp h).2⟩

/-- The plugin takes its specs one after the other. It reports an action for each one, and ends with
a skipped action for the one at which it finds the context cancelled. -/
def Plugin.OneByOne {σ : Type*} (p : Plugin σ) : Prop :=
  ∀ (ctx : Context) (specs : List ResourceSpec) (s : σ), (∀ spec ∈ specs, p.Accepts spec) →
    ∃ actions, List.Forall₂ (fun spec a => a.AccountsFor spec.name) (ctx.reached specs) actions ∧
      (p.reconcile ctx specs s).1 =
        actions ++ ((ctx.cut specs).map fun spec => contextCancelled p.name spec.name).toList

/-- Where the context outlasts the pass, there is one action for each spec. -/
theorem Plugin.OneByOne.forall₂ {σ : Type*} {p : Plugin σ} (h : p.OneByOne) {ctx : Context}
    {specs : List ResourceSpec} (haccepts : ∀ spec ∈ specs, p.Accepts spec)
    (hctx : ctx.Outlasts specs) (s : σ) :
    List.Forall₂ (fun spec a => a.AccountsFor spec.name) specs (p.reconcile ctx specs s).1 := by
  obtain ⟨actions, hforall, heq⟩ := h ctx specs s haccepts
  rw [Context.reached_of_outlasts hctx] at hforall
  rw [heq, hctx, Option.map_none, Option.toList_none, List.append_nil]
  exact hforall

/-! ### The managers of the agent -/

/-- What the three managers work on. -/
structure Device (ε : Type*) where
  files : FileManager.Files
  services : ε
  certificates : CertificateManager.Store

end Reconciler

/-- The spec of a file as the file manager reads it. -/
def FileManager.FileSpec.ofSpec (spec : Reconciler.ResourceSpec) : FileManager.FileSpec where
  resource := spec.name
  path := spec.text "path"
  content := (spec.text "content").toUTF8.data.toList
  mode := spec.text "mode"
  owner := spec.text "owner"

/-- The spec of a service as the service manager reads it. -/
def ServiceManager.ServiceSpec.ofSpec (spec : Reconciler.ResourceSpec) :
    ServiceManager.ServiceSpec where
  resource := spec.name
  name := spec.text "name"
  state := spec.text "state"
  enabled := spec.text "enabled"

/-- The spec of a certificate as the certificate manager reads it, with its paths resolved. -/
def Plugins.CertificateSpec.ofSpec (resolve : String → String) (spec : Reconciler.ResourceSpec) :
    Plugins.CertificateSpec where
  name := spec.text "name"
  commonName := spec.text "commonName"
  sans :=
    match spec.fields.lookup "sans" with
    | some (.texts ss) => ss
    | _ => []
  certPath := resolve (spec.text "certPath")
  keyPath := resolve (spec.text "keyPath")
  keyAlgo := spec.text "keyAlgo"

namespace Reconciler

namespace Context

variable {ι κ : Type*} (ctx : Context) (f : ι → κ) (specs : List ι)

theorem reached_map : ctx.reached (specs.map f) = (ctx.reached specs).map f := by
  rcases ctx with _ | k
  · rfl
  · exact (List.map_take ..).symm

theorem cut_map : ctx.cut (specs.map f) = (ctx.cut specs).map f := by
  rcases ctx with _ | k
  · rfl
  · exact List.getElem?_map ..

end Context

/-- A plugin whose pass is the loop over the specs, as it reads them, takes them one by one. -/
theorem oneByOne_of_reconcileEach {ι σ τ : Type*} {p : Plugin σ} {read : ResourceSpec → ι}
    {resource : ι → String} {one : ι → τ → Action × τ} {g : σ → τ}
    (hpass : ∀ ctx specs s, (p.reconcile ctx specs s).1 =
      (reconcileEach p.name resource one ctx (specs.map read) (g s)).1)
    (hresource : ∀ spec, p.Accepts spec → resource (read spec) = spec.name)
    (hone : ∀ spec, p.Accepts spec → ∀ t, (one (read spec) t).1.AccountsFor spec.name) :
    p.OneByOne := by
  intro ctx specs s haccepts
  have hreached : ∀ spec ∈ ctx.reached specs, p.Accepts spec :=
    fun spec h => haccepts spec (Context.mem_of_mem_reached h)
  have hrun (specs : List ResourceSpec) (h : ∀ spec ∈ specs, p.Accepts spec) (t : τ) :
      List.Forall₂ (fun spec a => a.AccountsFor spec.name) specs
        (KeyedPass.run one (specs.map read) t).1 := by
    induction specs generalizing t with
    | nil => exact .nil
    | cons spec specs ih =>
      exact .cons (hone spec (h spec List.mem_cons_self) t)
        (ih (fun spec' h' => h spec' (List.mem_cons_of_mem _ h')) _)
  refine ⟨_, hrun _ hreached (g s), ?_⟩
  rw [hpass, reconcileEach_eq, Context.reached_map, Context.cut_map, Option.map_map]
  have hcut : ((ctx.cut specs).map fun spec => contextCancelled p.name (resource (read spec))) =
      (ctx.cut specs).map fun spec => contextCancelled p.name spec.name := by
    rcases hspec : ctx.cut specs with _ | spec
    · rfl
    · have hmem : spec ∈ specs := by
        rcases ctx with _ | k
        · simp [Context.cut] at hspec
        · exact List.mem_of_getElem? hspec
      rw [Option.map_some, Option.map_some, hresource spec (haccepts spec hmem)]
  exact congrArg (_ ++ Option.toList ·) hcut

section Managers

variable {ε : Type*}

/-- The file manager. -/
def fileManager (platform : FileManager.Platform)
    (calls : FileManager.FileSpec → FileManager.Calls) : Plugin (Device ε) where
  name := FileManager.name
  canHandle kind := kind == "file"
  reconcile ctx specs s :=
    let r := FileManager.reconcile platform calls ctx (specs.map .ofSpec) s.files
    (r.1, { s with files := r.2 })

/-- The service manager. -/
def serviceManager (exec : ServiceManager.ServiceExecutor ε) : Plugin (Device ε) where
  name := ServiceManager.name
  canHandle kind := kind == "service"
  reconcile ctx specs s :=
    let r := ServiceManager.reconcile exec ctx (specs.map .ofSpec) s.services
    (r.1, { s with services := r.2 })

/-- The certificate manager. -/
def certificateManager (resolve : String → String)
    (conditions : Plugins.CertificateSpec → CertificateManager.Conditions) : Plugin (Device ε) where
  name := CertificateManager.name
  canHandle kind := kind == "certificate"
  reconcile ctx specs s :=
    let r :=
      CertificateManager.reconcile conditions ctx (specs.map (.ofSpec resolve)) s.certificates
    (r.1, { s with certificates := r.2 })

/-- The file manager takes its files one by one. -/
theorem oneByOne_fileManager (platform : FileManager.Platform)
    (calls : FileManager.FileSpec → FileManager.Calls) :
    (fileManager platform calls : Plugin (Device ε)).OneByOne := by
  have hfile {spec : ResourceSpec}
      (h : (fileManager platform calls : Plugin (Device ε)).Accepts spec) :
      (FileManager.FileSpec.ofSpec spec).path = spec.name := by
    obtain ⟨hdeclared, hkind⟩ := h
    cases hdeclared with
    | file f => rfl
    | service s => exact absurd hkind (by simp [fileManager, serviceSpec])
    | certificate c => exact absurd hkind (by simp [fileManager, certificateSpec])
  refine oneByOne_of_reconcileEach (g := Device.files) (fun _ _ _ => rfl) (fun _ _ => rfl)
    fun spec h t => ?_
  rw [← hfile h]
  exact FileManager.accountsFor_reconcileFile platform calls (hfile h).symm t

/-- The service manager takes its services one by one. -/
theorem oneByOne_serviceManager (exec : ServiceManager.ServiceExecutor ε) :
    (serviceManager exec).OneByOne := by
  have hservice {spec : ResourceSpec} (h : (serviceManager exec).Accepts spec) :
      (ServiceManager.ServiceSpec.ofSpec spec).name = spec.name := by
    obtain ⟨hdeclared, hkind⟩ := h
    cases hdeclared with
    | file f => exact absurd hkind (by simp [serviceManager, fileSpec])
    | service s => rfl
    | certificate c => exact absurd hkind (by simp [serviceManager, certificateSpec])
  refine oneByOne_of_reconcileEach (g := Device.services) (fun _ _ _ => rfl) (fun _ _ => rfl)
    fun spec h t => ?_
  rw [← hservice h]
  exact ServiceManager.accountsFor_reconcileService exec (hservice h).symm t

/-- The certificate manager takes its certificates one by one. -/
theorem oneByOne_certificateManager (resolve : String → String)
    (conditions : Plugins.CertificateSpec → CertificateManager.Conditions) :
    (certificateManager resolve conditions : Plugin (Device ε)).OneByOne := by
  have hcertificate {spec : ResourceSpec}
      (h : (certificateManager resolve conditions : Plugin (Device ε)).Accepts spec) :
      (Plugins.CertificateSpec.ofSpec resolve spec).name = spec.name := by
    obtain ⟨hdeclared, hkind⟩ := h
    cases hdeclared with
    | file f => exact absurd hkind (by simp [certificateManager, fileSpec])
    | service s => exact absurd hkind (by simp [certificateManager, serviceSpec])
    | certificate c => rfl
  refine oneByOne_of_reconcileEach (g := Device.certificates) (fun _ _ _ => rfl)
    (fun _ h => hcertificate h) fun spec h t => ?_
  rw [← hcertificate h]
  exact CertificateManager.accountsFor_reconcileCert _ _ t

end Managers

end EdgeGuardian.Agent.Reconciler
