import EdgeGuardian.Agent.Model.DeviceManifest
import EdgeGuardian.Controller.ManifestYaml
import Mathlib.Algebra.Ring.Nat

/-!
# Manifests that the agent understands

The controller stores whatever tree stands under `metadata` and `spec`; the agent decodes the
message into structs of texts. The message is understood when it is decoded without an error and
every entry of `files`, `services` and `certificates` is there with the values of its fields.

This is so exactly for the manifests that conform: every value has the type of its field, the
fields of the entries are texts or `null`, and a field that is given under several spellings, which
the decoder takes for one, is given the same value under each. A mode that is written without
quotes is a number, and its manifest is stored, sent with every heartbeat and never accepted.

Source: `controller/src/main/java/com/edgeguardian/controller/service/ManifestYaml.java`,
`mqtt/HeartbeatListener.java`, lines 74–94, `agent/internal/model/manifest.go`,
`agent/internal/comms/mqtt_client.go`, lines 477–496.

## Main definitions

* `GoJson.GoType.fits`: the trees whose message can be decoded into a type.
* `given`, `filesOf`, `servicesOf`, `certificatesOf`: the entries that a manifest lists, as
  resources.
* `Conforms`, `Understood`.

## Main results

* `accepts_render`: decoding accepts the rendering of exactly the trees that fit.
* `readsAs_file`, `readsAs_service`, `readsAs_certificate`: decoding leaves the listed entry.
* `understood_iff_conforms`.
-/

open EdgeGuardian EdgeGuardian.Controller

/-! ### Trees that fit a type -/

namespace GoJson.GoType

mutual

/-- The rendering of the tree can be decoded into the type. -/
def fits : GoType → Yaml → Bool
  | _, .null => true
  | .string, .str _ => true
  | .string, .text _ => true
  | .bool, .bool _ => true
  | .int bits, .num n 0 => inRange bits n
  | .time, .str s => parsesTime s
  | .time, .text s => parsesTime s
  | .slice t, .seq elements => elements.all (fits t)
  | .map t, .map pairs => (Yaml.members pairs).all fun m => fits t m.2
  | .pointer t, y => fits t y
  | .struct fields, .map pairs => fitsFields (fields.map Prod.fst) fields (Yaml.members pairs)
  | _, _ => false

/-- Every member that goes to one of the fields fits it. -/
def fitsFields (names : List String) : List (String × GoType) → List (String × Yaml) → Bool
  | [], _ => true
  | (name, t) :: fields, members =>
    (members.all fun m => !targets names m.1 name || fits t m.2) && fitsFields names fields members

end

/-- Two lists are both within a predicate if they are so element by element. -/
theorem all_eq_of_forall₂ {α β : Type*} {R : α → β → Prop} {p : α → Bool} {q : β → Bool}
    {xs : List α} {ys : List β} (h : List.Forall₂ R xs ys) (hpq : ∀ x y, R x y → q y = p x) :
    ys.all q = xs.all p := by
  induction h with
  | nil => rfl
  | cons hxy _ ih => rw [List.all_cons, List.all_cons, hpq _ _ hxy, ih]

mutual

/-- **Accepted trees.** Decoding accepts the rendering of a tree exactly if the tree fits. -/
theorem accepts_render (t : GoType) {y : Yaml} {json : Json} (h : y.render = some json) :
    t.accepts json = t.fits y := by
  cases t with
  | string | bool | int | time =>
    cases y with
    | num n exponent =>
      cases h
      cases exponent <;> simp [accepts, fits]
    | seq | map =>
      obtain ⟨js, -, rfl⟩ := Option.map_eq_some_iff.mp h
      simp [accepts, fits]
    | null | bool | str | text =>
      cases h
      simp [accepts, fits]
  | slice t =>
    cases y with
    | seq ys =>
      obtain ⟨js, hjs, rfl⟩ := Option.map_eq_some_iff.mp h
      rw [accepts, fits]
      exact all_eq_of_forall₂ (Yaml.forall₂_renderElements hjs) fun _ _ hy => accepts_render t hy
    | map pairs =>
      obtain ⟨js, -, rfl⟩ := Option.map_eq_some_iff.mp h
      simp [accepts, fits]
    | null | bool | num | str | text =>
      cases h
      simp [accepts, fits]
  | map t =>
    cases y with
    | map pairs =>
      obtain ⟨js, hjs, rfl⟩ := Option.map_eq_some_iff.mp h
      rw [accepts, fits]
      exact all_eq_of_forall₂ (Yaml.rendered_members hjs) fun _ _ hm => accepts_render t hm.2
    | seq ys =>
      obtain ⟨js, -, rfl⟩ := Option.map_eq_some_iff.mp h
      simp [accepts, fits]
    | null | bool | num | str | text =>
      cases h
      simp [accepts, fits]
  | pointer t =>
    have haccepts : (GoType.pointer t).accepts json = t.accepts json := by
      cases json <;> simp [accepts]
    have hfits : (GoType.pointer t).fits y = t.fits y := by
      cases y <;> simp [fits]
    rw [haccepts, hfits]
    exact accepts_render t h
  | struct fields =>
    cases y with
    | map pairs =>
      obtain ⟨js, hjs, rfl⟩ := Option.map_eq_some_iff.mp h
      rw [accepts, fits]
      exact acceptsFields_eq (fields.map Prod.fst) fields (Yaml.rendered_members hjs)
    | seq ys =>
      obtain ⟨js, -, rfl⟩ := Option.map_eq_some_iff.mp h
      simp [accepts, fits]
    | null | bool | num | str | text =>
      cases h
      simp [accepts, fits]

theorem acceptsFields_eq (names : List String) (fields : List (String × GoType))
    {ms : List (String × Yaml)} {js : List (String × Json)}
    (h : Yaml.Rendered ms js) :
    acceptsFields names fields js = fitsFields names fields ms := by
  match fields with
  | [] => rw [acceptsFields, fitsFields]
  | (name, t) :: fields =>
    have hall : (js.all fun m => !targets names m.1 name || t.accepts m.2) =
        ms.all fun m => !targets names m.1 name || t.fits m.2 :=
      all_eq_of_forall₂ h fun m m' hm => by rw [hm.1, accepts_render t hm.2]
    rw [acceptsFields, fitsFields, hall, acceptsFields_eq names fields h]

end

end GoJson.GoType

/-! ### Reading the entries of a manifest -/

namespace EdgeGuardian.ManifestContract

open GoJson Agent.Model

section Given

variable {α : Type*} [DecidableEq α]

/-- The value that a mapping gives to a field: the one that all members give that go to it, and
`zero` if there are none. There is no value if one cannot be read or if two differ. -/
def given (names : List String) (name : String) (read : Yaml → Option α) (zero : α)
    (members : List (String × Yaml)) : Option α :=
  match (members.filter fun m => targets names m.1 name).map fun m => read m.2 with
  | [] => some zero
  | x :: xs => if xs.all (· = x) then x else none

theorem given_eq_some {names : List String} {name : String} {read : Yaml → Option α} {zero x : α}
    {members : List (String × Yaml)} (h : given names name read zero members = some x) :
    (∀ m ∈ members, targets names m.1 name → read m.2 = some x) ∧
      ((∀ m ∈ members, targets names m.1 name = false) → x = zero) := by
  have hread : ∀ m ∈ members, targets names m.1 name →
      read m.2 ∈ (members.filter fun m => targets names m.1 name).map fun m => read m.2 :=
    fun m hm htargets => List.mem_map_of_mem (List.mem_filter.mpr ⟨hm, htargets⟩)
  rw [given] at h
  split at h
  · next hnil =>
    refine ⟨fun m hm htargets => ?_, fun _ => (Option.some.inj h).symm⟩
    have hmem := hread m hm htargets
    rw [hnil] at hmem
    exact absurd hmem List.not_mem_nil
  · next y ys hcons =>
    split_ifs at h with hall
    refine ⟨fun m hm htargets => ?_, fun hnone => ?_⟩
    · have hmem := hread m hm htargets
      rw [hcons] at hmem
      rcases List.mem_cons.mp hmem with heq | hys
      · exact heq.trans h
      · exact (of_decide_eq_true (List.all_eq_true.mp hall _ hys)).trans h
    · have hnil : members.filter (fun m => targets names m.1 name) = [] :=
        List.filter_eq_nil_iff.mpr fun m hm => Bool.eq_false_iff.mp (hnone m hm)
      rw [hnil] at hcons
      cases hcons

end Given

/-- A text: `null` stands for the empty one. -/
def readText : Yaml → Option String
  | .null => some ""
  | .str s => some s
  | _ => none

/-- A list: `null` stands for the empty one. -/
def readList {α : Type*} (read : Yaml → Option α) : Yaml → Option (GoSlice α)
  | .null => some (.ofList [])
  | .seq elements => (elements.mapM read).map .ofList
  | _ => none

/-- An entry, of which `read` reads the members: `null` stands for the zero value. -/
def readEntry {α : Type*} (zero : α) (read : List (String × Yaml) → Option α) : Yaml → Option α
  | .null => some zero
  | .map pairs => read (Yaml.members pairs)
  | _ => none

/-- The members of an entry of `files`. -/
def readFile (members : List (String × Yaml)) : Option FileResource := do
  let text (name : String) := given (FileResource.fields.map Prod.fst) name readText "" members
  return {
    path := ← text "path"
    content := ← text "content"
    mode := ← text "mode"
    owner := ← text "owner" }

/-- The members of an entry of `services`. -/
def readService (members : List (String × Yaml)) : Option ServiceResource := do
  let text (name : String) := given (ServiceResource.fields.map Prod.fst) name readText "" members
  return {
    name := ← text "name"
    enabled := ← text "enabled"
    state := ← text "state" }

/-- The members of an entry of `certificates`. -/
def readCertificate (members : List (String × Yaml)) : Option CertificateResource := do
  let names := CertificateResource.fields.map Prod.fst
  let text (name : String) := given names name readText "" members
  return {
    name := ← text "name"
    commonName := ← text "commonName"
    sans := ← given names "sans" (readList readText) .empty members
    certPath := ← text "certPath"
    keyPath := ← text "keyPath"
    keyAlgo := ← text "keyAlgo" }

/-- The list of entries that a manifest gives under this name. -/
def entries {α : Type*} [DecidableEq α] (name : String) (zero : α)
    (read : List (String × Yaml) → Option α) (spec : List (YamlKey × Yaml)) : Option (GoSlice α) :=
  given (ManifestSpec.fields.map Prod.fst) name (readList (readEntry zero read)) .empty
    (Yaml.members spec)

/-- The entries of `files`. -/
def filesOf : List (YamlKey × Yaml) → Option (GoSlice FileResource) :=
  entries "files" .zero readFile

/-- The entries of `services`. -/
def servicesOf : List (YamlKey × Yaml) → Option (GoSlice ServiceResource) :=
  entries "services" .zero readService

/-- The entries of `certificates`. -/
def certificatesOf : List (YamlKey × Yaml) → Option (GoSlice CertificateResource) :=
  entries "certificates" .zero readCertificate

/-- Decoding the rendering of a tree leaves what the tree reads as, over the zero value and over
this value itself. -/
def ReadsAs {α : Type*} (read : Yaml → Option α) (store : Json → α → α) (zero : α) : Prop :=
  ∀ y json x, y.render = some json → read y = some x → Settles store zero json x

section ReadsAs

variable {α : Type*} {read : Yaml → Option α} {store : Json → α → α} {zero : α}

theorem readsAs_text : ReadsAs readText storeString "" := by
  intro y json x hrender hread
  cases y with
  | null =>
    cases hrender
    cases hread
    exact settles_string_null
  | str s =>
    cases hrender
    cases hread
    exact settles_string _
  | bool | num | text | seq | map => cases hread

/-- Element by element. -/
theorem ReadsAs.elements (h : ReadsAs read store zero) {ys : List Yaml} {js : List Json}
    {xs : List α} (hjs : List.Forall₂ (fun y json => y.render = some json) ys js)
    (hxs : ys.mapM read = some xs) : List.Forall₂ (Settles store zero) js xs := by
  induction hjs generalizing xs with
  | nil =>
    cases hxs
    exact .nil
  | cons hy _ ih =>
    simp only [List.mapM_cons, Option.bind_eq_bind, Option.bind_eq_some_iff, Option.pure_def,
      Option.some.injEq] at hxs
    obtain ⟨x, hx, rest, hrest, rfl⟩ := hxs
    exact .cons (h _ _ x hy hx) (ih hrest)

theorem readsAs_list (h : ReadsAs read store zero) :
    ReadsAs (readList read) (storeSlice zero store) GoSlice.empty := by
  intro y json x hrender hread
  cases y with
  | null =>
    cases hrender
    cases hread
    exact settles_slice_null
  | seq ys =>
    obtain ⟨js, hjs, rfl⟩ := Option.map_eq_some_iff.mp hrender
    obtain ⟨xs, hxs, rfl⟩ := Option.map_eq_some_iff.mp hread
    exact settles_slice (h.elements (Yaml.forall₂_renderElements hjs) hxs)
  | bool | num | str | text | map => cases hread

/-- **A field of a mapping.** Decoding leaves the value that the mapping gives to the field. -/
theorem storeField_of_given [DecidableEq α] (h : ReadsAs read store zero) {names : List String}
    {name : String} {ms : List (String × Yaml)} {js : List (String × Json)} {x old : α}
    (hms : Yaml.Rendered ms js)
    (hgiven : given names name read zero ms = some x) (hold : old = zero ∨ old = x) :
    storeField names name store js old = x := by
  obtain ⟨hmembers, hnone⟩ := given_eq_some hgiven
  refine storeField_eq hold ?_ ?_
  · intro m' hm' htargets
    obtain ⟨m, hm, hkey, hrender⟩ := hms.exists_left hm'
    exact h m.2 m'.2 x hrender (hmembers m hm (hkey ▸ htargets))
  · intro hmiss
    refine hnone fun m hm => ?_
    obtain ⟨m', hm', hkey, -⟩ := hms.exists_right hm
    rw [hkey]
    exact hmiss m' hm'

/-- A field of an entry, which is decoded over the entry that was there. -/
theorem field_of_entry [DecidableEq α] (h : ReadsAs read store zero) {ρ : Type*} (f : ρ → α)
    {names : List String} {name : String} {ms : List (String × Yaml)} {js : List (String × Json)}
    {zeroEntry entry old : ρ} (hold : old = zeroEntry ∨ old = entry) (hzero : f zeroEntry = zero)
    (hms : Yaml.Rendered ms js) (hgiven : given names name read zero ms = some (f entry)) :
    storeField names name store js (f old) = f entry := by
  refine storeField_of_given h hms hgiven ?_
  rcases hold with rfl | rfl
  · exact Or.inl hzero
  · exact Or.inr rfl

/-- An entry reads as it is decoded if its members do. -/
theorem readsAs_entry {readMembers : List (String × Yaml) → Option α}
    (hstore : ∀ old, store .null old = old)
    (hmembers : ∀ ms js x old, Yaml.Rendered ms js → readMembers ms = some x →
      old = zero ∨ old = x → store (.obj js) old = x) :
    ReadsAs (readEntry zero readMembers) store zero := by
  intro y json x hrender hread old hold
  cases y with
  | null =>
    cases hrender
    cases hread
    rw [hstore]
    exact hold.elim id id
  | map pairs =>
    obtain ⟨js, hjs, rfl⟩ := Option.map_eq_some_iff.mp hrender
    exact hmembers _ (jsonb js) x old (Yaml.rendered_members hjs) hread hold
  | bool | num | str | text | seq => cases hread

theorem readsAs_file :
    ReadsAs (readEntry .zero readFile) FileResource.store FileResource.zero := by
  refine readsAs_entry (fun _ => rfl) fun ms js x old hms hread hold => ?_
  simp only [readFile, Option.bind_eq_bind, Option.bind_eq_some_iff, Option.pure_def,
    Option.some.injEq] at hread
  obtain ⟨path, hpath, content, hcontent, mode, hmode, owner, howner, rfl⟩ := hread
  simp only [FileResource.store, membersOf]
  rw [field_of_entry readsAs_text FileResource.path hold rfl hms hpath,
    field_of_entry readsAs_text FileResource.content hold rfl hms hcontent,
    field_of_entry readsAs_text FileResource.mode hold rfl hms hmode,
    field_of_entry readsAs_text FileResource.owner hold rfl hms howner]

theorem readsAs_service :
    ReadsAs (readEntry .zero readService) ServiceResource.store ServiceResource.zero := by
  refine readsAs_entry (fun _ => rfl) fun ms js x old hms hread hold => ?_
  simp only [readService, Option.bind_eq_bind, Option.bind_eq_some_iff, Option.pure_def,
    Option.some.injEq] at hread
  obtain ⟨name, hname, enabled, henabled, state, hstate, rfl⟩ := hread
  simp only [ServiceResource.store, membersOf]
  rw [field_of_entry readsAs_text ServiceResource.name hold rfl hms hname,
    field_of_entry readsAs_text ServiceResource.enabled hold rfl hms henabled,
    field_of_entry readsAs_text ServiceResource.state hold rfl hms hstate]

theorem readsAs_certificate :
    ReadsAs (readEntry .zero readCertificate) CertificateResource.store
      CertificateResource.zero := by
  refine readsAs_entry (fun _ => rfl) fun ms js x old hms hread hold => ?_
  simp only [readCertificate, Option.bind_eq_bind, Option.bind_eq_some_iff, Option.pure_def,
    Option.some.injEq] at hread
  obtain ⟨name, hname, commonName, hcommonName, sans, hsans, certPath, hcertPath, keyPath, hkeyPath,
    keyAlgo, hkeyAlgo, rfl⟩ := hread
  simp only [CertificateResource.store, membersOf]
  rw [field_of_entry readsAs_text CertificateResource.name hold rfl hms hname,
    field_of_entry readsAs_text CertificateResource.commonName hold rfl hms hcommonName,
    field_of_entry (readsAs_list readsAs_text) CertificateResource.sans hold rfl hms hsans,
    field_of_entry readsAs_text CertificateResource.certPath hold rfl hms hcertPath,
    field_of_entry readsAs_text CertificateResource.keyPath hold rfl hms hkeyPath,
    field_of_entry readsAs_text CertificateResource.keyAlgo hold rfl hms hkeyAlgo]

end ReadsAs

/-! ### Manifests that are understood -/

/-- What the agent sees of a certificate: not the memory behind its names. -/
def CertificateResource.visible (c : CertificateResource) : CertificateResource :=
  { c with sans := .ofList c.sans.toList }

/-- The message is decoded without an error, and every entry of the manifest is in what it is
decoded to, with the values of its fields. -/
def Understood (parsed : ManifestYaml.Parsed) (message : Json) : Prop :=
  ∃ manifest, unmarshalManifest message = some manifest ∧
    (filesOf parsed.spec).map GoSlice.toList = some manifest.spec.files.toList ∧
    (servicesOf parsed.spec).map GoSlice.toList = some manifest.spec.services.toList ∧
    (certificatesOf parsed.spec).map (fun s => s.toList.map CertificateResource.visible) =
      some (manifest.spec.certificates.toList.map CertificateResource.visible)

/-- Every value of the manifest has the type of its field, and its entries are made of texts and
give each field one value. -/
structure Conforms (parsed : ManifestYaml.Parsed) : Prop where
  metadata : (GoType.struct ManifestMetadata.fields).fits (.map parsed.metadata)
  spec : (GoType.struct ManifestSpec.fields).fits (.map parsed.spec)
  files : (filesOf parsed.spec).isSome
  services : (servicesOf parsed.spec).isSome
  certificates : (certificatesOf parsed.spec).isSome

instance (parsed : ManifestYaml.Parsed) : Decidable (Conforms parsed) :=
  decidable_of_iff ((GoType.struct ManifestMetadata.fields).fits (.map parsed.metadata) ∧
      (GoType.struct ManifestSpec.fields).fits (.map parsed.spec) ∧ (filesOf parsed.spec).isSome ∧
      (servicesOf parsed.spec).isSome ∧ (certificatesOf parsed.spec).isSome)
    ⟨fun h => ⟨h.1, h.2.1, h.2.2.1, h.2.2.2.1, h.2.2.2.2⟩,
      fun h => ⟨h.metadata, h.spec, h.files, h.services, h.certificates⟩⟩

section Pushed

variable {parsed : ManifestYaml.Parsed} {entity : DeviceManifestEntity}

theorem accepts_desiredState (entity : DeviceManifestEntity) :
    (GoType.struct DeviceManifest.fields).accepts (desiredState entity) =
      ((GoType.struct ManifestMetadata.fields).accepts (.obj entity.metadata) &&
        ((GoType.struct ManifestSpec.fields).accepts (.obj entity.spec) &&
          inRange 64 entity.version)) := by
  simp [GoType.accepts, GoType.acceptsFields, DeviceManifest.fields, desiredState, targets]

theorem spec_store_desiredState (entity : DeviceManifestEntity) :
    (DeviceManifest.store (desiredState entity) .zero).spec =
      ManifestSpec.store (.obj entity.spec) .zero := by
  simp [DeviceManifest.store, storeField, DeviceManifest.fields, desiredState, targets, membersOf,
    DeviceManifest.zero]

theorem renderPairs_of_stored {pairs : List (YamlKey × Yaml)} {js : List (String × Json)}
    (h : ManifestYaml.stored pairs = some js) :
    ∃ members, Yaml.renderPairs pairs = some members ∧ jsonb members = js := by
  rw [ManifestYaml.stored] at h
  split_ifs at h
  exact Option.map_eq_some_iff.mp h

theorem render_of_stored {pairs : List (YamlKey × Yaml)} {js : List (String × Json)}
    (h : ManifestYaml.stored pairs = some js) : (Yaml.map pairs).render = some (.obj js) := by
  obtain ⟨members, hmembers, rfl⟩ := renderPairs_of_stored h
  rw [Yaml.render, hmembers]
  rfl

theorem rendered_of_stored {pairs : List (YamlKey × Yaml)} {js : List (String × Json)}
    (h : ManifestYaml.stored pairs = some js) : Yaml.Rendered (Yaml.members pairs) js := by
  obtain ⟨members, hmembers, rfl⟩ := renderPairs_of_stored h
  exact Yaml.rendered_members hmembers

/-- Whether the message is decoded depends on the types of the manifest alone. -/
theorem unmarshalManifest_desiredState (hversion : entity.version < 2 ^ 63)
    (hmetadata : ManifestYaml.stored parsed.metadata = some entity.metadata)
    (hspec : ManifestYaml.stored parsed.spec = some entity.spec) :
    unmarshalManifest (desiredState entity) =
      if (GoType.struct ManifestMetadata.fields).fits (.map parsed.metadata) &&
          (GoType.struct ManifestSpec.fields).fits (.map parsed.spec) then
        some (DeviceManifest.store (desiredState entity) .zero)
      else none := by
  have hrange : inRange 64 entity.version = true := by
    simp only [inRange, decide_eq_true_eq]
    omega
  rw [unmarshalManifest, accepts_desiredState, hrange, Bool.and_true,
    GoType.accepts_render _ (render_of_stored hmetadata),
    GoType.accepts_render _ (render_of_stored hspec)]

/-- The entries that the agent finds are those that the manifest lists. -/
theorem spec_desiredState (hspec : ManifestYaml.stored parsed.spec = some entity.spec)
    {files : GoSlice FileResource} {services : GoSlice ServiceResource}
    {certificates : GoSlice CertificateResource} (hfiles : filesOf parsed.spec = some files)
    (hservices : servicesOf parsed.spec = some services)
    (hcertificates : certificatesOf parsed.spec = some certificates) :
    let spec := (DeviceManifest.store (desiredState entity) .zero).spec
    spec.files = files ∧ spec.services = services ∧ spec.certificates = certificates := by
  have hms := rendered_of_stored hspec
  rw [spec_store_desiredState]
  exact ⟨storeField_of_given (readsAs_list readsAs_file) hms hfiles (Or.inl rfl),
    storeField_of_given (readsAs_list readsAs_service) hms hservices (Or.inl rfl),
    storeField_of_given (readsAs_list readsAs_certificate) hms hcertificates (Or.inl rfl)⟩

/-- **Manifests that the agent understands.** Whatever text is parsed and stored, the message that
the controller makes of it is understood exactly if the manifest conforms. -/
theorem understood_iff_conforms {load : String → Except String Yaml} {content : Option String}
    (_hparse : ManifestYaml.parse load content = .ok parsed)
    (hmetadata : ManifestYaml.stored parsed.metadata = some entity.metadata)
    (hspec : ManifestYaml.stored parsed.spec = some entity.spec)
    (hversion : entity.version < 2 ^ 63) :
    Understood parsed (desiredState entity) ↔ Conforms parsed := by
  have hdecode := unmarshalManifest_desiredState hversion hmetadata hspec
  constructor
  · rintro ⟨manifest, hmanifest, hfiles, hservices, hcertificates⟩
    rw [hdecode] at hmanifest
    split_ifs at hmanifest with hfits
    obtain ⟨hfitsMetadata, hfitsSpec⟩ := Bool.and_eq_true_iff.mp hfits
    exact ⟨hfitsMetadata, hfitsSpec, by simpa using congrArg Option.isSome hfiles,
      by simpa using congrArg Option.isSome hservices,
      by simpa using congrArg Option.isSome hcertificates⟩
  · intro h
    obtain ⟨files, hfiles⟩ := Option.isSome_iff_exists.mp h.files
    obtain ⟨services, hservices⟩ := Option.isSome_iff_exists.mp h.services
    obtain ⟨certificates, hcertificates⟩ := Option.isSome_iff_exists.mp h.certificates
    obtain ⟨hfilesEq, hservicesEq, hcertificatesEq⟩ :=
      spec_desiredState hspec hfiles hservices hcertificates
    refine ⟨DeviceManifest.store (desiredState entity) .zero, ?_, ?_, ?_, ?_⟩
    · rw [hdecode, h.metadata, h.spec]
      rfl
    · rw [hfiles, hfilesEq]
      rfl
    · rw [hservices, hservicesEq]
      rfl
    · rw [hcertificates, hcertificatesEq]
      rfl

end Pushed

/-! ### A file with its mode -/

section Mode

/-- A manifest with one file. -/
def fileText (mode : String) : String :=
  "metadata:\n  name: edge-1\nspec:\n  files:\n    - path: /etc/edge.yaml\n      mode: " ++ mode ++
    "\n"

/-- What stands under `metadata`. -/
def fileMetadata : List (YamlKey × Yaml) := [(.text "name", .str "edge-1")]

/-- What stands under `spec`, with the value that the mode is loaded as. -/
def fileSpec (mode : Yaml) : List (YamlKey × Yaml) :=
  [(.text "files", .seq [.map [(.text "path", .str "/etc/edge.yaml"), (.text "mode", mode)]])]

/-- SnakeYAML on this text. -/
def loadFile (mode : Yaml) : String → Except String Yaml := fun _ =>
  .ok (.map [(.text "metadata", .map fileMetadata), (.text "spec", .map (fileSpec mode))])

/-- The stored manifest, with the rendering of the mode. -/
def fileEntity (mode : Json) : DeviceManifestEntity where
  deviceId := "edge-1"
  organizationId := 1
  apiVersion := "edgeguardian/v1"
  kind := "DeviceManifest"
  metadata := [("name", .str "edge-1")]
  spec := [("files", .arr [.obj [("mode", mode), ("path", .str "/etc/edge.yaml")]])]
  version := 1

theorem parse_fileText {mode : Yaml} {text : String} (h : isBlank (fileText text) = false) :
    ManifestYaml.parse (loadFile mode) (some (fileText text)) =
      .ok ⟨fileMetadata, fileSpec mode⟩ := by
  simp [ManifestYaml.parse, Option.filter, h, loadFile, Yaml.get, ManifestYaml.asMap]

/-- In quotes the mode is a text, and the agent finds the file. -/
theorem understood_with_quoted_mode :
    ManifestYaml.parse (loadFile (.str "0644")) (some (fileText "\"0644\"")) =
      .ok ⟨fileMetadata, fileSpec (.str "0644")⟩ ∧
    Conforms ⟨fileMetadata, fileSpec (.str "0644")⟩ ∧
    Understood ⟨fileMetadata, fileSpec (.str "0644")⟩
      (desiredState (fileEntity (.str "0644"))) := by
  have hparse : ManifestYaml.parse (loadFile (.str "0644")) (some (fileText "\"0644\"")) =
      .ok ⟨fileMetadata, fileSpec (.str "0644")⟩ :=
    parse_fileText (by decide +kernel)
  have hconforms : Conforms ⟨fileMetadata, fileSpec (.str "0644")⟩ := by
    decide +kernel
  refine ⟨hparse, hconforms, (understood_iff_conforms hparse ?_ ?_ ?_).mpr hconforms⟩
  · decide +kernel
  · decide +kernel
  · decide

/-- Without quotes the mode is the number 420, and the message is refused. -/
theorem unquoted_mode_not_understood :
    ManifestYaml.parse (loadFile (.num 420 0)) (some (fileText "0644")) =
      .ok ⟨fileMetadata, fileSpec (.num 420 0)⟩ ∧
    ManifestYaml.stored fileMetadata = some (fileEntity (.num 420 0)).metadata ∧
    ManifestYaml.stored (fileSpec (.num 420 0)) = some (fileEntity (.num 420 0)).spec ∧
    unmarshalManifest (desiredState (fileEntity (.num 420 0))) = none ∧
    ¬ Understood ⟨fileMetadata, fileSpec (.num 420 0)⟩
      (desiredState (fileEntity (.num 420 0))) := by
  have hrefused : unmarshalManifest (desiredState (fileEntity (.num 420 0))) = none := by
    decide +kernel
  refine ⟨?_, ?_, ?_, hrefused, ?_⟩
  · exact parse_fileText (by decide +kernel)
  · decide +kernel
  · decide +kernel
  · rintro ⟨manifest, hmanifest, -⟩
    rw [hrefused] at hmanifest
    cases hmanifest

end Mode

end EdgeGuardian.ManifestContract
