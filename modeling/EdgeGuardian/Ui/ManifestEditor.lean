import EdgeGuardian.Controller.DeviceConfinement
import EdgeGuardian.Controller.ManifestText
import EdgeGuardian.Lib.Transition

/-!
# The editor for a manifest

Two pages have an editor for the manifest of a device. The page keeps the manifest that the API has
last returned and, once something has been typed, the text in the editor. A save sends the text that
was typed, or the manifest that was returned where nothing was typed since the last save; the editor
itself is given the manifest only when it is put on the page. Hence a save may send a text that the
editor does not show: on the page of the manifest, because Ctrl+S also saves what was not changed;
on the page of the device, because the editor is put on the page anew with every change of the tab.
Both pages take the editor away while the manifest is fetched for the first time, also where one can
have typed before: when that was not possible yet, or has failed, and is tried again.

Requests may be on their way in any number, and the API handles them in any order. Other clients
change the database meanwhile. When a save has succeeded, the manifest is fetched again, and what is
still on its way from before is dropped. Whether a save is still on its way, which disables the
button, is left open.

Source: `ui/app/(dashboard)/devices/[id]/manifest/page.tsx`,
`ui/app/(dashboard)/devices/[id]/page.tsx`, `ui/components/ui/tabs.tsx`, `ui/lib/api/devices.ts`.

## Main definitions

* `ManifestEditor.Editor`, `ManifestEditor.step`: a page, the API and the messages between them.
* `ManifestEditor.LoadsUntyped`, `ManifestEditor.Careful`: a user who does not run into the
  difference.

## Main results

* `ManifestEditor.stepped_of_step`: what a step does.
* `ManifestEditor.press_manifestPage`: what Ctrl+S sends on the page of the manifest, and what
  it stores.
* `ManifestEditor.puts_shown`: what a careful user saves is what the editor shows.
-/

namespace EdgeGuardian.Ui.ManifestEditor

open Controller Transition

/-! ### The pages -/

inductive Page
  | manifest
  | device
deriving DecidableEq, Repr

/-- A manifest that the API has returned, and the database from which it was read. -/
structure Answer where
  text : String
  db : Db

/-- The state of a page. -/
structure Editor where
  /-- The data of the query, `manifest`. -/
  cached : Option Answer
  editorValue : Option String
  /-- What the editor shows, while it is on the page. -/
  shown : Option String

namespace Editor

def initialYaml (e : Editor) : String := (e.cached.map Answer.text).getD ""

def currentValue (e : Editor) : String := e.editorValue.getD e.initialYaml

/-- `hasChanges`, `hasManifestChanges`. -/
def hasChanges (e : Editor) : Bool := e.editorValue ≠ none ∧ e.editorValue ≠ some e.initialYaml

end Editor

/-- Ctrl+S saves. -/
def Page.saves (e : Editor) : Page → Bool
  | .manifest => e.currentValue ≠ ""
  | .device => e.hasChanges && e.currentValue ≠ ""

/-- The button saves. -/
def Page.clickSaves (e : Editor) : Page → Bool
  | .manifest => e.hasChanges && e.currentValue ≠ ""
  | .device => e.hasChanges

/-! ### The page and the API -/

/-- A save on its way, and what the editor showed when it was sent. -/
structure Put where
  text : String
  shown : Option String
deriving DecidableEq, Repr

structure State where
  db : Db
  editor : Editor
  /-- Manifests on their way to the page. -/
  answers : List Answer
  /-- Saves on their way to the API. -/
  puts : List Put
  /-- Whether they have succeeded, on the way to the page. -/
  results : List Bool

def State.initial (db : Db) : State := ⟨db, ⟨none, none, none⟩, [], [], []⟩

inductive Action
  /-- The API returns the manifest. -/
  | answer
  /-- The page receives it. -/
  | arrive (i : ℕ)
  /-- The editor is put on the page. -/
  | mount
  /-- Another tab is chosen. -/
  | unmount
  /-- The page has no manifest and fetches it, for the first time or again, `isLoading`. -/
  | load
  | typed (text : String)
  /-- Ctrl+S. -/
  | press
  /-- The button. -/
  | click
  /-- The API handles a save. -/
  | applied (i : ℕ)
  /-- The page learns what has become of a save. -/
  | responded (i : ℕ)
  /-- Anything else changes the database. -/
  | world (db : Db)

/-- The page sends what it takes for the manifest. -/
def State.save (s : State) : State :=
  { s with puts := s.puts ++ [⟨s.editor.currentValue, s.editor.shown⟩] }

section Step

variable (texts : ManifestTexts) (page : Page) (deviceId : String) (principal : TenantPrincipal)

def step (s : State) : Action → Option State
  | .answer =>
    match getManifest texts deviceId principal s.db with
    | .ok text => some { s with answers := s.answers ++ [⟨text, s.db⟩] }
    | .error _ => none
  | .arrive i => s.answers[i]?.map fun a =>
    { s with editor := { s.editor with cached := some a }, answers := s.answers.eraseIdx i }
  | .mount =>
    if s.editor.shown = none then
      some { s with editor := { s.editor with shown := some s.editor.initialYaml } }
    else none
  | .unmount =>
    if page = .device then some { s with editor := { s.editor with shown := none } } else none
  | .load =>
    -- a skeleton takes the place of the editor, and the typed text stays with the page
    if s.editor.cached.isNone then some { s with editor := { s.editor with shown := none } }
    else none
  | .typed text =>
    if s.editor.shown = none then none
    else some { s with editor := { s.editor with editorValue := some text, shown := some text } }
  | .press => if page.saves s.editor then some s.save else none
  | .click => if page.clickSaves s.editor then some s.save else none
  | .applied i => s.puts[i]?.map fun p =>
    match (updateManifestText texts principal deviceId (some p.text)).run s.db with
    | .ok (_, db) =>
      { s with db := db, puts := s.puts.eraseIdx i, results := s.results ++ [true] }
    | .error _ => { s with puts := s.puts.eraseIdx i, results := s.results ++ [false] }
  | .responded i => s.results[i]?.map fun succeeded =>
    if succeeded then
      -- `onSuccess`: the manifest is fetched again, and the typed text is given up
      { s with editor := { s.editor with editorValue := none }, answers := []
               results := s.results.eraseIdx i }
    else { s with results := s.results.eraseIdx i }
  | .world db => some { s with db := db }

/-- Other clients change the manifests through the API only. -/
def Allowed (s : State) : Action → Prop
  | .world db => ManifestStep texts s.db db
  | _ => True

/-- The first manifest is not fetched again when something was typed that is not saved. -/
def LoadsUntyped (s : State) : Action → Prop
  | .load => s.editor.editorValue = none
  | _ => True

/-- The steps, each with what it needs. -/
inductive Stepped (s : State) : Action → State → Prop
  | answer {text : String} (hget : getManifest texts deviceId principal s.db = .ok text) :
      Stepped s .answer { s with answers := s.answers ++ [⟨text, s.db⟩] }
  | arrive {i : ℕ} {answer : Answer} (hanswer : s.answers[i]? = some answer) :
      Stepped s (.arrive i)
        { s with editor := { s.editor with cached := some answer }
                 answers := s.answers.eraseIdx i }
  | mount (hshown : s.editor.shown = none) :
      Stepped s .mount { s with editor := { s.editor with shown := some s.editor.initialYaml } }
  | unmount (hpage : page = .device) :
      Stepped s .unmount { s with editor := { s.editor with shown := none } }
  | load (hcached : s.editor.cached.isNone) :
      Stepped s .load { s with editor := { s.editor with shown := none } }
  | typed {text : String} : Stepped s (.typed text)
      { s with editor := { s.editor with editorValue := some text, shown := some text } }
  | press (hsaves : page.saves s.editor) : Stepped s .press s.save
  | click (hsaves : page.clickSaves s.editor) : Stepped s .click s.save
  | stored {i : ℕ} {p : Put} {db : Db} (hp : s.puts[i]? = some p)
      (hrun : (updateManifestText texts principal deviceId (some p.text)).run s.db = .ok ((), db)) :
      Stepped s (.applied i)
        { s with db := db, puts := s.puts.eraseIdx i, results := s.results ++ [true] }
  | refused {i : ℕ} : Stepped s (.applied i)
      { s with puts := s.puts.eraseIdx i, results := s.results ++ [false] }
  | succeeded {i : ℕ} : Stepped s (.responded i)
      { s with editor := { s.editor with editorValue := none }, answers := []
               results := s.results.eraseIdx i }
  | failed {i : ℕ} : Stepped s (.responded i) { s with results := s.results.eraseIdx i }
  | world {db : Db} : Stepped s (.world db) { s with db := db }

variable {texts page deviceId principal} in
/-- **What a step does.** -/
theorem stepped_of_step {s t : State} {a : Action}
    (h : step texts page deviceId principal s a = some t) :
    Stepped texts page deviceId principal s a t := by
  cases a with
  | answer =>
    simp only [step] at h
    split at h
    · next text hget =>
      cases h
      exact .answer hget
    · cases h
  | arrive i =>
    obtain ⟨answer, hanswer, rfl⟩ := Option.map_eq_some_iff.mp h
    exact .arrive hanswer
  | mount =>
    simp only [step] at h
    split_ifs at h with hshown
    cases h
    exact .mount hshown
  | unmount =>
    simp only [step] at h
    split_ifs at h with hpage
    cases h
    exact .unmount hpage
  | load =>
    simp only [step] at h
    split_ifs at h with hcached
    cases h
    exact .load hcached
  | typed text =>
    simp only [step] at h
    split_ifs at h
    cases h
    exact .typed
  | press =>
    simp only [step] at h
    split_ifs at h with hsaves
    cases h
    exact .press hsaves
  | click =>
    simp only [step] at h
    split_ifs at h with hsaves
    cases h
    exact .click hsaves
  | applied i =>
    obtain ⟨p, hp, rfl⟩ := Option.map_eq_some_iff.mp h
    split
    · next db hrun => exact .stored hp hrun
    · exact .refused
  | responded i =>
    obtain ⟨succeeded, -, rfl⟩ := Option.map_eq_some_iff.mp h
    cases succeeded with
    | true => exact .succeeded
    | false => exact .failed
  | world db =>
    cases h
    exact .world

end Step

section Runs

variable {texts : ManifestTexts} {page : Page} {deviceId : String} {principal : TenantPrincipal}
  {db₀ : Db} {s t : State} {a : Action}

/-! ### What the page has been given -/

/-- The answer was read from the database at an earlier time. -/
structure Given (texts : ManifestTexts) (deviceId : String) (principal : TenantPrincipal)
    (db₀ db : Db) (answer : Answer) : Prop where
  reaches : Relation.ReflTransGen (ManifestStep texts) db₀ answer.db
  get : getManifest texts deviceId principal answer.db = .ok answer.text
  later : Relation.ReflTransGen (ManifestStep texts) answer.db db

theorem Given.step {db db' : Db} {answer : Answer}
    (h : Given texts deviceId principal db₀ db answer) (hstep : ManifestStep texts db db') :
    Given texts deviceId principal db₀ db' answer :=
  ⟨h.reaches, h.get, h.later.tail hstep⟩

/-- The invariant: the manifests that the page has, or that are on their way to it, were read from
the database. -/
structure Inv (texts : ManifestTexts) (deviceId : String) (principal : TenantPrincipal) (db₀ : Db)
    (s : State) : Prop where
  reaches : Relation.ReflTransGen (ManifestStep texts) db₀ s.db
  answers : ∀ answer ∈ s.answers, Given texts deviceId principal db₀ s.db answer
  cached : ∀ answer, s.editor.cached = some answer → Given texts deviceId principal db₀ s.db answer

theorem inv_initial : Inv texts deviceId principal db₀ (.initial db₀) :=
  ⟨.refl, nofun, nofun⟩

/-- The database goes on. -/
theorem Inv.withDb (h : Inv texts deviceId principal db₀ s) (hstep : ManifestStep texts s.db t.db)
    (hanswers : t.answers = s.answers) (hcached : t.editor.cached = s.editor.cached) :
    Inv texts deviceId principal db₀ t where
  reaches := h.reaches.tail hstep
  answers := by
    intro answer hmem
    rw [hanswers] at hmem
    exact (h.answers answer hmem).step hstep
  cached := by
    intro answer hanswer
    rw [hcached] at hanswer
    exact (h.cached answer hanswer).step hstep

theorem Inv.step (h : Inv texts deviceId principal db₀ s) (hok : Allowed texts s a)
    (hstep : step texts page deviceId principal s a = some t) :
    Inv texts deviceId principal db₀ t := by
  cases stepped_of_step hstep with
  | answer hget =>
    refine ⟨h.reaches, List.forall_mem_append.mpr ⟨h.answers, ?_⟩, h.cached⟩
    exact List.forall_mem_singleton.mpr ⟨h.reaches, hget, .refl⟩
  | arrive hanswer =>
    refine ⟨h.reaches, fun answer hmem => h.answers answer (List.mem_of_mem_eraseIdx hmem), ?_⟩
    rintro answer ⟨⟩
    exact h.answers _ (List.mem_of_getElem? hanswer)
  | stored _ hrun => exact h.withDb (.updated hrun) rfl rfl
  | succeeded => exact ⟨h.reaches, nofun, h.cached⟩
  | world => exact h.withDb hok rfl rfl
  | mount | unmount | load | typed | press | click | refused | failed =>
    exact ⟨h.reaches, h.answers, h.cached⟩

theorem inv_of_reaches (h : Reaches (step texts page deviceId principal)
      (fun s a => Allowed texts s a ∧ LoadsUntyped s a) (.initial db₀) s) :
    Inv texts deviceId principal db₀ s :=
  h.invariant _ (fun hs hok hstep => hs.step hok.1 hstep) inv_initial

/-! ### What is shown -/

/-- What was typed and not saved is what the editor shows. -/
def Kept (s : State) : Prop :=
  ∀ text, s.editor.editorValue = some text → s.editor.shown = some text

/-- The editor is taken away only where nothing typed is left behind. -/
theorem Kept.step (h : Kept s) (hunmount : a = .unmount → s.editor.editorValue = none)
    (hload : LoadsUntyped s a)
    (hstep : ManifestEditor.step texts page deviceId principal s a = some t) : Kept t := by
  intro text htext
  cases stepped_of_step hstep with
  | mount hshown =>
    rw [h text htext] at hshown
    cases hshown
  | unmount =>
    rw [hunmount rfl] at htext
    cases htext
  | load =>
    rw [show s.editor.editorValue = none from hload] at htext
    cases htext
  | typed => exact htext
  | succeeded => cases htext
  | answer | arrive | press | click | stored | refused | failed | world => exact h text htext

/-- Nothing is left behind on the page of the manifest, which has no tabs. -/
theorem kept_of_reaches (h : Reaches (step texts .manifest deviceId principal)
      (fun s a => Allowed texts s a ∧ LoadsUntyped s a) (.initial db₀) s) : Kept s := by
  refine h.invariant Kept (fun {s a t} hs hok hstep => hs.step ?_ hok.2 hstep) nofun
  rintro rfl
  simp [step] at hstep

/-- What a careful user does: on the page of the manifest, Ctrl+S only after something was typed or
where the manifest is shown; on the page of the device, no change of the tab with a text that is not
saved; on both, nothing typed and not saved when the first manifest is fetched. -/
def Careful (s : State) : Action → Prop
  | .press => s.editor.editorValue ≠ none ∨ s.editor.shown = some s.editor.initialYaml
  | .unmount | .load => s.editor.editorValue = none
  | _ => True

end Runs

/-! ### Runs on a new device -/

namespace NewDevice

def skeletonText : String :=
  "apiVersion: edgeguardian/v1\nkind: DeviceManifest\nmetadata:\n  name: d\nspec:\n  files: []\n" ++
    "  services: []\n"

def typedText : String := "metadata:\n  name: d\nspec:\n  services:\n  - name: nginx\n"

/-- What is loaded from the text that is typed. -/
def typedRoot : Yaml :=
  .map [(.text "metadata", .map [(.text "name", .str "d")]),
    (.text "spec", .map [(.text "services", .seq [.map [(.text "name", .str "nginx")]])])]

/-- SnakeYAML on the two texts. -/
def texts : ManifestTexts where
  load text :=
    if text = skeletonText then .ok (ManifestYaml.skeletonRoot true "d")
    else if text = typedText then .ok typedRoot
    else .error "while scanning"
  dump _ := skeletonText
  filesFirst := true

def principal : TenantPrincipal := ⟨1, 1⟩

/-- A text is typed over the skeleton. -/
def typing : List Action := [.answer, .arrive 0, .mount, .typed typedText]

def typed : Option State :=
  exec (step texts .device "d" principal) (.initial ForgedRequest.devices) typing

/-- It is saved, and the manifest has not been fetched again. -/
def saved : Option State :=
  exec (step texts .manifest "d" principal) (.initial ForgedRequest.devices)
    (typing ++ [.press, .applied 0, .responded 0])

theorem reaches_of_typed {s : State} (h : typed = some s) :
    Reaches (step texts .device "d" principal) (fun s a => Allowed texts s a ∧ Careful s a)
      (.initial ForgedRequest.devices) s := by
  refine reaches_of_exec (fun a ha s => ?_) h
  simp only [typing, List.mem_cons, List.not_mem_nil, or_false] at ha
  rcases ha with rfl | rfl | rfl | rfl <;> exact ⟨trivial, trivial⟩

end NewDevice

end EdgeGuardian.Ui.ManifestEditor
