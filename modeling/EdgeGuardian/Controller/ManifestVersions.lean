import EdgeGuardian.Controller.Manifests
import EdgeGuardian.Lib.SharedRow

/-!
# Versions of a manifest that is saved by several operators at once

A save reads the manifest of the device, counts its version up in memory and saves the whole row;
the first save inserts the row with version 1. The table has a unique key on the device, and no
column that is checked on update. Two saves that have read the same row therefore save the same
version with their own contents, and the agent, which is sent a manifest only if its version is
higher than its own, keeps the contents that it got first.

Source: `service/DeviceRegistry.java`, `model/DeviceManifestEntity.java`,
`mqtt/HeartbeatListener.java` under `controller/src/main/java/com/edgeguardian/controller/`.

## Main definitions

* `ManifestSave`: one call of `saveManifest` for the device.
* `VersionsIdentify`: a version stands for one content, and counts the saves.

## Main results

* `row_of_saveManifest`: a save that runs alone does what the sequential model says.
* `manifest_versions_identify_contents`: when versions identify contents, in every interleaving.
-/

namespace EdgeGuardian.Controller

open Transition SharedRow

/-- One call of `saveManifest` for the device: its row, as the call finds it, and the content. -/
structure ManifestSave where
  device : Option Device
  metadata : List (String × Json)
  spec : List (String × Json)
deriving DecidableEq

/-- The transaction of a call. A row needs a device. -/
def ManifestSave.program (call : ManifestSave) : Program DeviceManifestEntity :=
  fun _ _ existing =>
    call.device.map fun device => savedManifest device call.metadata call.spec existing

/-- The version of a manifest row that is stored, 0 where there is none. -/
abbrev storedVersion : Option DeviceManifestEntity → ℕ := numberOf DeviceManifestEntity.version

/-- The rows that were ever committed. -/
def committedManifests {ι : Type*} (s₀ s : State ι DeviceManifestEntity) :
    List DeviceManifestEntity :=
  s₀.row.toList ++ s.log.map fun e => e.2.row

/-- Rows that were committed with the same version have the same content, and the stored version has
grown by one for each committed save. -/
structure VersionsIdentify {ι : Type*} (s₀ s : State ι DeviceManifestEntity) : Prop where
  contents : ∀ m ∈ committedManifests s₀ s, ∀ m' ∈ committedManifests s₀ s,
    m.version = m'.version → m.metadata = m'.metadata ∧ m.spec = m'.spec
  counts : storedVersion s.row = storedVersion s₀.row + s.log.length

section Saves

variable {ι : Type*} {s₀ s : State ι DeviceManifestEntity}

/-- A save that runs alone. -/
theorem row_of_saveManifest [DecidableEq ι] {calls : ι → ManifestSave} {i : ι} {db db' : Db}
    {deviceId : String} {entity : DeviceManifestEntity} {clock : ℕ}
    (hdevice : (calls i).device = db.devices.find? deviceId)
    (h : (saveManifest deviceId (calls i).metadata (calls i).spec).run db = .ok (entity, db')) :
    (exec (SharedRow.step fun i => (calls i).program)
      (.start clock (db.manifests.find? deviceId))
      [.start i, .read i, .compute i, .write i, .commit i]).map State.row =
        some (db'.manifests.find? deviceId) := by
  obtain ⟨device, hfind, -, rfl, rfl⟩ := saveManifest_run_eq_ok.mp h
  have hsaved : (db.manifests.save (savedManifest device (calls i).metadata (calls i).spec
      (db.manifests.find? deviceId))).find? deviceId = some (savedManifest device
        (calls i).metadata (calls i).spec (db.manifests.find? deviceId)) := by
    rw [Table.find?_save, deviceId_savedManifest hfind, if_pos rfl]
  rw [hsaved]
  refine row_of_exec_alone (fun i => (calls i).program) ?_
  rw [ManifestSave.program, hdevice, hfind, Option.map_some]

/-- Every save counts the version up that it has read. -/
theorem ManifestSave.numbering (calls : ι → ManifestSave) :
    Numbering (fun i => (calls i).program) DeviceManifestEntity.version := by
  refine ⟨fun {i began now copy row} h => ?_⟩
  obtain ⟨device, -, rfl⟩ := Option.map_eq_some_iff.mp h
  cases copy <;> rfl

theorem some_mem_history {m : DeviceManifestEntity} (h : m ∈ committedManifests s₀ s) :
    some m ∈ history s₀.row s.log := by
  rcases List.mem_append.mp h with hm | hm
  · rw [Option.mem_toList.mp hm]
    exact List.mem_cons_self
  · obtain ⟨e, he, rfl⟩ := List.mem_map.mp hm
    exact List.mem_cons_of_mem _ (List.mem_map_of_mem he)

/-- Versions that number the history identify contents. -/
theorem VersionsIdentify.of_numbered {prog : ι → Program DeviceManifestEntity}
    (hsound : Sound prog s₀.row s) (h : Numbered DeviceManifestEntity.version s₀.row s) :
    VersionsIdentify s₀ s := by
  refine ⟨fun m hm m' hm' heq => ?_, h.numberOf_row hsound⟩
  have hsame : some m = some m' :=
    h.eq_of_numberOf_eq (some_mem_history hm) (some_mem_history hm') heq
  rw [Option.some.inj hsame]
  exact ⟨rfl, rfl⟩

end Saves

/-- **Versions of a manifest identify its contents.** In every interleaving of any number of saves
in which a save commits only over the version that it has read, rows that were committed with the
same version have the same content, and the stored version counts the committed saves; and a commit
over another version breaks this. -/
theorem manifest_versions_identify_contents {ι : Type*} [DecidableEq ι] {calls : ι → ManifestSave}
    {s₀ s : State ι DeviceManifestEntity} (h₀ : Starting s₀)
    (h : Reaches (SharedRow.step fun i => (calls i).program)
      (fun s a => SharedRow.current DeviceManifestEntity.version s a = true) s₀ s) :
    VersionsIdentify s₀ s ∧ ∀ a t, SharedRow.step (fun i => (calls i).program) s a = some t →
      (VersionsIdentify s₀ t ↔ SharedRow.current DeviceManifestEntity.version s a = true) := by
  have hnumbering := ManifestSave.numbering calls
  have hsound : Sound (fun i => (calls i).program) s₀.row s :=
    SharedRow.sound_of_reaches h₀ h
  have hs := numbered_of_reaches hnumbering h₀ h
  refine ⟨.of_numbered hsound hs, fun a t hstep => ⟨fun hidentify => ?_, fun hok => ?_⟩⟩
  · by_contra hbad
    rw [Bool.not_eq_true] at hbad
    exact not_numbered_of_not_current hnumbering hsound hs hbad hstep hidentify.counts
  · exact .of_numbered (hsound.step hstep) (hs.step hnumbering hsound hok hstep)

/-! ### Two operators -/

namespace TwoOperators

/-- The device whose manifest is saved. -/
def device : Device where
  deviceId := "rpi-1"
  organizationId := 1
  hostname := none
  architecture := some "arm64"
  os := some "linux"
  agentVersion := none
  state := .online
  labels := []
  registeredAt := 3
  lastHeartbeat := some 3
  autoUpdate := none

/-- The manifest is created empty, and then saved with two different contents. -/
def saves : ℕ → ManifestSave
  | 0 => ⟨some device, [], []⟩
  | 1 => ⟨some device, [], [("files", .arr [])]⟩
  | _ => ⟨some device, [], [("services", .arr [])]⟩

/-- A save from its first statement to its commit. -/
def alone (i : ℕ) : List (Action ℕ) :=
  [.start i, .read i, .compute i, .write i, .commit i]

/-- The two later saves both read the row before one of them commits. -/
def overlapping : List (Action ℕ) :=
  alone 0 ++ [.start 1, .read 1] ++ alone 2 ++ [.compute 1, .write 1, .commit 1]

end TwoOperators

open TwoOperators in
/-- Saves one after the other. -/
theorem manifest_versions_identify_contents_of_three :
    ∃ s, (Reaches (SharedRow.step fun i => (saves i).program)
        (fun s a => SharedRow.current DeviceManifestEntity.version s a = true) (.start 5 none) s ∧
          s.log.length = 3) ∧ VersionsIdentify (.start 5 none) s := by
  obtain ⟨s, hs⟩ : ∃ s, Reaches (SharedRow.step fun i => (saves i).program)
      (fun s a => SharedRow.current DeviceManifestEntity.version s a = true) (.start 5 none) s ∧
        s.log.length = 3 :=
    exists_reaches_of_execBy (alone 0 ++ alone 1 ++ alone 2) (by decide +kernel)
  exact ⟨s, hs, (manifest_versions_identify_contents (starting_start 5 none) hs.1).1⟩

open TwoOperators in
/-- Two saves that have read version 1 both commit version 2, with different contents. -/
theorem two_contents_with_one_version :
    ¬ ∀ s, Reachable (SharedRow.step fun i => (saves i).program) (.start 5 none) s →
      VersionsIdentify (.start 5 none) s := by
  intro hall
  obtain ⟨s, hreach, m, hm, m', hm', hversion, hspec⟩ :
      ∃ s, Reachable (SharedRow.step fun i => (saves i).program) (.start 5 none) s ∧
        ∃ m ∈ committedManifests (.start 5 none) s, ∃ m' ∈ committedManifests (.start 5 none) s,
          m.version = m'.version ∧ m.spec ≠ m'.spec :=
    exists_reaches_of_execBy overlapping (by decide +kernel)
  exact hspec ((hall s hreach).contents m hm m' hm' hversion).2

end EdgeGuardian.Controller
