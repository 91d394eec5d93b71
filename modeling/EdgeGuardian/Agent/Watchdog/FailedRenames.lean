import EdgeGuardian.Agent.Watchdog

/-!
# Renames of the watchdog that fail

`swapBinary` and `rollback` rename binaries one after the other, and each rename may fail even where
its source is there. A swap whose second rename fails is undone by a third one, which puts the
active binary back and leaves no backup; a rollback whose second rename fails is not undone.

Source: `agent/cmd/watchdog/main.go`, lines 170–208.

## Main definitions

* `Watchdog.SwapFaults`, `Watchdog.RollbackFaults`: which renames fail.
* `Watchdog.swapBinaryWith`, `Watchdog.rollbackWith`: the two functions with renames that may fail.
* `Watchdog.Kept`: the active binary and the backup are as they were.

## Main results

* `Watchdog.swapBinaryWith_none`, `Watchdog.rollbackWith_none`: without a failure, they are the
  functions of the main loop.
* `Watchdog.kept_of_error_iff`: when a failed swap and a failed rollback change nothing.
-/

namespace EdgeGuardian.Agent.Watchdog

/-- The renames of `swapBinary` that fail. -/
structure SwapFaults where
  backup : Bool
  swap : Bool
  /-- The rename that compensates. -/
  undo : Bool
deriving DecidableEq, Repr

/-- The renames of `rollback` that fail. -/
structure RollbackFaults where
  setAside : Bool
  restore : Bool
deriving DecidableEq, Repr

section Faults

variable {β : Type*}

/-- `os.Rename`, which may fail for other reasons than a missing source. -/
def renameWith (fails : Bool) (source target : Path) (files : Files β) : Option (Files β) :=
  if fails then none else rename source target files

/-- `swapBinary`. -/
def swapBinaryWith (faults : SwapFaults) (files : Files β) : Option SwapError × Files β :=
  if (files .staging).isNone then (some .stagingNotFound, files)
  else
    match renameWith faults.backup .agent .bak files with
    | none => (some .backup, files)
    | some backedUp =>
      match renameWith faults.swap .staging .agent backedUp with
      | none => (some .swap, (renameWith faults.undo .bak .agent backedUp).getD backedUp)
      | some swapped => (none, swapped)

/-- `rollback`. -/
def rollbackWith (faults : RollbackFaults) (files : Files β) : Option RollbackError × Files β :=
  if (files .bak).isNone then (some .noBackup, files)
  else
    let moved := (renameWith faults.setAside .agent .failed files).getD files
    match renameWith faults.restore .bak .agent moved with
    | none => (some .restore, moved)
    | some restored => (none, restored)

/-- The active binary and the backup are as they were. -/
def Kept (before after : Files β) : Prop :=
  after .agent = before .agent ∧ after .bak = before .bak

theorem swapBinaryWith_none (files : Files β) :
    swapBinaryWith ⟨false, false, false⟩ files = swapBinary files := rfl

theorem rollbackWith_none (files : Files β) : rollbackWith ⟨false, false⟩ files = rollback files :=
  rfl

/-! ### What a failure leaves -/

variable {files : Files β}

@[simp] theorem kept_refl (files : Files β) : Kept files files := ⟨rfl, rfl⟩

@[simp] theorem renameWith_true (source target : Path) (files : Files β) :
    renameWith true source target files = none := rfl

theorem renameWith_of_some {source : Path} {b : β} (target : Path) (h : files source = some b) :
    renameWith false source target files =
      some (Function.update (Function.update files source none) target (some b)) :=
  rename_of_some target h

theorem renameWith_of_none {source : Path} (fails : Bool) (target : Path)
    (h : files source = none) : renameWith fails source target files = none := by
  simp [renameWith, rename, h]

/-- A swap that is undone leaves the active binary, and no backup. -/
theorem swapBinaryWith_undone {active new : β} {faults : SwapFaults}
    (hstaging : files .staging = some new) (hagent : files .agent = some active)
    (hbackup : faults.backup = false) (hswap : faults.swap = true) (hundo : faults.undo = false) :
    (swapBinaryWith faults files).1 = some .swap ∧
      (swapBinaryWith faults files).2 .agent = some active ∧
      (swapBinaryWith faults files).2 .bak = none := by
  have hback : (Function.update (Function.update files Path.agent none) Path.bak (some active))
      Path.bak = some active := Function.update_self _ _ _
  have hundone : swapBinaryWith faults files = (some .swap, Function.update (Function.update
      (Function.update (Function.update files Path.agent none) Path.bak (some active))
      Path.bak none) Path.agent (some active)) := by
    simp only [swapBinaryWith, hstaging, Option.isNone_some, Bool.false_eq_true, if_false, hbackup,
      renameWith_of_some .bak hagent, hswap, renameWith_true, hundo,
      renameWith_of_some .agent hback, Option.getD_some]
  rw [hundone]
  simp

/-- A swap whose second rename succeeds has no error. -/
theorem swapBinaryWith_swapped {active new : β} {faults : SwapFaults}
    (hstaging : files .staging = some new) (hagent : files .agent = some active)
    (hbackup : faults.backup = false) (hswap : faults.swap = false) :
    (swapBinaryWith faults files).1 = none := by
  have hstill : (Function.update (Function.update files Path.agent none) Path.bak (some active))
      Path.staging = some new := by simp [hstaging]
  simp only [swapBinaryWith, hstaging, Option.isNone_some, Bool.false_eq_true, if_false,
    hbackup, renameWith_of_some .bak hagent, hswap, renameWith_of_some .agent hstill]

/-- If the rename that compensates succeeds, a swap that fails leaves the active binary and the
backup as they were, unless it is the second rename that fails and there was a backup. -/
theorem kept_of_swap_error_iff (faults : SwapFaults) (hundo : faults.undo = false) :
    ((swapBinaryWith faults files).1.isSome → Kept files (swapBinaryWith faults files).2) ↔
      ¬ ((files .staging).isSome ∧ (files .agent).isSome ∧ faults.backup = false ∧
        faults.swap = true ∧ (files .bak).isSome) := by
  rcases hstaging : files .staging with _ | new
  · simp [swapBinaryWith, hstaging]
  · rcases hagent : files .agent with _ | active
    · simp [swapBinaryWith, hstaging, renameWith_of_none faults.backup .bak hagent]
    · rcases hbackup : faults.backup with _ | _
      · rcases hswap : faults.swap with _ | _
        · simp [swapBinaryWith_swapped hstaging hagent hbackup hswap]
        · obtain ⟨herror, hactive, hbak⟩ :=
            swapBinaryWith_undone hstaging hagent hbackup hswap hundo
          rw [Kept, herror, hactive, hbak, hagent]
          rcases files .bak with _ | old
          · simp
          · simp
      · simp [swapBinaryWith, hstaging, hbackup]

/-- A rollback that fails leaves the active binary and the backup as they were, unless the active
binary has been set aside and the backup cannot be put in its place. -/
theorem kept_of_rollback_error_iff (faults : RollbackFaults) :
    ((rollbackWith faults files).1.isSome → Kept files (rollbackWith faults files).2) ↔
      ¬ ((files .bak).isSome ∧ (files .agent).isSome ∧ faults.setAside = false ∧
        faults.restore = true) := by
  rw [rollbackWith]
  rcases hbak : files .bak with _ | old
  · simp
  · rcases hagent : files .agent with _ | active
    · rcases faults.restore with _ | _
      · simp [renameWith_of_none faults.setAside .failed hagent, renameWith_of_some .agent hbak]
      · simp [renameWith_of_none faults.setAside .failed hagent]
    · rcases faults.setAside with _ | _
      · have hstill : (Function.update (Function.update files Path.agent none) Path.failed
            (some active)) Path.bak = some old := by simp [hbak]
        rcases faults.restore with _ | _
        · simp [renameWith_of_some .failed hagent, renameWith_of_some .agent hstill]
        · simp [renameWith_of_some .failed hagent, Kept, hagent]
      · rcases faults.restore with _ | _
        · simp [renameWith_of_some .agent hbak]
        · simp

end Faults

/-- **When a failure changes nothing.** A failed swap, if the rename that compensates succeeds,
leaves the active binary and the backup as they were if and only if not both the second rename
failed and there was a backup. A failed rollback does if and only if not both the active binary has
been set aside and the backup could not be put in its place. -/
theorem kept_of_error_iff {β : Type*} (files : Files β) (swapFaults : SwapFaults)
    (hundo : swapFaults.undo = false) (rollbackFaults : RollbackFaults) :
    (((swapBinaryWith swapFaults files).1.isSome →
          Kept files (swapBinaryWith swapFaults files).2) ↔
        ¬ ((files .staging).isSome ∧ (files .agent).isSome ∧ swapFaults.backup = false ∧
          swapFaults.swap = true ∧ (files .bak).isSome)) ∧
      (((rollbackWith rollbackFaults files).1.isSome →
          Kept files (rollbackWith rollbackFaults files).2) ↔
        ¬ ((files .bak).isSome ∧ (files .agent).isSome ∧ rollbackFaults.setAside = false ∧
          rollbackFaults.restore = true)) :=
  ⟨kept_of_swap_error_iff swapFaults hundo, kept_of_rollback_error_iff rollbackFaults⟩

/-- An active binary, a backup and a staged binary. -/
def threeBinaries : Files ℕ
  | .agent => some 2
  | .bak => some 1
  | .staging => some 3
  | .failed => none

/-- A swap whose first rename fails changes nothing, and so does a rollback that cannot set the
active binary aside. -/
theorem kept_threeBinaries :
    Kept threeBinaries (swapBinaryWith ⟨true, true, false⟩ threeBinaries).2 ∧
      Kept threeBinaries (rollbackWith ⟨true, true⟩ threeBinaries).2 := by
  obtain ⟨hswap, hrollback⟩ :=
    kept_of_error_iff threeBinaries ⟨true, true, false⟩ rfl ⟨true, true⟩
  exact ⟨hswap.mpr (by simp) rfl, hrollback.mpr (by simp) rfl⟩

/-- A swap that is undone loses the backup, and a rollback whose second rename fails the active
binary. -/
theorem not_kept_threeBinaries :
    (¬ ∀ (files : Files ℕ) (faults : SwapFaults), faults.undo = false →
        (swapBinaryWith faults files).1.isSome → Kept files (swapBinaryWith faults files).2) ∧
      ¬ ∀ (files : Files ℕ) (faults : RollbackFaults),
        (rollbackWith faults files).1.isSome → Kept files (rollbackWith faults files).2 := by
  constructor
  · intro h
    have hkept := h threeBinaries ⟨false, true, false⟩ rfl rfl
    exact absurd hkept.2 (by decide)
  · intro h
    have hkept := h threeBinaries ⟨false, true⟩ rfl
    exact absurd hkept.1 (by decide)

end EdgeGuardian.Agent.Watchdog
