import Mathlib.Data.List.Basic
import Mathlib.Logic.Function.Basic

/-!
# Files that are replaced through a temporary file

A file store maps paths to contents. A file is replaced by writing its new contents to a temporary
file, piece by piece, and renaming that file over it. The rename is one operation, so that a process
that stops at any point leaves each file as it was or with its new contents, and only the temporary
files in between.

## Main definitions

* `FileStore.Op`, `FileStore.run`: operations on files.
* `FileStore.Write`, `FileStore.Write.ops`: one replacement, and its operations.
* `FileStore.overwrite`: what a list of replacements does if nothing stops it.
* `FileStore.completed`: how many replacements are complete after `n` operations.

## Main results

* `FileStore.run_take_flatMap_ops`: after any number of operations of a list of replacements, the
  files other than the temporary ones are as the complete replacements leave them.
-/

namespace FileStore

variable {P C : Type*} [DecidableEq P]

/-- An operation on files. -/
inductive Op (P C : Type*)
  /-- The file holds these contents, after it was created or written to. -/
  | write (path : P) (contents : C)
  | rename (source target : P)

/-- The files after an operation. -/
def Op.apply : Op P C → (P → Option C) → P → Option C
  | .write path contents, files => Function.update files path (some contents)
  | .rename source target, files =>
    match files source with
    | none => files
    | some contents => Function.update (Function.update files source none) target (some contents)

/-- The files after some operations. -/
def run (ops : List (Op P C)) (files : P → Option C) : P → Option C :=
  ops.foldl (fun files op => op.apply files) files

/-- The replacement of a file through a temporary one, which holds the `partials` in turn before it
holds the new contents. -/
structure Write (P C : Type*) where
  tmp : P
  target : P
  partials : List C
  contents : C

/-- The operations of a replacement. -/
def Write.ops (w : Write P C) : List (Op P C) :=
  w.partials.map (.write w.tmp) ++ [.write w.tmp w.contents, .rename w.tmp w.target]

/-- The files after some replacements, each in one piece. -/
def overwrite (ws : List (Write P C)) (files : P → Option C) : P → Option C :=
  ws.foldl (fun files w => Function.update files w.target (some w.contents)) files

/-- The number of replacements that are complete after `n` operations. -/
def completed : List (Write P C) → ℕ → ℕ
  | [], _ => 0
  | w :: ws, n => if n < w.ops.length then 0 else completed ws (n - w.ops.length) + 1

theorem run_append (ops ops' : List (Op P C)) (files : P → Option C) :
    run (ops ++ ops') files = run ops' (run ops files) :=
  List.foldl_append

/-- Writing to a temporary file leaves every other file as it is. -/
theorem run_writes_of_ne {tmp q : P} (hq : q ≠ tmp) (pieces : List C) (files : P → Option C) :
    run (pieces.map (.write tmp)) files q = files q := by
  induction pieces generalizing files with
  | nil => rfl
  | cons piece pieces ih =>
    have hstep : run ((piece :: pieces).map (.write tmp)) files =
        run (pieces.map (.write tmp)) (Function.update files tmp (some piece)) := rfl
    rw [hstep, ih, Function.update_of_ne hq]

/-- A replacement that is complete has put the new contents in place. -/
theorem run_ops (w : Write P C) (files : P → Option C) {q : P} (hq : q ≠ w.tmp) :
    run w.ops files q = overwrite [w] files q := by
  have hops : run w.ops files = Function.update (Function.update
      (Function.update (run (w.partials.map (.write w.tmp)) files) w.tmp (some w.contents))
      w.tmp none) w.target (some w.contents) := by
    rw [Write.ops, run_append]
    simp [run, Op.apply]
  rw [hops]
  by_cases htarget : q = w.target
  · subst htarget
    simp [overwrite]
  · simp [overwrite, Function.update_of_ne htarget, Function.update_of_ne hq,
      run_writes_of_ne hq]

/-- A replacement that is not complete has changed the temporary file only. -/
theorem run_take_ops (w : Write P C) {n : ℕ} (hn : n < w.ops.length) (files : P → Option C) {q : P}
    (hq : q ≠ w.tmp) : run (w.ops.take n) files q = files q := by
  have hops : w.ops = (w.partials ++ [w.contents]).map (.write w.tmp) ++
      [.rename w.tmp w.target] := by simp [Write.ops]
  have hle : n ≤ ((w.partials ++ [w.contents]).map (Op.write (P := P) w.tmp)).length := by
    rw [hops, List.length_append] at hn
    simp only [List.length_singleton] at hn
    omega
  rw [hops, List.take_append_of_le_length hle, ← List.map_take]
  exact run_writes_of_ne hq _ _

theorem overwrite_congr {ws : List (Write P C)} {files files' : P → Option C} {q : P}
    (h : files q = files' q) : overwrite ws files q = overwrite ws files' q := by
  induction ws generalizing files files' with
  | nil => exact h
  | cons w ws ih =>
    refine ih ?_
    by_cases hq : q = w.target
    · subst hq
      simp
    · simp [Function.update_of_ne hq, h]

/-- **Stopping at any point.** After the first `n` operations of a list of replacements, every file
that is no temporary one is as the complete replacements leave it. -/
theorem run_take_flatMap_ops (ws : List (Write P C)) (n : ℕ) (files : P → Option C) {q : P}
    (hq : ∀ w ∈ ws, q ≠ w.tmp) :
    run ((ws.flatMap Write.ops).take n) files q =
      overwrite (ws.take (completed ws n)) files q := by
  induction ws generalizing n files with
  | nil => simp [run, overwrite]
  | cons w ws ih =>
    have hw : q ≠ w.tmp := hq w List.mem_cons_self
    rw [List.flatMap_cons, completed]
    split_ifs with hn
    · rw [List.take_append_of_le_length (Nat.le_of_lt hn), run_take_ops w hn files hw]
      rfl
    · -- The first replacement is complete, and the rest goes on from what it leaves.
      rw [List.take_append, List.take_of_length_le (by omega), run_append,
        ih _ _ fun w' hw' => hq w' (List.mem_cons_of_mem w hw')]
      exact overwrite_congr (run_ops w files hw)

omit [DecidableEq P] in
theorem completed_le (ws : List (Write P C)) (n : ℕ) : completed ws n ≤ ws.length := by
  induction ws generalizing n with
  | nil => exact Nat.le_refl 0
  | cons w ws ih =>
    rw [completed, List.length_cons]
    split_ifs
    · omega
    · have := ih (n - w.ops.length)
      omega

end FileStore
