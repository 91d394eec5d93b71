import Mathlib.Data.List.Basic
import Mathlib.Logic.Function.Basic

/-!
# A path that several writers open

A path names a file, or no file. To create the file at a path that names one truncates that file, so
that whoever has it open writes into the same file; after the file is removed, whoever has it open
writes into a file that has no name. Every writer has an offset of its own, and a write behind the
end of the file fills the gap.

## Main definitions

* `SharedFile.Disk`: the path, and the contents of all files that it has named.
* `SharedFile.Disk.read`, `SharedFile.Disk.create`, `SharedFile.Disk.write`,
  `SharedFile.Disk.remove`.

## Main results

* `SharedFile.Disk.read_create`, `SharedFile.Disk.read_write`, `SharedFile.Disk.read_write_of_ne`.
-/

namespace SharedFile

/-- The file that the path names, the contents of all files, and the number of the next file. -/
structure Disk (α : Type*) where
  path : Option ℕ
  content : ℕ → List α
  next : ℕ

/-- The contents after a write at an offset. -/
def overwrite {α : Type*} [Inhabited α] (data : List α) (offset : ℕ) (chunk : List α) : List α :=
  (data.take offset).rightpad offset default ++ chunk ++ data.drop (offset + chunk.length)

theorem overwrite_nil {α : Type*} [Inhabited α] (chunk : List α) :
    overwrite [] 0 chunk = chunk := by
  simp [overwrite, List.rightpad]

namespace Disk

variable {α : Type*} [Inhabited α] {d : Disk α} {n offset : ℕ} {chunk : List α}

/-- What is read through the path. -/
def read (d : Disk α) : Option (List α) := d.path.map d.content

/-- The file at the path is created or truncated, and opened. -/
def create (d : Disk α) : Disk α × ℕ :=
  match d.path with
  | some n => ({ d with content := Function.update d.content n [] }, n)
  | none =>
    ({ path := some d.next, content := Function.update d.content d.next [], next := d.next + 1 },
      d.next)

/-- A write into an open file. -/
def write (d : Disk α) (n offset : ℕ) (chunk : List α) : Disk α :=
  { d with content := Function.update d.content n (overwrite (d.content n) offset chunk) }

/-- The path names no file any more. -/
def remove (d : Disk α) : Disk α := { d with path := none }

omit [Inhabited α] in
/-- A file that was just created has a name and is empty. -/
theorem read_create : d.create.1.path = some d.create.2 ∧ d.create.1.content d.create.2 = [] := by
  rcases hpath : d.path with _ | n
  · simp [create, hpath]
  · simp [create, hpath]

theorem read_write (h : d.path = some n) :
    (d.write n offset chunk).read = some (overwrite (d.content n) offset chunk) := by
  simp [read, write, h]

/-- A write into a file that has lost the path is not read through it. -/
theorem read_write_of_ne (h : d.path ≠ some n) : (d.write n offset chunk).read = d.read := by
  rcases hpath : d.path with _ | m
  · simp [read, write, hpath]
  · have hne : m ≠ n := by
      rintro rfl
      exact h hpath
    simp [read, write, hpath, Function.update_of_ne hne]

end Disk

end SharedFile
