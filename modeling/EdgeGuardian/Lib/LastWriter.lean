import Mathlib.Data.List.Induction
import Mathlib.Order.Lattice

/-!
# The last writer wins

A register that is written with stamped values and keeps the value with the greatest stamp; of two
values with the same stamp it keeps the one that was written later. The stamp is what the register
knows of the order of the values. Whether the value that it keeps is the latest in another order is
a question about the writes, not about the register.

## Main definitions

* `LastWriter.write`: the register after a write.
* `LastWriter.latest`: the register after a list of writes.

## Main results

* `LastWriter.map_write`: what a write does depends on the stamps and on nothing else.
* `LastWriter.latest_concat_of_le`: a write with the greatest stamp is kept.
-/

namespace LastWriter

variable {α β κ : Type*} [LinearOrder κ] (stamp : α → κ)

/-- The register after `a` is written. -/
def write (held : Option α) (a : α) : Option α :=
  match held with
  | none => some a
  | some b => if stamp b ≤ stamp a then some a else some b

/-- The register after the writes `l`, oldest first. -/
def latest (l : List α) : Option α := l.foldl (write stamp) none

theorem latest_concat (l : List α) (a : α) :
    latest stamp (l ++ [a]) = write stamp (latest stamp l) a :=
  List.foldl_append

variable {stamp}

/-- A change of the values that keeps their stamps. -/
theorem map_write {stamp' : β → κ} {f : α → β} (hf : ∀ a, stamp' (f a) = stamp a)
    (held : Option α) (a : α) :
    (write stamp held a).map f = write stamp' (held.map f) (f a) := by
  rcases held with _ | b
  · rfl
  · simp only [write, Option.map_some, hf]
    split_ifs <;> rfl

theorem mem_of_latest {l : List α} {a : α} (h : latest stamp l = some a) : a ∈ l := by
  induction l using List.reverseRecOn with
  | nil => exact absurd h.symm (Option.some_ne_none a)
  | append_singleton l b ih =>
    rw [latest_concat] at h
    rcases hheld : latest stamp l with _ | c
    · rw [hheld] at h
      rw [← Option.some.inj h]
      exact List.mem_append_right _ List.mem_cons_self
    · rw [hheld, write] at h
      split_ifs at h
      · rw [← Option.some.inj h]
        exact List.mem_append_right _ List.mem_cons_self
      · exact List.mem_append_left _ (ih (hheld.trans h))

/-- A write whose stamp is not below the others is kept. -/
theorem latest_concat_of_le {l : List α} {a : α} (h : ∀ b ∈ l, stamp b ≤ stamp a) :
    latest stamp (l ++ [a]) = some a := by
  rw [latest_concat]
  rcases hheld : latest stamp l with _ | b
  · rfl
  · exact if_pos (h b (mem_of_latest hheld))

end LastWriter
