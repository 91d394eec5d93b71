import Mathlib.Algebra.BigOperators.Group.List.Basic
import Mathlib.Data.List.Perm.Basic

/-!
# Pools of calls in progress

Calls that run concurrently are a list of local states. A step of the call at position `i` replaces
its local state, or takes the call out of the pool when it returns. A quantity that every call
holds is summed over the pool; a step changes the sum only by what the stepping call holds before
and after.

## Main definitions

* `Pool.update`: replace or remove the call at a position.
* `Pool.load`: the sum of what the calls hold.

## Main results

* `Pool.load_update`, `Pool.load_eq`, `Pool.load_update_add`: the load around the stepping call.
-/

namespace Pool

variable {α M : Type*} [AddCommMonoid M]

/-- The pool after a step of the call at `i`: its new local state, or `none` when it returned. -/
def update (calls : List α) (i : ℕ) : Option α → List α
  | some c => calls.set i c
  | none => calls.eraseIdx i

/-- What the calls of the pool hold together. -/
def load (holds : α → M) (calls : List α) : M := (calls.map holds).sum

/-- The calls after a step are the others, and the new local state. -/
theorem mem_of_mem_update {calls : List α} {i : ℕ} {c : α} {c' : Option α}
    (h : c ∈ update calls i c') : c ∈ calls.eraseIdx i ∨ c ∈ c' := by
  cases c' with
  | none => exact .inl h
  | some d =>
    by_cases hi : i < calls.length
    · rcases List.mem_cons.mp ((List.set_perm_cons_eraseIdx hi d).mem_iff.mp h) with rfl | hmem
      · exact .inr rfl
      · exact .inl hmem
    · rw [update, List.set_eq_of_length_le (Nat.not_lt.mp hi)] at h
      rw [List.eraseIdx_of_length_le (Nat.not_lt.mp hi)]
      exact .inl h

variable {holds : α → M} {calls : List α} {i : ℕ} {c : α}

theorem load_append (calls' : List α) :
    load holds (calls ++ calls') = load holds calls + load holds calls' := by
  simp only [load, List.map_append, List.sum_append]

/-- The call at `i` holds its part of the load. -/
theorem load_eq (h : calls[i]? = some c) :
    load holds calls = holds c + load holds (calls.eraseIdx i) := by
  obtain ⟨hi, rfl⟩ := List.getElem?_eq_some_iff.mp h
  have hperm := (List.getElem_cons_eraseIdx_perm hi).map holds
  rw [load, ← hperm.sum_eq, List.map_cons, List.sum_cons, load]

/-- After a step the call at `i` holds what its new local state holds. -/
theorem load_update (h : calls[i]? = some c) (c' : Option α) :
    load holds (update calls i c') = c'.elim 0 holds + load holds (calls.eraseIdx i) := by
  cases c' with
  | none => rw [update, Option.elim_none, zero_add]
  | some d =>
    obtain ⟨hi, -⟩ := List.getElem?_eq_some_iff.mp h
    have hperm := (List.set_perm_cons_eraseIdx hi d).map holds
    rw [update, load, hperm.sum_eq, List.map_cons, List.sum_cons, Option.elim_some, load]

/-- What the call at `i` held and holds, added on the two sides. -/
theorem load_update_add (h : calls[i]? = some c) (c' : Option α) :
    load holds (update calls i c') + holds c = c'.elim 0 holds + load holds calls := by
  rw [load_update h, load_eq h, add_assoc, add_comm (holds c)]

end Pool
