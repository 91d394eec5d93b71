import Mathlib.Tactic.SplitIfs

/-!
# Transactions

A transaction over a state `σ` either commits, with a result and the new state, or throws. The new
state exists only when it commits: a transaction that throws is rolled back. Proofs take a
committed transaction apart with `Tx.run_bind_eq_ok`, one operation at a time.

## Main definitions

* `Tx`: the transactions over `σ`.
* `Tx.require`, `Tx.orElseThrow`: the two ways in which transactions throw.
* `Tx.commit`: the state after a transaction, rolled back where it throws.

## Main results

* `Tx.run_bind_eq_ok`: a sequence commits iff both parts do; `Tx.run_require_bind_eq_ok` and
  `Tx.run_orElseThrow_bind_eq_ok` say so for a guard.
* `Tx.run_orElseThrow_filter_bind_of_ne`, `Tx.run_orElseThrow_require_bind_of_ne`: two ways to load
  a row by a column report a row with another value as they report that there is none.
* `Tx.rel_of_run_forM`: what every turn of a loop does, the loop does.
* `Tx.commit_eq_or`: after a transaction the state is the old one or a committed one.
-/

/-- A transaction over the state `σ`, which may throw an `ε`. -/
abbrev Tx (σ ε : Type) := StateT σ (Except ε)

namespace Tx

variable {σ ε α β : Type} {x : Tx σ ε α} {f : α → Tx σ ε β} {s t : σ}

theorem run_bind_eq_ok {r : β × σ} : (x >>= f).run s = .ok r ↔
    ∃ a u, x.run s = .ok (a, u) ∧ (f a).run u = .ok r := by
  rw [StateT.run_bind]
  rcases x.run s with e | ⟨a, u⟩
  · simp [Bind.bind, Except.bind]
  · constructor
    · intro h
      exact ⟨a, u, rfl, h⟩
    · rintro ⟨_, _, h, hf⟩
      cases h
      exact hf

theorem run_pure_eq_ok {a : α} {r : α × σ} :
    (pure a : Tx σ ε α).run s = .ok r ↔ (a, s) = r :=
  (Except.ok.injEq (a, s) r).to_iff

theorem run_get_bind_eq_ok {f : σ → Tx σ ε β} {r : β × σ} :
    (get >>= f).run s = .ok r ↔ (f s).run s = .ok r := Iff.rfl

theorem run_set_bind_eq_ok {u : σ} {f : PUnit → Tx σ ε β} {r : β × σ} :
    (set u >>= f).run s = .ok r ↔ (f ⟨⟩).run u = .ok r := Iff.rfl

theorem run_modify_bind_eq_ok {g : σ → σ} {f : PUnit → Tx σ ε β} {r : β × σ} :
    (modify g >>= f).run s = .ok r ↔ (f ⟨⟩).run (g s) = .ok r := Iff.rfl

theorem run_modify_eq_ok {g : σ → σ} {r : PUnit × σ} :
    (modify g : Tx σ ε PUnit).run s = .ok r ↔ (PUnit.unit, g s) = r :=
  (Except.ok.injEq (PUnit.unit, g s) r).to_iff

/-- A transaction whose result is discarded. -/
theorem run_discard_eq_ok {u : PUnit × σ} (h : (do let _ ← x : Tx σ ε PUnit).run s = .ok u) :
    ∃ a, x.run s = .ok (a, u.2) := by
  obtain ⟨a, t, hx, hu⟩ := run_bind_eq_ok.mp h
  cases run_pure_eq_ok.mp hu
  exact ⟨a, hx⟩

/-- Throw `e` unless `p` holds. -/
def require (p : Prop) [Decidable p] (e : ε) : Tx σ ε Unit := if p then pure () else throw e

theorem run_require_eq_ok {p : Prop} [Decidable p] {e : ε} {r : Unit × σ} :
    (require p e : Tx σ ε Unit).run s = .ok r ↔ p ∧ ((), s) = r := by
  by_cases hp : p
  · rw [require, if_pos hp, run_pure_eq_ok]
    exact (and_iff_right hp).symm
  · rw [require, if_neg hp]
    exact iff_of_false (fun h => nomatch h) fun h => hp h.1

theorem run_require_bind_eq_ok {p : Prop} [Decidable p] {e : ε} {f : Unit → Tx σ ε β}
    {r : β × σ} : (require p e >>= f).run s = .ok r ↔ p ∧ (f ()).run s = .ok r := by
  by_cases hp : p
  · rw [require, if_pos hp, pure_bind]
    exact (and_iff_right hp).symm
  · rw [require, if_neg hp]
    exact iff_of_false (fun h => nomatch h) fun h => hp h.1

/-- The value of an optional, or throw `e`. -/
def orElseThrow (o : Option α) (e : ε) : Tx σ ε α :=
  match o with
  | some a => pure a
  | none => throw e

theorem run_orElseThrow_bind_eq_ok {o : Option α} {e : ε} {r : β × σ} :
    (orElseThrow o e >>= f).run s = .ok r ↔ ∃ a, o = some a ∧ (f a).run s = .ok r := by
  cases o with
  | none => exact iff_of_false (fun h => nomatch h) fun ⟨_, h, _⟩ => nomatch h
  | some a =>
    rw [orElseThrow, pure_bind]
    simp

theorem run_bind_of_run_eq_error {e : ε} (h : x.run s = .error e) :
    (x >>= f).run s = .error e := by
  rw [StateT.run_bind, h]
  rfl

theorem run_get_bind {f : σ → Tx σ ε β} : (get >>= f).run s = (f s).run s := rfl

theorem run_set_bind {u : σ} {f : PUnit → Tx σ ε β} : (set u >>= f).run s = (f ⟨⟩).run u := rfl

/-- A row that is filtered by the value `k` of a column: other rows and no row give one error. -/
theorem run_orElseThrow_filter_bind_of_ne {κ : Type} [DecidableEq κ] {o : Option α} {key : α → κ}
    {k : κ} (h : o.map key ≠ some k) {e : ε} :
    (orElseThrow (o.filter fun a => key a = k) e >>= f).run s = .error e := by
  rcases o with _ | a
  · rfl
  · have hne : key a ≠ k := fun heq => h (by rw [Option.map_some, heq])
    have hnone : (some a).filter (fun a => key a = k) = none := by simp [Option.filter, hne]
    rw [hnone]
    rfl

/-- A row whose column is compared with `k` after it was loaded, where the error is that of no
row. -/
theorem run_orElseThrow_require_bind_of_ne {κ : Type} [DecidableEq κ] {o : Option α} {key : α → κ}
    {k : κ} (h : o.map key ≠ some k) {e : ε} {f : α → Unit → Tx σ ε β} :
    (orElseThrow o e >>= fun a => require (k = key a) e >>= f a).run s = .error e := by
  rcases o with _ | a
  · rfl
  · have hne : k ≠ key a := fun heq => h (by rw [Option.map_some, heq])
    rw [orElseThrow, pure_bind, require, if_neg hne]
    rfl

/-- **The rule for loops.** What every turn of a loop does to the state, a reflexive and transitive
relation, the whole loop does. -/
theorem rel_of_run_forM {R : σ → σ → Prop} (hrefl : ∀ s, R s s)
    (htrans : ∀ {s t u}, R s t → R t u → R s u) {l : List α} {f : α → Tx σ ε PUnit}
    (hf : ∀ a ∈ l, ∀ s t, (f a).run s = .ok (PUnit.unit, t) → R s t)
    (h : (l.forM f).run s = .ok (PUnit.unit, t)) : R s t := by
  induction l generalizing s with
  | nil =>
    cases run_pure_eq_ok.mp h
    exact hrefl _
  | cons a l ih =>
    rw [List.forM_eq_forM, List.forM_cons, run_bind_eq_ok] at h
    obtain ⟨_, u, ha, hl⟩ := h
    exact htrans (hf a List.mem_cons_self s u ha)
      (ih (fun b hb => hf b (List.mem_cons_of_mem a hb)) hl)

/-- The state after a transaction: a transaction that throws is rolled back. -/
def commit (x : Tx σ ε α) (s : σ) : σ :=
  match x.run s with
  | .ok (_, t) => t
  | .error _ => s

theorem commit_of_run_eq_ok {a : α} (h : x.run s = .ok (a, t)) : x.commit s = t := by
  simp [commit, h]

theorem commit_of_run_eq_error {e : ε} (h : x.run s = .error e) : x.commit s = s := by
  simp [commit, h]

/-- After a transaction the state is the one before, or the one that it committed. -/
theorem commit_eq_or (x : Tx σ ε α) (s : σ) :
    x.commit s = s ∨ ∃ a, x.run s = .ok (a, x.commit s) := by
  rcases h : x.run s with e | ⟨a, t⟩
  · exact .inl (commit_of_run_eq_error h)
  · exact .inr ⟨a, by rw [commit_of_run_eq_ok h]⟩

/-- A step that is a transaction leads to the state before, or to the one that it committed. -/
theorem eq_or_run_of_commit {x : Tx σ ε α} {s t : σ} (h : some (x.commit s) = some t) :
    t = s ∨ ∃ a, x.run s = .ok (a, t) := by
  rw [← Option.some.inj h]
  exact commit_eq_or x s

end Tx
