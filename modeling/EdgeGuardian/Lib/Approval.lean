import Mathlib.Data.Nat.Notation
import Mathlib.Logic.Function.Basic
import Mathlib.Logic.Relation
import Mathlib.Tactic.SplitIfs

/-!
# Requests and what is granted on them

A register holds requests, each with a subject and a verdict, and grants, each made for a subject
and possibly on a request. Requests are submitted without a verdict; a pending request is approved
together with the grant made on it, or rejected. Both are partial functions of their numbers, so
that numbers are unique by construction.

## Main definitions

* `Verdicts`: the three verdicts among the states of a request.
* `Register`, `Register.submit`, `Register.approve`, `Register.reject`: the register and its writes.
* `Register.Step`, `Register.Steps`: the steps of a register.
* `Register.Settled`: exactly the approved requests have a grant, one each, for their subject.
* `Register.Precedes`: requests stay, and change their state only where they are pending.

## Main results

* `Register.Settled.steps`, `Register.precedes_of_steps`: what a sequence of steps preserves.
-/

/-- The three verdicts on a request. -/
structure Verdicts (σ : Type*) where
  pending : σ
  approved : σ
  rejected : σ
  approved_ne_pending : approved ≠ pending
  rejected_ne_pending : rejected ≠ pending
  rejected_ne_approved : rejected ≠ approved

/-- The state of a request at two times: the same, or a verdict on a pending one. -/
def Verdicts.Moves {σ : Type*} (V : Verdicts σ) (s t : σ) : Prop :=
  t = s ∨ (s = V.pending ∧ (t = V.approved ∨ t = V.rejected))

/-- The requests with their subject and state, and the grants with their request and subject. -/
@[ext] structure Register (τ σ : Type*) where
  requests : ℕ → Option (τ × σ)
  grants : ℕ → Option (Option ℕ × τ)

namespace Register

variable {τ σ : Type*} {V : Verdicts σ} {a b : Register τ σ}

/-- A new request, pending. -/
def submit (V : Verdicts σ) (a : Register τ σ) (i : ℕ) (subject : τ) : Register τ σ :=
  { a with requests := Function.update a.requests i (some (subject, V.pending)) }

/-- The request `i` is approved, and the grant `k` is made on it. -/
def approve (V : Verdicts σ) (a : Register τ σ) (i k : ℕ) (subject : τ) : Register τ σ where
  requests := Function.update a.requests i (some (subject, V.approved))
  grants := Function.update a.grants k (some (some i, subject))

/-- The requests of `p` are rejected. -/
def reject (V : Verdicts σ) (a : Register τ σ) (p : ℕ → Prop) [DecidablePred p] : Register τ σ :=
  { a with
    requests := fun i =>
      if p i then (a.requests i).map fun r => (r.1, V.rejected) else a.requests i }

/-- One write: a request is submitted under a new number, or pending requests get a verdict. -/
inductive Step (V : Verdicts σ) : Register τ σ → Register τ σ → Prop
  | submit {a : Register τ σ} {i : ℕ} (subject : τ) (hi : a.requests i = none) :
      Step V a (a.submit V i subject)
  | approve {a : Register τ σ} {i k : ℕ} {subject : τ}
      (hi : a.requests i = some (subject, V.pending)) (hk : a.grants k = none) :
      Step V a (a.approve V i k subject)
  | reject {a : Register τ σ} (p : ℕ → Prop) [DecidablePred p]
      (hp : ∀ i, p i → ∀ r ∈ a.requests i, r.2 = V.pending) :
      Step V a (a.reject V p)

/-- A sequence of writes. -/
abbrev Steps (V : Verdicts σ) : Register τ σ → Register τ σ → Prop :=
  Relation.ReflTransGen (Step V)

/-! ### Grants and verdicts -/

/-- The grant `k` was made on the request `i`. -/
def GrantedOn (a : Register τ σ) (i k : ℕ) : Prop := ∃ subject, a.grants k = some (some i, subject)

/-- Grants are made on requests of the register; an approved request has one grant, for its own
subject, and every other request has none. -/
structure Settled (V : Verdicts σ) (a : Register τ σ) : Prop where
  known : ∀ i k, a.GrantedOn i k → (a.requests i).isSome
  approved : ∀ i subject, a.requests i = some (subject, V.approved) →
    ∃ k, a.grants k = some (some i, subject) ∧ ∀ k', a.GrantedOn i k' → k' = k
  other : ∀ i subject state, a.requests i = some (subject, state) → state ≠ V.approved →
    ∀ k, ¬ a.GrantedOn i k
  verdict : ∀ i subject state, a.requests i = some (subject, state) →
    state = V.pending ∨ state = V.approved ∨ state = V.rejected

theorem settled_empty : Settled V (⟨fun _ => none, fun _ => none⟩ : Register τ σ) where
  known := fun _ _ ⟨_, h⟩ => nomatch h
  approved := fun _ _ h => nomatch h
  other := fun _ _ _ h => nomatch h
  verdict := fun _ _ _ h => nomatch h

theorem Settled.submit {i : ℕ} (h : Settled V a) (subject : τ) (hi : a.requests i = none) :
    Settled V (a.submit V i subject) := by
  have hnew : ∀ k, ¬ a.GrantedOn i k := by
    intro k hk
    have hsome := h.known i k hk
    rw [hi] at hsome
    exact nomatch hsome
  refine ⟨fun j k hk => ?_, fun j s hj => ?_, fun j s st hj hst => ?_, fun j s st hj => ?_⟩
  · by_cases hji : j = i
    · simp [Register.submit, hji]
    · simpa [Register.submit, hji] using h.known j k hk
  all_goals
    simp only [Register.submit] at hj
    by_cases hji : j = i
  · rw [hji, Function.update_self] at hj
    exact absurd (Prod.mk.inj (Option.some.inj hj)).2.symm V.approved_ne_pending
  · rw [Function.update_of_ne hji] at hj
    exact h.approved j s hj
  · rw [hji]
    exact hnew
  · rw [Function.update_of_ne hji] at hj
    exact h.other j s st hj hst
  · rw [hji, Function.update_self] at hj
    exact .inl (Prod.mk.inj (Option.some.inj hj)).2.symm
  · rw [Function.update_of_ne hji] at hj
    exact h.verdict j s st hj

/-- A new grant on the request `i` is a grant on no other one. -/
theorem grantedOn_approve_iff {i j k k' : ℕ} {subject : τ} (hk : a.grants k = none) :
    (a.approve V i k subject).GrantedOn j k' ↔ (k' = k ∧ j = i) ∨ a.GrantedOn j k' := by
  simp only [GrantedOn, Register.approve]
  by_cases hkk : k' = k
  · rw [hkk, Function.update_self, hk]
    constructor
    · rintro ⟨s, hs⟩
      obtain ⟨hij, -⟩ := Prod.mk.inj (Option.some.inj hs)
      exact .inl ⟨rfl, (Option.some.inj hij).symm⟩
    · rintro (⟨-, rfl⟩ | ⟨_, hs⟩)
      · exact ⟨subject, rfl⟩
      · exact nomatch hs
  · rw [Function.update_of_ne hkk]
    exact ⟨.inr, fun hor => hor.resolve_left fun hc => hkk hc.1⟩

theorem Settled.approve {i k : ℕ} {subject : τ} (h : Settled V a)
    (hi : a.requests i = some (subject, V.pending)) (hk : a.grants k = none) :
    Settled V (a.approve V i k subject) := by
  have hnone : ∀ k', ¬ a.GrantedOn i k' := h.other i subject _ hi V.approved_ne_pending.symm
  refine ⟨fun j k' hgrant => ?_, fun j s hj => ?_, fun j s st hj hst => ?_, fun j s st hj => ?_⟩
  · by_cases hji : j = i
    · simp [Register.approve, hji]
    · have hold := ((grantedOn_approve_iff hk).mp hgrant).resolve_left fun hc => hji hc.2
      simpa [Register.approve, hji] using h.known j k' hold
  · simp only [Register.approve] at hj ⊢
    by_cases hji : j = i
    · rw [hji, Function.update_self] at hj
      obtain ⟨hs, -⟩ := Prod.mk.inj (Option.some.inj hj)
      rw [hji]
      refine ⟨k, by rw [Function.update_self, hs], fun k' hgrant => ?_⟩
      exact (((grantedOn_approve_iff hk).mp hgrant).resolve_right (hnone k')).1
    · rw [Function.update_of_ne hji] at hj
      obtain ⟨k₀, hk₀, hunique⟩ := h.approved j s hj
      have hne : k₀ ≠ k := by
        rintro rfl
        rw [hk] at hk₀
        exact nomatch hk₀
      refine ⟨k₀, by rw [Function.update_of_ne hne, hk₀], fun k' hgrant => hunique k' ?_⟩
      exact ((grantedOn_approve_iff hk).mp hgrant).resolve_left fun hc => hji hc.2
  · intro k' hgrant
    simp only [Register.approve] at hj
    by_cases hji : j = i
    · rw [hji, Function.update_self] at hj
      exact hst (Prod.mk.inj (Option.some.inj hj)).2.symm
    · rw [Function.update_of_ne hji] at hj
      have hold := ((grantedOn_approve_iff hk).mp hgrant).resolve_left fun hc => hji hc.2
      exact h.other j s st hj hst k' hold
  · simp only [Register.approve] at hj
    by_cases hji : j = i
    · rw [hji, Function.update_self] at hj
      exact .inr (.inl (Prod.mk.inj (Option.some.inj hj)).2.symm)
    · rw [Function.update_of_ne hji] at hj
      exact h.verdict j s st hj

/-- The requests after a rejection: rejected where they were pending, or as they were. -/
theorem requests_reject {p : ℕ → Prop} [DecidablePred p] {i : ℕ} {subject : τ} {state : σ}
    (hp : ∀ i, p i → ∀ r ∈ a.requests i, r.2 = V.pending)
    (hi : (a.reject V p).requests i = some (subject, state)) :
    (state = V.rejected ∧ a.requests i = some (subject, V.pending)) ∨
      a.requests i = some (subject, state) := by
  simp only [Register.reject] at hi
  split_ifs at hi with hpi
  · obtain ⟨r, hr, heq⟩ := Option.map_eq_some_iff.mp hi
    obtain ⟨rfl, rfl⟩ := Prod.mk.inj heq
    refine .inl ⟨rfl, ?_⟩
    rw [hr, ← hp i hpi r hr]
  · exact .inr hi

theorem Settled.reject {p : ℕ → Prop} [DecidablePred p] (h : Settled V a)
    (hp : ∀ i, p i → ∀ r ∈ a.requests i, r.2 = V.pending) : Settled V (a.reject V p) := by
  refine ⟨fun j k hk => ?_, fun j s hj => ?_, fun j s st hj hst => ?_, fun j s st hj => ?_⟩
  · have hknown := h.known j k hk
    simp only [Register.reject]
    split_ifs
    · rwa [Option.isSome_map]
    · exact hknown
  · rcases requests_reject hp hj with ⟨hrejected, -⟩ | hj
    · exact absurd hrejected.symm V.rejected_ne_approved
    · exact h.approved j s hj
  · rcases requests_reject hp hj with ⟨-, hj⟩ | hj
    · exact h.other j s _ hj V.approved_ne_pending.symm
    · exact h.other j s st hj hst
  · rcases requests_reject hp hj with ⟨hrejected, -⟩ | hj
    · exact .inr (.inr hrejected)
    · exact h.verdict j s st hj

theorem Settled.step (h : Settled V a) (hstep : Step V a b) : Settled V b := by
  cases hstep with
  | submit subject hi => exact h.submit subject hi
  | approve hi hk => exact h.approve hi hk
  | reject p hp => exact h.reject hp

/-- A sequence of writes keeps every grant matched with its request. -/
theorem Settled.steps (h : Settled V a) (hsteps : Steps V a b) : Settled V b := by
  induction hsteps with
  | refl => exact h
  | tail _ hstep ih => exact ih.step hstep

/-! ### The life of a request -/

/-- Every request of `a` is in `b`, for the same subject, and has moved at most from pending to a
verdict. -/
def Precedes (V : Verdicts σ) (a b : Register τ σ) : Prop :=
  ∀ i subject state, a.requests i = some (subject, state) →
    ∃ state', b.requests i = some (subject, state') ∧ V.Moves state state'

/-- A request that has a verdict keeps it. -/
theorem moves_trans {s t u : σ} (h : V.Moves s t) (h' : V.Moves t u) : V.Moves s u := by
  rcases h with rfl | ⟨hs, ht⟩
  · exact h'
  · rcases h' with rfl | ⟨hpending, -⟩
    · exact .inr ⟨hs, ht⟩
    · rw [hpending] at ht
      exact absurd ht (not_or.mpr ⟨V.approved_ne_pending.symm, V.rejected_ne_pending.symm⟩)

theorem Precedes.refl (V : Verdicts σ) (a : Register τ σ) : Precedes V a a :=
  fun _ _ state hi => ⟨state, hi, .inl rfl⟩

theorem Precedes.trans {c : Register τ σ} (h : Precedes V a b) (h' : Precedes V b c) :
    Precedes V a c := by
  intro i subject state hi
  obtain ⟨state', hi', hmoves⟩ := h i subject state hi
  obtain ⟨state'', hi'', hmoves'⟩ := h' i subject state' hi'
  exact ⟨state'', hi'', moves_trans hmoves hmoves'⟩

theorem precedes_of_step (h : Step V a b) : Precedes V a b := by
  intro j s st hj
  cases h with
  | @submit i subject hi =>
    have hji : j ≠ i := by
      rintro rfl
      rw [hi] at hj
      exact nomatch hj
    exact ⟨st, by simp [submit, hji, hj], .inl rfl⟩
  | @approve i k subject hi hk =>
    by_cases hji : j = i
    · rw [hji, hi] at hj
      obtain ⟨rfl, rfl⟩ := Prod.mk.inj (Option.some.inj hj)
      exact ⟨V.approved, by simp [approve, hji], .inr ⟨rfl, .inl rfl⟩⟩
    · exact ⟨st, by simp [approve, hji, hj], .inl rfl⟩
  | reject p hp =>
    by_cases hpj : p j
    · have hst : st = V.pending := hp j hpj (s, st) hj
      exact ⟨V.rejected, by simp [reject, hpj, hj], .inr ⟨hst, .inr rfl⟩⟩
    · exact ⟨st, by simp [reject, hpj, hj], .inl rfl⟩

/-- In a sequence of writes, a request moves at most from pending to a verdict. -/
theorem precedes_of_steps (h : Steps V a b) : Precedes V a b := by
  induction h with
  | refl => exact .refl V a
  | tail _ hstep ih => exact ih.trans (precedes_of_step hstep)

end Register
