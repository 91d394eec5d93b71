import Mathlib.Data.Nat.Notation
import Mathlib.Logic.Function.Basic
import Mathlib.Logic.Relation
import Mathlib.Tactic.SplitIfs

/-!
# Chains of renewed rows

Numbered rows are issued to a subject, revoked with an entry that says how, and renewed: the old
row is revoked and names the new one as its successor. Revoked rows are not touched again, numbers
grow, and every new row is the successor of at most one row, so that the rows form chains.

## Main definitions

* `Link`, `Chain`: a row, and the rows by their numbers.
* `Chain.issue`, `Chain.revoke`, `Chain.renew`, `Chain.Step`, `Chain.Steps`: the writes.
* `Chain.Linked`: exactly the renewed rows have a successor, each its own one, with a larger number
  and the same subject.
* `Chain.Preserves`: rows stay, and those revoked stay as they are.

## Main results

* `Chain.Linked.steps`, `Chain.preserves_of_steps`: what a sequence of writes preserves.
-/

/-- A row: its subject, whether it is revoked, the entry that says how, and its successor. -/
structure Link (τ ε : Type*) where
  subject : τ
  revoked : Bool
  entry : ε
  replacedBy : Option ℕ

/-- The rows by their numbers. -/
abbrev Chain (τ ε : Type*) := ℕ → Option (Link τ ε)

namespace Chain

variable {τ ε : Type*} {blank : ε} {renewed : ε → Prop} {c d : Chain τ ε}

/-- The numbers of the rows are below `n`. -/
def Below (c : Chain τ ε) (n : ℕ) : Prop := ∀ k l, c k = some l → k < n

/-- A new row. -/
def issue (blank : ε) (c : Chain τ ε) (n : ℕ) (subject : τ) : Chain τ ε :=
  Function.update c n (some ⟨subject, false, blank, none⟩)

/-- The rows of `p` are revoked with the entry `e`. -/
def revoke (c : Chain τ ε) (p : ℕ → Prop) [DecidablePred p] (e : ε) : Chain τ ε :=
  fun k => if p k then (c k).map fun l => { l with revoked := true, entry := e } else c k

/-- The row `old` is revoked with the entry `e` and names the new row `n` of its subject. -/
def renew (blank : ε) (c : Chain τ ε) (old n : ℕ) (subject : τ) (e : ε) : Chain τ ε :=
  Function.update (c.issue blank n subject) old (some ⟨subject, true, e, some n⟩)

/-- One write: a row is issued under a new number, rows that are not revoked are revoked, or one of
them is renewed. -/
inductive Step (blank : ε) (renewed : ε → Prop) : Chain τ ε → Chain τ ε → Prop
  | issue {c : Chain τ ε} {n : ℕ} (subject : τ) (hn : c.Below n) :
      Step blank renewed c (c.issue blank n subject)
  | revoke {c : Chain τ ε} (p : ℕ → Prop) [DecidablePred p] {e : ε} (he : ¬ renewed e)
      (hp : ∀ k, p k → ∀ l ∈ c k, l.revoked = false) : Step blank renewed c (c.revoke p e)
  | renew {c : Chain τ ε} {old n : ℕ} {l : Link τ ε} {e : ε} (hold : c old = some l)
      (hlive : l.revoked = false) (hn : c.Below n) (he : renewed e) :
      Step blank renewed c (c.renew blank old n l.subject e)

/-- A sequence of writes. -/
abbrev Steps (blank : ε) (renewed : ε → Prop) : Chain τ ε → Chain τ ε → Prop :=
  Relation.ReflTransGen (Step blank renewed)

/-! ### Successors -/

/-- A row that is not revoked has no successor and no entry of a renewal; a row has a successor iff
its entry is that of a renewal, and this is a row with a larger number and the same subject; no two
rows have the same successor. -/
structure Linked (renewed : ε → Prop) (c : Chain τ ε) : Prop where
  live : ∀ k l, c k = some l → l.revoked = false → ¬ renewed l.entry
  replaced : ∀ k l, c k = some l → (l.replacedBy.isSome ↔ renewed l.entry)
  successor : ∀ k l n, c k = some l → l.replacedBy = some n →
    k < n ∧ ∃ l', c n = some l' ∧ l'.subject = l.subject
  injective : ∀ k k' l l' n, c k = some l → c k' = some l' →
    l.replacedBy = some n → l'.replacedBy = some n → k = k'

theorem linked_empty : Linked renewed (fun _ => none : Chain τ ε) where
  live := fun _ _ h => nomatch h
  replaced := fun _ _ h => nomatch h
  successor := fun _ _ _ h => nomatch h
  injective := fun _ _ _ _ _ h => nomatch h

/-- A row without successor: not revoked. -/
theorem Linked.replacedBy_eq_none {k : ℕ} {l : Link τ ε} (h : Linked renewed c)
    (hk : c k = some l) (hlive : l.revoked = false) : l.replacedBy = none := by
  have hnot := mt (h.replaced k l hk).mp (h.live k l hk hlive)
  simpa using hnot

/-- A row under a number above all others is nobody's successor. -/
theorem Linked.not_successor {k n : ℕ} {l : Link τ ε} (h : Linked renewed c) (hn : c.Below n)
    (hk : c k = some l) : l.replacedBy ≠ some n := by
  intro hsucc
  obtain ⟨-, l', hl', -⟩ := h.successor k l n hk hsucc
  exact absurd (hn n l' hl') (Nat.lt_irrefl n)

/-- The rows after an issuance: the new one, and those before, under smaller numbers. -/
theorem issue_eq_some {n k : ℕ} {subject : τ} {l : Link τ ε} (hn : c.Below n)
    (h : c.issue blank n subject k = some l) :
    (k = n ∧ l = ⟨subject, false, blank, none⟩) ∨ (k < n ∧ c k = some l) := by
  rw [issue] at h
  by_cases hkn : k = n
  · rw [hkn, Function.update_self] at h
    exact .inl ⟨hkn, (Option.some.inj h).symm⟩
  · rw [Function.update_of_ne hkn] at h
    exact .inr ⟨hn k l h, h⟩

theorem issue_of_lt {n k : ℕ} {subject : τ} (hk : k < n) : c.issue blank n subject k = c k :=
  Function.update_of_ne (Nat.ne_of_lt hk) ..

theorem Linked.issue {n : ℕ} (hblank : ¬ renewed blank) (h : Linked renewed c) (subject : τ)
    (hn : c.Below n) : Linked renewed (c.issue blank n subject) := by
  refine ⟨fun k l hk hlive => ?_, fun k l hk => ?_, fun k l m hk hsucc => ?_,
    fun k k' l l' m hk hk' hsucc hsucc' => ?_⟩
  · rcases issue_eq_some hn hk with ⟨-, rfl⟩ | ⟨-, hk⟩
    · exact hblank
    · exact h.live k l hk hlive
  · rcases issue_eq_some hn hk with ⟨-, rfl⟩ | ⟨-, hk⟩
    · exact iff_of_false (fun h => nomatch h) hblank
    · exact h.replaced k l hk
  · rcases issue_eq_some hn hk with ⟨-, rfl⟩ | ⟨-, hk⟩
    · exact nomatch hsucc
    · obtain ⟨hlt, l', hl', hsubject⟩ := h.successor k l m hk hsucc
      exact ⟨hlt, l', by rw [issue_of_lt (hn m l' hl'), hl'], hsubject⟩
  · rcases issue_eq_some hn hk with ⟨-, rfl⟩ | ⟨-, hk⟩
    · exact nomatch hsucc
    · rcases issue_eq_some hn hk' with ⟨-, rfl⟩ | ⟨-, hk'⟩
      · exact nomatch hsucc'
      · exact h.injective k k' l l' m hk hk' hsucc hsucc'

/-- The rows after a revocation: those of `p` with the entry, and the others. -/
theorem revoke_eq_some {p : ℕ → Prop} [DecidablePred p] {e : ε} {k : ℕ} {l : Link τ ε}
    (h : c.revoke p e k = some l) :
    (∃ l₀, p k ∧ c k = some l₀ ∧ l = { l₀ with revoked := true, entry := e }) ∨
      (¬ p k ∧ c k = some l) := by
  rw [revoke] at h
  split_ifs at h with hp
  · obtain ⟨l₀, hl₀, rfl⟩ := Option.map_eq_some_iff.mp h
    exact .inl ⟨l₀, hp, hl₀, rfl⟩
  · exact .inr ⟨hp, h⟩

/-- A row stays under a revocation, with its subject and its successor. -/
theorem exists_revoke (p : ℕ → Prop) [DecidablePred p] (e : ε) {k : ℕ} {l : Link τ ε}
    (h : c k = some l) : ∃ l', c.revoke p e k = some l' ∧ l'.subject = l.subject := by
  rw [revoke, h]
  split_ifs
  · exact ⟨_, rfl, rfl⟩
  · exact ⟨l, rfl, rfl⟩

theorem Linked.revoke {p : ℕ → Prop} [DecidablePred p] {e : ε} (h : Linked renewed c)
    (he : ¬ renewed e) (hp : ∀ k, p k → ∀ l ∈ c k, l.revoked = false) :
    Linked renewed (c.revoke p e) := by
  -- A row with a successor is revoked, so it is none of `p` and is the same before and after.
  have hback : ∀ k l n, c.revoke p e k = some l → l.replacedBy = some n → c k = some l := by
    intro k l n hk hsucc
    rcases revoke_eq_some hk with ⟨l₀, hpk, hl₀, rfl⟩ | ⟨-, hk⟩
    · have hnone : l₀.replacedBy = none := h.replacedBy_eq_none hl₀ (hp k hpk l₀ hl₀)
      rw [hnone] at hsucc
      exact nomatch hsucc
    · exact hk
  refine ⟨fun k l hk hlive => ?_, fun k l hk => ?_, fun k l n hk hsucc => ?_,
    fun k k' l l' n hk hk' hsucc hsucc' => ?_⟩
  · rcases revoke_eq_some hk with ⟨l₀, -, -, rfl⟩ | ⟨-, hk⟩
    · exact nomatch hlive
    · exact h.live k l hk hlive
  · rcases revoke_eq_some hk with ⟨l₀, hpk, hl₀, rfl⟩ | ⟨-, hk⟩
    · have hnone : l₀.replacedBy = none := h.replacedBy_eq_none hl₀ (hp k hpk l₀ hl₀)
      exact iff_of_false (by simp [hnone]) he
    · exact h.replaced k l hk
  · obtain ⟨hlt, l', hl', hsubject⟩ := h.successor k l n (hback k l n hk hsucc) hsucc
    obtain ⟨l'', hl'', hsubject'⟩ := exists_revoke p e hl'
    exact ⟨hlt, l'', hl'', hsubject'.trans hsubject⟩
  · exact h.injective k k' l l' n (hback k l n hk hsucc) (hback k' l' n hk' hsucc') hsucc hsucc'

/-- The rows after a renewal: the old one with its successor, and those of an issuance. -/
theorem renew_eq_some {old n k : ℕ} {subject : τ} {e : ε} {l : Link τ ε}
    (h : c.renew blank old n subject e k = some l) :
    (k = old ∧ l = ⟨subject, true, e, some n⟩) ∨
      (k ≠ old ∧ c.issue blank n subject k = some l) := by
  rw [renew] at h
  by_cases hk : k = old
  · rw [hk, Function.update_self] at h
    exact .inl ⟨hk, (Option.some.inj h).symm⟩
  · rw [Function.update_of_ne hk] at h
    exact .inr ⟨hk, h⟩

/-- A row stays under a renewal, with its subject. -/
theorem exists_renew (blank e : ε) {old n k : ℕ} {l l' : Link τ ε} (hn : c.Below n)
    (hold : c old = some l) (hk : c k = some l') :
    ∃ l'', c.renew blank old n l.subject e k = some l'' ∧ l''.subject = l'.subject := by
  rw [renew]
  by_cases hkold : k = old
  · rw [hkold] at hk ⊢
    rw [hold] at hk
    cases hk
    exact ⟨_, Function.update_self .., rfl⟩
  · rw [Function.update_of_ne hkold, issue_of_lt (hn k l' hk)]
    exact ⟨l', hk, rfl⟩

theorem Linked.renew {old n : ℕ} {l : Link τ ε} {e : ε} (hblank : ¬ renewed blank)
    (h : Linked renewed c) (hold : c old = some l) (hn : c.Below n) (he : renewed e) :
    Linked renewed (c.renew blank old n l.subject e) := by
  have hissue : Linked renewed (c.issue blank n l.subject) := h.issue hblank l.subject hn
  have hlt : old < n := hn old l hold
  -- Nobody but the old row has the new row as its successor.
  have hnew : ∀ k l', c.issue blank n l.subject k = some l' → l'.replacedBy ≠ some n := by
    intro k l' hk
    rcases issue_eq_some hn hk with ⟨-, rfl⟩ | ⟨-, hk⟩
    · exact fun h => nomatch h
    · exact h.not_successor hn hk
  refine ⟨fun k l' hk hlive => ?_, fun k l' hk => ?_, fun k l' m hk hsucc => ?_,
    fun k k' l₁ l₂ m hk hk' hsucc hsucc' => ?_⟩
  · rcases renew_eq_some hk with ⟨-, rfl⟩ | ⟨-, hk⟩
    · exact nomatch hlive
    · exact hissue.live k l' hk hlive
  · rcases renew_eq_some hk with ⟨-, rfl⟩ | ⟨-, hk⟩
    · exact iff_of_true rfl he
    · exact hissue.replaced k l' hk
  · rcases renew_eq_some hk with ⟨rfl, rfl⟩ | ⟨-, hk⟩
    · cases hsucc
      refine ⟨hlt, ⟨l.subject, false, blank, none⟩, ?_, rfl⟩
      rw [Chain.renew, Function.update_of_ne (Nat.ne_of_gt hlt), Chain.issue, Function.update_self]
    · rcases issue_eq_some hn hk with ⟨-, rfl⟩ | ⟨-, hk⟩
      · exact nomatch hsucc
      · obtain ⟨hkm, l'', hl'', hsubject⟩ := h.successor k l' m hk hsucc
        obtain ⟨l₃, hl₃, hsubject'⟩ := exists_renew blank e hn hold hl''
        exact ⟨hkm, l₃, hl₃, hsubject'.trans hsubject⟩
  · rcases renew_eq_some hk with ⟨hkold, rfl⟩ | ⟨-, hkissue⟩ <;>
      rcases renew_eq_some hk' with ⟨hkold', rfl⟩ | ⟨-, hkissue'⟩
    · exact hkold.trans hkold'.symm
    · cases hsucc
      exact absurd hsucc' (hnew k' l₂ hkissue')
    · cases hsucc'
      exact absurd hsucc (hnew k l₁ hkissue)
    · exact hissue.injective k k' l₁ l₂ m hkissue hkissue' hsucc hsucc'

theorem Linked.step (hblank : ¬ renewed blank) (h : Linked renewed c)
    (hstep : Step blank renewed c d) : Linked renewed d := by
  cases hstep with
  | issue subject hn => exact h.issue hblank subject hn
  | revoke p he hp => exact h.revoke he hp
  | renew hold _ hn he => exact h.renew hblank hold hn he

/-- A sequence of writes keeps the rows linked. -/
theorem Linked.steps (hblank : ¬ renewed blank) (h : Linked renewed c)
    (hsteps : Steps blank renewed c d) : Linked renewed d := by
  induction hsteps with
  | refl => exact h
  | tail _ hstep ih => exact ih.step hblank hstep

/-! ### Revoked rows are not written -/

/-- Every row of `c` is in `d`, and is the same there if it is revoked. -/
def Preserves (c d : Chain τ ε) : Prop :=
  ∀ k l, c k = some l → ∃ l', d k = some l' ∧ (l.revoked → l' = l)

theorem preserves_of_step (h : Step blank renewed c d) : Preserves c d := by
  intro k l hk
  cases h with
  | issue subject hn => exact ⟨l, by rw [issue_of_lt (hn k l hk), hk], fun _ => rfl⟩
  | revoke p _ hp =>
    by_cases hpk : p k
    · refine ⟨_, by rw [revoke, if_pos hpk, hk]; rfl, fun hrevoked => ?_⟩
      rw [hp k hpk l hk] at hrevoked
      exact nomatch hrevoked
    · exact ⟨l, by rw [revoke, if_neg hpk, hk], fun _ => rfl⟩
  | @renew old n l₀ e hold hlive hn _ =>
    by_cases hkold : k = old
    · rw [hkold, hold] at hk
      cases hk
      refine ⟨_, by rw [hkold, renew, Function.update_self], fun hrevoked => ?_⟩
      rw [hlive] at hrevoked
      exact nomatch hrevoked
    · refine ⟨l, ?_, fun _ => rfl⟩
      rw [renew, Function.update_of_ne hkold, issue_of_lt (hn k l hk), hk]

theorem Preserves.trans {c' : Chain τ ε} (h : Preserves c d) (h' : Preserves d c') :
    Preserves c c' := by
  intro k l hk
  obtain ⟨l', hl', heq⟩ := h k l hk
  obtain ⟨l'', hl'', heq'⟩ := h' k l' hl'
  refine ⟨l'', hl'', fun hrevoked => ?_⟩
  have hl : l' = l := heq hrevoked
  rw [hl] at heq'
  exact heq' hrevoked

/-- A sequence of writes leaves revoked rows as they are. -/
theorem preserves_of_steps (h : Steps blank renewed c d) : Preserves c d := by
  induction h with
  | refl => exact fun _ l hk => ⟨l, hk, fun _ => rfl⟩
  | tail _ hstep ih => exact ih.trans (preserves_of_step hstep)

end Chain
