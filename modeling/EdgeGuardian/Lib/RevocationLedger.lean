import Mathlib.Data.Nat.Notation
import Mathlib.Data.Set.Insert
import Mathlib.Logic.Function.Basic
import Mathlib.Logic.Relation

/-!
# Ledgers of certificates and published revocation lists

A ledger holds rows and, for every publisher, the last list of serials that it published, if any.
Rows are issued, revoked in groups, and forgotten; a group revocation is followed by a publication
for one publisher, which lists the revoked rows that belong to it. What must hold of the published
lists then depends only on which rows a revocation takes, which rows are forgotten and which
serials are used for new rows.

## Main definitions

* `Ledger`, `Ledger.issue`, `Ledger.revise`, `Ledger.publish`, `Ledger.forget`.
* `Ledger.Step`: the steps of a ledger, with conditions on the rows concerned.
* `Ledger.Complete`: every revoked row is listed by its publisher.
* `Ledger.Sound`: serials are unique, and rows that are listed are revoked.

## Main results

* `Ledger.Complete.step`: completeness is kept when a revocation takes only rows of the publisher.
* `Ledger.Sound.step`: soundness is kept when no listed serial is issued again.
* `Ledger.Remembered.step`: a revoked row that is listed stays listed while it is not forgotten.
-/

/-- The rows and the published lists. -/
structure Ledger (C O S : Type*) where
  rows : Set C
  published : O → Option (Set S)

namespace Ledger

variable {C O S : Type*}

/-- What a row says: the publisher it belongs to, its serial, until when it is valid, and whether
it is revoked. -/
structure Columns (C O S : Type*) where
  org : C → O
  serial : C → S
  expires : C → ℕ
  revoked : C → Prop

/-- A change of rows that revokes them and changes nothing else that they say. -/
structure Columns.Revises (K : Columns C O S) (f : C → C) : Prop where
  org : ∀ c, K.org (f c) = K.org c
  serial : ∀ c, K.serial (f c) = K.serial c
  expires : ∀ c, K.expires (f c) = K.expires c
  revoked : ∀ c, K.revoked (f c)

/-- Add a row. -/
def issue (L : Ledger C O S) (c : C) : Ledger C O S := { L with rows := insert c L.rows }

/-- Change the rows that meet `p` by `f`. -/
def revise (L : Ledger C O S) (p : C → Prop) (f : C → C) : Ledger C O S :=
  { L with rows := {c | (∃ b ∈ L.rows, p b ∧ f b = c) ∨ (c ∈ L.rows ∧ ¬ p c)} }

theorem revise_revise {L : Ledger C O S} {p : C → Prop} {f g : C → C} (h : ∀ c, p c → p (f c)) :
    (L.revise p f).revise p g = L.revise p (g ∘ f) := by
  rw [revise]
  congr 1
  ext c
  simp only [Set.mem_ofPred_eq, Function.comp_apply]
  constructor
  · rintro (⟨b, ⟨a, ha, hpa, rfl⟩ | ⟨-, hnp⟩, hpb, rfl⟩ | ⟨⟨a, ha, hpa, rfl⟩ | hc, hnp⟩)
    · exact .inl ⟨a, ha, hpa, rfl⟩
    · exact absurd hpb hnp
    · exact absurd (h a hpa) hnp
    · exact .inr hc
  · rintro (⟨a, ha, hpa, rfl⟩ | hc)
    · exact .inl ⟨f a, .inl ⟨a, ha, hpa, rfl⟩, h a hpa, rfl⟩
    · exact .inr ⟨.inr hc, hc.2⟩

/-- Take out the rows that meet `p`. -/
def forget (L : Ledger C O S) (p : C → Prop) : Ledger C O S :=
  { L with rows := {c | c ∈ L.rows ∧ ¬ p c} }

/-- The serial is on the list of `o`. -/
def Listed (L : Ledger C O S) (o : O) (s : S) : Prop := ∃ l ∈ L.published o, s ∈ l

/-- Every revoked row is on the list of its publisher. -/
def Complete (K : Columns C O S) (L : Ledger C O S) : Prop :=
  ∀ c ∈ L.rows, K.revoked c → L.Listed (K.org c) (K.serial c)

/-- Serials tell the rows apart, and a row whose serial its publisher lists is revoked. -/
structure Sound (K : Columns C O S) (L : Ledger C O S) : Prop where
  unique : ∀ b ∈ L.rows, ∀ c ∈ L.rows, K.serial b = K.serial c → b = c
  revoked : ∀ c ∈ L.rows, L.Listed (K.org c) (K.serial c) → K.revoked c

theorem Sound.unique_revise {K : Columns C O S} {L : Ledger C O S} {p : C → Prop} {f : C → C}
    (hf : K.Revises f) (hL : Sound K L) :
    ∀ b ∈ (L.revise p f).rows, ∀ c ∈ (L.revise p f).rows, K.serial b = K.serial c → b = c := by
  -- Both rows come from rows of `L` with the same serials, which are equal.
  rintro b (⟨b₀, hb₀, hpb, rfl⟩ | ⟨hb, hpb⟩) c (⟨c₀, hc₀, hpc, rfl⟩ | ⟨hc, hpc⟩) hs
  · rw [hf.serial, hf.serial] at hs
    rw [hL.unique b₀ hb₀ c₀ hc₀ hs]
  · rw [hf.serial] at hs
    exact absurd (hL.unique b₀ hb₀ c hc hs ▸ hpb) hpc
  · rw [hf.serial] at hs
    exact absurd (hL.unique b hb c₀ hc₀ hs ▸ hpc) hpb
  · exact hL.unique b hb c hc hs

/-- The row `b` is what became of the row `c`: it says the same, and is revoked if `c` was. -/
structure Columns.Follows (K : Columns C O S) (c b : C) : Prop where
  org : K.org b = K.org c
  serial : K.serial b = K.serial c
  expires : K.expires b = K.expires c
  revoked : K.revoked c → K.revoked b

theorem Columns.Follows.refl (K : Columns C O S) (c : C) : K.Follows c c := ⟨rfl, rfl, rfl, id⟩

/-- Some row of the ledger is what became of `c`. -/
def Present (K : Columns C O S) (L : Ledger C O S) (c : C) : Prop :=
  ∃ b ∈ L.rows, K.Follows c b

/-- What became of `c` is revoked, and its publisher lists it. -/
def Remembered (K : Columns C O S) (L : Ledger C O S) (c : C) : Prop :=
  (∃ b ∈ L.rows, K.Follows c b ∧ K.revoked b) ∧ L.Listed (K.org c) (K.serial c)

theorem present_of_mem {K : Columns C O S} {L : Ledger C O S} {c : C} (h : c ∈ L.rows) :
    Present K L c :=
  ⟨c, h, .refl K c⟩

/-- In a sound ledger a row that is present and listed is remembered. -/
theorem Sound.remembered {K : Columns C O S} {L : Ledger C O S} {c : C} (hL : Sound K L)
    (hc : Present K L c) (hlisted : L.Listed (K.org c) (K.serial c)) : Remembered K L c := by
  obtain ⟨b, hb, hbc⟩ := hc
  refine ⟨⟨b, hb, hbc, hL.revoked b hb ?_⟩, hlisted⟩
  rwa [hbc.org, hbc.serial]

section Publish

variable [DecidableEq O]

/-- Publish the list of `o`: the serials of its revoked rows. -/
def publish (K : Columns C O S) (L : Ledger C O S) (o : O) : Ledger C O S :=
  { L with
    published := Function.update L.published o
      (some {s | ∃ c ∈ L.rows, K.org c = o ∧ K.revoked c ∧ K.serial c = s}) }

/-- The conditions that a run puts on the rows that its steps concern. -/
structure Policy (C O : Type*) where
  /-- A row may be revoked in a revocation that is followed by the publication of a list. -/
  revoke : C → O → Prop
  /-- A row may be forgotten. -/
  forget : C → Prop
  /-- Serials that are on the list of their publisher are not issued again. -/
  fresh : Prop

/-- The steps of a ledger under a policy: a row with an unused serial is issued, some rows are
revoked and one list is published, or some rows are forgotten. -/
inductive Step (K : Columns C O S) (P : Policy C O) : Ledger C O S → Ledger C O S → Prop
  | issue {L : Ledger C O S} {c : C} (hc : ¬ K.revoked c)
      (hunused : ∀ b ∈ L.rows, K.serial b ≠ K.serial c)
      (hP : P.fresh → ¬ L.Listed (K.org c) (K.serial c)) : Step K P L (L.issue c)
  | revoke {L : Ledger C O S} {p : C → Prop} {f : C → C} (o : O) (hf : K.Revises f)
      (hP : ∀ c ∈ L.rows, p c → P.revoke c o) : Step K P L (publish K (L.revise p f) o)
  | forget {L : Ledger C O S} {p : C → Prop} (hP : ∀ c ∈ L.rows, p c → P.forget c) :
      Step K P L (L.forget p)

/-- Finitely many steps under a policy. -/
abbrev Steps (K : Columns C O S) (P : Policy C O) : Ledger C O S → Ledger C O S → Prop :=
  Relation.ReflTransGen (Step K P)

variable {K : Columns C O S} {P : Policy C O} {L L' : Ledger C O S}

theorem listed_publish_self {o : O} {s : S} : (publish K L o).Listed o s ↔
    ∃ c ∈ L.rows, K.org c = o ∧ K.revoked c ∧ K.serial c = s := by
  simp [Listed, publish]

/-- A serial that no row has is not on a list just published. -/
theorem not_listed_publish_self {o : O} {s : S} (h : ∀ c ∈ L.rows, K.serial c ≠ s) :
    ¬ (publish K L o).Listed o s := by
  rw [listed_publish_self]
  rintro ⟨c, hc, -, -, hs⟩
  exact h c hc hs

theorem listed_publish_of_ne {o o' : O} (h : o' ≠ o) {s : S} :
    (publish K L o).Listed o' s ↔ L.Listed o' s := by
  simp [Listed, publish, h]

/-! ### Completeness -/

/-- **Completeness.** A revocation that takes only rows of the publisher whose list follows keeps
every revoked row listed. -/
theorem Complete.step (hP : ∀ c o, P.revoke c o → K.org c = o) (hL : Complete K L)
    (h : Step K P L L') : Complete K L' := by
  cases h with
  | issue hc _ _ =>
    intro c hmem hrev
    rcases hmem with rfl | hmem
    · exact absurd hrev hc
    · exact hL c hmem hrev
  | revoke o hf hrevoke =>
    intro c hmem hrev
    by_cases ho : K.org c = o
    · rw [ho]
      exact listed_publish_self.mpr ⟨c, hmem, ho, hrev, rfl⟩
    · rw [listed_publish_of_ne ho]
      rcases hmem with ⟨b, hb, hp, rfl⟩ | ⟨hmem, -⟩
      · have hb' := hP b o (hrevoke b hb hp)
        rw [hf.org] at ho
        exact absurd hb' ho
      · exact hL c hmem hrev
  | forget _ => exact fun c hmem hrev => hL c hmem.1 hrev

theorem Complete.steps (hP : ∀ c o, P.revoke c o → K.org c = o) (hL : Complete K L)
    (h : Steps K P L L') : Complete K L' := by
  induction h with
  | refl => exact hL
  | tail _ hstep ih => exact ih.step hP hstep

/-! ### Soundness and memory -/

/-- **Soundness.** It is kept when no serial is issued that its publisher lists. -/
theorem Sound.step (hP : P.fresh) (hL : Sound K L) (h : Step K P L L') : Sound K L' := by
  cases h with
  | @issue c hc hunused hissue =>
    constructor
    · rintro b (rfl | hb) d (rfl | hd) hs
      · rfl
      · exact absurd hs.symm (hunused d hd)
      · exact absurd hs (hunused b hb)
      · exact hL.unique b hb d hd hs
    · rintro d (rfl | hd) hlisted
      · exact absurd hlisted (hissue hP)
      · exact hL.revoked d hd hlisted
  | @revoke p f o hf _ =>
    have hunique := hL.unique_revise (p := p) hf
    refine ⟨hunique, fun c hmem hlisted => ?_⟩
    by_cases ho : K.org c = o
    · rw [ho, listed_publish_self] at hlisted
      obtain ⟨b, hb, -, hrev, hs⟩ := hlisted
      rwa [hunique b hb c hmem hs] at hrev
    · rw [listed_publish_of_ne ho] at hlisted
      rcases hmem with ⟨b, -, -, rfl⟩ | ⟨hmem, -⟩
      · exact hf.revoked b
      · exact hL.revoked c hmem hlisted
  | forget _ =>
    exact ⟨fun b hb c hc => hL.unique b hb.1 c hc.1, fun c hc => hL.revoked c hc.1⟩

theorem Sound.steps (hP : P.fresh) (hL : Sound K L) (h : Steps K P L L') : Sound K L' := by
  induction h with
  | refl => exact hL
  | tail _ hstep ih => exact ih.step hP hstep

/-- A row that a step may not forget is followed by a row after the step. -/
theorem exists_follows_of_step {b c : C} (hkeep : ∀ b, K.expires b = K.expires c → ¬ P.forget b)
    (hb : b ∈ L.rows) (hbc : K.Follows c b) (h : Step K P L L') :
    ∃ d ∈ L'.rows, K.Follows c d ∧ (K.revoked b → K.revoked d) := by
  cases h with
  | issue _ _ _ => exact ⟨b, .inr hb, hbc, id⟩
  | @revoke p f o hf _ =>
    by_cases hp : p b
    · refine ⟨f b, .inl ⟨b, hb, hp, rfl⟩, ⟨?_, ?_, ?_, fun _ => hf.revoked b⟩,
        fun _ => hf.revoked b⟩
      · rw [hf.org, hbc.org]
      · rw [hf.serial, hbc.serial]
      · rw [hf.expires, hbc.expires]
    · exact ⟨b, .inr ⟨hb, hp⟩, hbc, id⟩
  | @forget p hforget =>
    have hp : ¬ p b := fun hp => hkeep b hbc.expires (hforget b hb hp)
    exact ⟨b, ⟨hb, hp⟩, hbc, id⟩

theorem Present.step {c : C} (hkeep : ∀ b, K.expires b = K.expires c → ¬ P.forget b)
    (hL : Present K L c) (h : Step K P L L') : Present K L' c := by
  obtain ⟨b, hb, hbc⟩ := hL
  obtain ⟨d, hd, hcd, -⟩ := exists_follows_of_step hkeep hb hbc h
  exact ⟨d, hd, hcd⟩

/-- **Memory.** A revoked row that its publisher lists stays listed while it is not forgotten:
every list of that publisher is made of the revoked rows, and the row is one of them. -/
theorem Remembered.step {c : C} (hkeep : ∀ b, K.expires b = K.expires c → ¬ P.forget b)
    (hL : Remembered K L c) (h : Step K P L L') : Remembered K L' c := by
  obtain ⟨⟨b, hb, hbc, hrev⟩, hlisted⟩ := hL
  obtain ⟨d, hd, hcd, hrev'⟩ := exists_follows_of_step hkeep hb hbc h
  refine ⟨⟨d, hd, hcd, hrev' hrev⟩, ?_⟩
  cases h with
  | issue _ _ _ => exact hlisted
  | @revoke p f o _ _ =>
    by_cases ho : K.org c = o
    · rw [ho]
      exact listed_publish_self.mpr ⟨d, hd, hcd.org.trans ho, hrev' hrev, hcd.serial⟩
    · rw [listed_publish_of_ne ho]
      exact hlisted
  | forget _ => exact hlisted

theorem Present.steps {c : C} (hkeep : ∀ b, K.expires b = K.expires c → ¬ P.forget b)
    (hL : Present K L c) (h : Steps K P L L') : Present K L' c := by
  induction h with
  | refl => exact hL
  | tail _ hstep ih => exact ih.step hkeep hstep

theorem Remembered.steps {c : C} (hkeep : ∀ b, K.expires b = K.expires c → ¬ P.forget b)
    (hL : Remembered K L c) (h : Steps K P L L') : Remembered K L' c := by
  induction h with
  | refl => exact hL
  | tail _ hstep ih => exact ih.step hkeep hstep

end Publish

end Ledger
