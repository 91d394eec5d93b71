import EdgeGuardian.Lib.Transition
import Mathlib.Data.Set.Basic

/-!
# Rights that are held and rights that are offered

Subjects hold rights, and rights are offered to addresses: whoever proves an address may redeem the
offer. Between two states nothing is gained if every right that is held was held before, or was
offered to an address that its holder has proved, and if no offer is new. Rights and offers may be
withdrawn at any time.

## Main definitions

* `Rights`: the rights that are held and offered.
* `Rights.Within`: nothing is gained, but by redeeming offers.

## Main results

* `Rights.Within.trans`: what two stretches of a run do not gain, the run does not gain.
* `Rights.within_of_reaches`: a run whose steps gain nothing gains nothing.
-/

/-- Rights of subjects `S`, and rights that are offered to addresses `A`. -/
structure Rights (S A R : Type*) where
  held : Set (S × R)
  offered : Set (A × R)

namespace Rights

variable {S A R : Type*} {Proves Proves' : S → A → Prop} {old new newer : Rights S A R}

/-- Nothing is gained from the old state to the new one, but by subjects who have proved the address
of an offer. -/
structure Within (Proves : S → A → Prop) (old new : Rights S A R) : Prop where
  held : ∀ s r, (s, r) ∈ new.held → (s, r) ∈ old.held ∨ ∃ a, Proves s a ∧ (a, r) ∈ old.offered
  offered : new.offered ⊆ old.offered

namespace Within

/-- Rights and offers are withdrawn. -/
theorem of_subset (hheld : new.held ⊆ old.held) (hoffered : new.offered ⊆ old.offered) :
    Within Proves old new :=
  ⟨fun _ _ h => .inl (hheld h), hoffered⟩

protected theorem refl (old : Rights S A R) : Within Proves old old :=
  of_subset subset_rfl subset_rfl

/-- Who has proved an address stays someone who has. -/
theorem mono (h : Within Proves old new) (hproves : ∀ s a, Proves s a → Proves' s a) :
    Within Proves' old new where
  held s r hr := (h.held s r hr).imp_right fun ⟨a, ha, hoffer⟩ => ⟨a, hproves s a ha, hoffer⟩
  offered := h.offered

theorem trans (h : Within Proves old new) (h' : Within Proves new newer) :
    Within Proves old newer where
  held s r hr := by
    rcases h'.held s r hr with hnew | ⟨a, ha, hoffer⟩
    · exact h.held s r hnew
    · exact .inr ⟨a, ha, h.offered hoffer⟩
  offered := h'.offered.trans h.offered

end Within

open Transition

/-- **Nothing is gained in a run** whose steps gain nothing, by the subjects who have proved an
address at its end. -/
theorem within_of_reaches {σ α : Type*} {step : σ → α → Option σ} {ok : σ → α → Prop}
    (rights : σ → Rights S A R) (ProvesIn : σ → S → A → Prop) (Good : σ → Prop)
    (hgood : ∀ {s a t}, Good s → ok s a → step s a = some t → Good t)
    (hproves : ∀ {s a t}, step s a = some t → ∀ u b, ProvesIn s u b → ProvesIn t u b)
    (hstep : ∀ {s a t}, Good s → ok s a → step s a = some t →
      Within (ProvesIn t) (rights s) (rights t))
    {s t : σ} (h : Reaches step ok s t) (hs : Good s) :
    Within (ProvesIn t) (rights s) (rights t) := by
  suffices Good t ∧ Within (ProvesIn t) (rights s) (rights t) from this.2
  induction h with
  | refl => exact ⟨hs, .refl _⟩
  | tail _ hst ih =>
    obtain ⟨a, hok, ha⟩ := hst
    exact ⟨hgood ih.1 hok ha, (ih.2.mono (hproves ha)).trans (hstep ih.1 hok ha)⟩

end Rights
