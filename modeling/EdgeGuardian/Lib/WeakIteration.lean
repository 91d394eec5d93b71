import Mathlib.Data.Finset.Card
import Mathlib.Data.Finset.SDiff

/-!
# Weakly consistent iteration

An iteration over the keys of a concurrent map visits every key that is in the map from its
beginning to its end, and no key twice. Keys that come or go while it runs may be visited or not.

## Main definitions

* `WeakIteration`: the keys that were there at the beginning and have not been visited, and those
  visited.
* `WeakIteration.MayVisit`, `WeakIteration.Done`: when a key may be visited, and when the iteration
  may end.
* `WeakIteration.Covers`: every key of a set has been visited or is still to be.

## Main results

* `WeakIteration.Covers.subset_seen`: an iteration that is done has visited every key of the map
  that it covers, so every key, unless one was put meanwhile.
-/

/-- An iteration in progress. -/
structure WeakIteration (κ : Type*) where
  rest : Finset κ
  seen : Finset κ
deriving DecidableEq

namespace WeakIteration

variable {κ : Type*} [DecidableEq κ]

/-- The beginning of an iteration over a map with the keys `map`. -/
def start (map : Finset κ) : WeakIteration κ := ⟨map, ∅⟩

/-- The iteration visits the key `k`. -/
def visit (w : WeakIteration κ) (k : κ) : WeakIteration κ := ⟨w.rest.erase k, insert k w.seen⟩

/-- The key `k` was in the map at the beginning, or is in it now, and has not been visited. -/
def MayVisit (map : Finset κ) (w : WeakIteration κ) (k : κ) : Prop :=
  (k ∈ w.rest ∨ k ∈ map) ∧ k ∉ w.seen

/-- No key is left that has been in the map since the beginning. -/
def Done (map : Finset κ) (w : WeakIteration κ) : Prop := Disjoint w.rest map

instance (map : Finset κ) (w : WeakIteration κ) (k : κ) : Decidable (w.MayVisit map k) :=
  inferInstanceAs (Decidable (_ ∧ _))

instance (map : Finset κ) (w : WeakIteration κ) : Decidable (w.Done map) :=
  inferInstanceAs (Decidable (Disjoint _ _))

/-- Every key of the set has been visited, or is still to be visited. -/
def Covers (map : Finset κ) (w : WeakIteration κ) : Prop := map ⊆ w.rest ∪ w.seen

variable {map map' : Finset κ} {w : WeakIteration κ}

theorem covers_start (map : Finset κ) : (start map).Covers map :=
  Finset.subset_union_left

theorem Covers.visit (h : w.Covers map) (k : κ) : (w.visit k).Covers map := by
  intro k' hk'
  by_cases heq : k' = k
  · simp [WeakIteration.visit, heq]
  · simpa [WeakIteration.visit, heq] using h hk'

/-- Keys that go do not matter. -/
theorem Covers.mono (h : w.Covers map) (hmap : map' ⊆ map) : w.Covers map' := hmap.trans h

/-- An iteration that is done has visited every key that it covers and that is in the map. -/
theorem Covers.subset_seen (h : w.Covers map') (hmap : map' ⊆ map) (hdone : w.Done map) :
    map' ⊆ w.seen := by
  intro k hk
  rcases Finset.mem_union.mp (h hk) with hrest | hseen
  · exact absurd (hmap hk) (Finset.disjoint_left.mp hdone hrest)
  · exact hseen

end WeakIteration
