import Mathlib.Data.Finset.Card
import Mathlib.Data.Nat.Find
import Mathlib.Logic.Function.Iterate

/-!
# The search for a name that is not taken

A loop tries one name after the other until it finds one that is not taken; a counter, or another
state, says which name is next. If the names are pairwise different, then among the first of them,
one more than there are names that are taken, one is free: the loop ends, and it has taken no more
turns than there are names that are taken.

## Main definitions

* `FreshName.search`: the loop.
* `FreshName.after`: the name and the state after some turns.

## Main results

* `FreshName.search_eq_some`: the loop ends at the first name that is free.
* `FreshName.exists_turn`: there is such a name.
* `FreshName.exists_search_eq_some`: both together.
-/

namespace FreshName

variable {α σ : Type*} {taken : α → Bool} {next : σ → α × σ} {p : α × σ} {n fuel : ℕ}

/-- The loop, which tells the number of its turns; it is given up when `fuel` turns are over. -/
def search (taken : α → Bool) (next : σ → α × σ) : ℕ → α × σ → Option (α × ℕ)
  | 0, p => if taken p.1 then none else some (p.1, 0)
  | fuel + 1, p =>
    if taken p.1 then (search taken next fuel (next p.2)).map fun r => (r.1, r.2 + 1)
    else some (p.1, 0)

/-- What the loop has after some turns, if it has not ended. -/
def after (next : σ → α × σ) (p : α × σ) (n : ℕ) : α × σ := (fun q : α × σ => next q.2)^[n] p

theorem after_succ : after next p (n + 1) = next (after next p n).2 :=
  Function.iterate_succ_apply' _ n p

theorem after_next : after next (next p.2) n = after next p (n + 1) :=
  (Function.iterate_succ_apply _ n p).symm

/-- **The loop ends** at the first name that is free. -/
theorem search_eq_some (hn : n ≤ fuel) (htaken : ∀ m < n, taken (after next p m).1)
    (hfree : taken (after next p n).1 = false) :
    search taken next fuel p = some ((after next p n).1, n) := by
  induction n generalizing p fuel with
  | zero =>
    have hfirst : taken p.1 = false := hfree
    rcases fuel with _ | fuel <;> rw [search, hfirst] <;> rfl
  | succ n ih =>
    obtain ⟨fuel, rfl⟩ := Nat.exists_eq_add_one.mpr (Nat.zero_lt_of_lt hn)
    have hfirst : taken p.1 = true := htaken 0 (Nat.succ_pos n)
    have hrest : search taken next fuel (next p.2) = some ((after next (next p.2) n).1, n) := by
      refine ih (Nat.le_of_succ_le_succ hn) (fun m hm => ?_) ?_
      · rw [after_next]
        exact htaken (m + 1) (Nat.succ_lt_succ hm)
      · rwa [after_next]
    rw [search, if_pos hfirst, hrest, after_next]
    rfl

/-- Of names that are pairwise different, one of the first is free. -/
theorem exists_turn (S : Finset α) {name : ℕ → α} (hinj : Set.InjOn name (Set.Iic S.card)) :
    ∃ n ≤ S.card, name n ∉ S ∧ ∀ m < n, name m ∈ S := by
  classical
  have hcard : S.card < ((Finset.range (S.card + 1)).image name).card := by
    rw [Finset.card_image_of_injOn, Finset.card_range]
    · exact Nat.lt_succ_self _
    · exact hinj.mono fun n hn => Nat.le_of_lt_succ (Finset.mem_range.mp hn)
  have hfree : ∃ n, n ≤ S.card ∧ name n ∉ S := by
    obtain ⟨_, himage, hnot⟩ := Finset.exists_mem_notMem_of_card_lt_card hcard
    obtain ⟨n, hn, rfl⟩ := Finset.mem_image.mp himage
    exact ⟨n, Nat.le_of_lt_succ (Finset.mem_range.mp hn), hnot⟩
  obtain ⟨hle, hnot⟩ := Nat.find_spec hfree
  refine ⟨Nat.find hfree, hle, hnot, fun m hm => ?_⟩
  by_contra hmem
  exact Nat.find_min hfree hm ⟨hm.le.trans hle, hmem⟩

/-- **The search for a name** that is not in a finite set. -/
theorem exists_search_eq_some [DecidableEq α] (S : Finset α)
    (hinj : Set.InjOn (fun n => (after next p n).1) (Set.Iic S.card)) :
    ∃ n ≤ S.card, (after next p n).1 ∉ S ∧ (∀ m < n, (after next p m).1 ∈ S) ∧
      ∀ fuel, n ≤ fuel →
        search (fun a => decide (a ∈ S)) next fuel p = some ((after next p n).1, n) := by
  obtain ⟨n, hle, hfree, htaken⟩ := exists_turn S hinj
  refine ⟨n, hle, hfree, htaken, fun fuel hn => ?_⟩
  exact search_eq_some hn (fun m hm => decide_eq_true (htaken m hm)) (decide_eq_false hfree)

end FreshName
