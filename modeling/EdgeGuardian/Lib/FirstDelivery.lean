import Mathlib.Data.List.Basic
import Mathlib.Order.Lattice

/-!
# The order of first deliveries

A sender holds a list of items that it still has to deliver and works it off from the front. An
item may be delivered more than once, since a sender that hears no answer keeps it. What a receiver
can be promised is an order of the *first* deliveries: an item that is delivered again changes
nothing.

The items are linearly ordered by the time at which the sender has received them. Only the items
that have not been delivered yet have to wait in this order; an item that has been delivered may
wait anywhere.

## Main definitions

* `FirstDelivery.FirstsInOrder`: the first deliveries are in the order of the items.
* `FirstDelivery.Ordered`: the invariant of what is delivered and what waits.

## Main results

* `FirstDelivery.Ordered.deliver`, `FirstDelivery.Ordered.sublist`, `FirstDelivery.Ordered.store`,
  `FirstDelivery.Ordered.putBack`: the operations of a sender that keep the invariant.
-/

namespace FirstDelivery

variable {α : Type*} [LinearOrder α] {delivered pending : List α} {a : α}

/-- Of two items that are delivered, the smaller one is delivered first. -/
def FirstsInOrder (delivered : List α) : Prop :=
  ∀ a ∈ delivered, ∀ b ∈ delivered, a < b → delivered.idxOf a < delivered.idxOf b

instance (delivered : List α) : Decidable (FirstsInOrder delivered) :=
  inferInstanceAs (Decidable (∀ a ∈ delivered, _))

/-- Delivering an item again keeps the order of the first deliveries. -/
theorem FirstsInOrder.append_of_mem (h : FirstsInOrder delivered) (ha : a ∈ delivered) :
    FirstsInOrder (delivered ++ [a]) := by
  have hmem : ∀ b ∈ delivered ++ [a], b ∈ delivered := by
    intro b hb
    rcases List.mem_append.mp hb with hb | hb
    · exact hb
    · rw [List.mem_singleton.mp hb]
      exact ha
  intro b hb c hc hlt
  rw [List.idxOf_append_of_mem (hmem b hb), List.idxOf_append_of_mem (hmem c hc)]
  exact h b (hmem b hb) c (hmem c hc) hlt

/-- Delivering an item that is greater than all before keeps the order of the first deliveries. -/
theorem FirstsInOrder.append_of_lt (h : FirstsInOrder delivered) (ha : ∀ b ∈ delivered, b < a) :
    FirstsInOrder (delivered ++ [a]) := by
  intro b hb c hc hlt
  have hb' : b ∈ delivered := by
    rcases List.mem_append.mp hb with hb | hb
    · exact hb
    · obtain rfl := List.mem_singleton.mp hb
      rcases List.mem_append.mp hc with hc | hc
      · exact absurd hlt (ha c hc).not_gt
      · exact absurd (List.mem_singleton.mp hc) hlt.ne'
  rw [List.idxOf_append_of_mem hb']
  by_cases hc' : c ∈ delivered
  · rw [List.idxOf_append_of_mem hc']
    exact h b hb' c hc' hlt
  · rw [List.idxOf_append_of_notMem hc']
    exact Nat.lt_add_right _ (List.idxOf_lt_length_of_mem hb')

/-- The first deliveries so far are in order, and the items that wait for their first delivery wait
in order, behind everything that has been delivered. -/
structure Ordered (delivered pending : List α) : Prop where
  /-- The deliveries so far. -/
  firsts : FirstsInOrder delivered
  /-- What is still to be delivered comes later than what has been delivered. -/
  behind : ∀ a ∈ delivered, ∀ b ∈ pending, b ∉ delivered → a < b
  /-- What is still to be delivered waits in order. -/
  sorted : pending.Pairwise fun a b => a ∉ delivered → b ∉ delivered → a < b

/-- The item in front is delivered. It may still wait: the sender need not know. -/
theorem Ordered.deliver (h : Ordered delivered (a :: pending)) :
    Ordered (delivered ++ [a]) (a :: pending) := by
  obtain ⟨hfront, -⟩ := List.pairwise_cons.mp h.sorted
  have hnew : ∀ {b}, b ∉ delivered ++ [a] → b ∉ delivered :=
    fun hb hmem => hb (List.mem_append_left _ hmem)
  have hself : a ∈ delivered ++ [a] := List.mem_append_right _ List.mem_cons_self
  refine ⟨?_, ?_, h.sorted.imp fun hlt hb hc => hlt (hnew hb) (hnew hc)⟩
  · by_cases ha : a ∈ delivered
    · exact h.firsts.append_of_mem ha
    · exact h.firsts.append_of_lt fun b hb => h.behind b hb a List.mem_cons_self ha
  · intro b hb c hc hfresh
    rcases List.mem_append.mp hb with hb | hb
    · exact h.behind b hb c hc (hnew hfresh)
    · obtain rfl := List.mem_singleton.mp hb
      rcases List.mem_cons.mp hc with rfl | hc
      · exact absurd hself hfresh
      · by_cases hb : b ∈ delivered
        · exact h.behind b hb c (List.mem_cons_of_mem _ hc) (hnew hfresh)
        · exact hfront c hc hb (hnew hfresh)

/-- Items that wait may be forgotten. -/
theorem Ordered.sublist {rest : List α} (h : Ordered delivered pending)
    (hrest : rest.Sublist pending) : Ordered delivered rest where
  firsts := h.firsts
  behind a ha b hb := h.behind a ha b (hrest.subset hb)
  sorted := h.sorted.sublist hrest

/-- An item that is greater than all others waits at the end. -/
theorem Ordered.store (h : Ordered delivered pending) (hdelivered : ∀ b ∈ delivered, b < a)
    (hpending : ∀ b ∈ pending, b < a) : Ordered delivered (pending ++ [a]) where
  firsts := h.firsts
  behind b hb c hc hfresh := by
    rcases List.mem_append.mp hc with hc | hc
    · exact h.behind b hb c hc hfresh
    · rw [List.mem_singleton.mp hc]
      exact hdelivered b hb
  sorted := by
    refine List.pairwise_append.mpr ⟨h.sorted, List.pairwise_singleton _ _, ?_⟩
    intro b hb c hc _ _
    rw [List.mem_singleton.mp hc]
    exact hpending b hb

/-- An item that has been delivered may wait at the end. -/
theorem Ordered.putBack (h : Ordered delivered pending) (ha : a ∈ delivered) :
    Ordered delivered (pending ++ [a]) where
  firsts := h.firsts
  behind b hb c hc hfresh := by
    rcases List.mem_append.mp hc with hc | hc
    · exact h.behind b hb c hc hfresh
    · rw [List.mem_singleton.mp hc] at hfresh
      exact absurd ha hfresh
  sorted := by
    refine List.pairwise_append.mpr ⟨h.sorted, List.pairwise_singleton _ _, ?_⟩
    intro b _ c hc _ hfresh
    rw [List.mem_singleton.mp hc] at hfresh
    exact absurd ha hfresh

end FirstDelivery
