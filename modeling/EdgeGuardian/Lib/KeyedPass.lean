import Mathlib.Data.List.Nodup

/-!
# Passes over items with keys

A pass takes the items of a list one after the other, and a step for each of them changes the state
and gives a result. What the state holds is seen key by key. A step is local if it changes only what
is at the key of its item. In a pass of local steps over items with distinct keys, every item meets
at its key what was there before the pass, and what its step leaves there is there after the pass,
whatever the steps of the other items do.

## Main definitions

* `KeyedPass.run`: the results of a pass, and the state after it.
* `KeyedPass.Local`: a step changes what is at the key of its item only.
* `KeyedPass.Determined`: moreover, what it does depends on that only.

## Main results

* `KeyedPass.view_run_of_notMem`: a pass leaves the other keys as they are.
* `KeyedPass.exists_turn`: the turn of an item, as if it were alone.
* `KeyedPass.Determined.run_fst`, `KeyedPass.Determined.view_run`: a pass of determined steps.
* `KeyedPass.forall_run`: what every step keeps.
-/

namespace KeyedPass

variable {ι κ σ α ν : Type*}

/-- The results of a pass over the items, and the state after it. -/
def run (step : ι → σ → α × σ) : List ι → σ → List α × σ
  | [], s => ([], s)
  | x :: xs, s =>
    ((step x s).1 :: (run step xs (step x s).2).1, (run step xs (step x s).2).2)

/-- A step changes what is at the key of its item only. -/
def Local (step : ι → σ → α × σ) (key : ι → κ) (view : σ → κ → ν) : Prop :=
  ∀ x s k, k ≠ key x → view (step x s).2 k = view s k

/-- A local step whose result, and what it leaves at the key of its item, are a function of what
was there. -/
structure Determined (step : ι → σ → α × σ) (key : ι → κ) (view : σ → κ → ν)
    (f : ι → ν → α × ν) : Prop where
  isLocal : Local step key view
  result : ∀ x s, (step x s).1 = (f x (view s (key x))).1
  left : ∀ x s, view (step x s).2 (key x) = (f x (view s (key x))).2

variable {step : ι → σ → α × σ} {key : ι → κ} {view : σ → κ → ν}

@[simp] theorem length_run (step : ι → σ → α × σ) (xs : List ι) (s : σ) :
    (run step xs s).1.length = xs.length := by
  induction xs generalizing s with
  | nil => rfl
  | cons x xs ih => rw [run, List.length_cons, ih, List.length_cons]

/-- A pass leaves what is at the other keys. -/
theorem view_run_of_notMem (hlocal : Local step key view) {xs : List ι} {k : κ}
    (hk : k ∉ xs.map key) (s : σ) : view (run step xs s).2 k = view s k := by
  induction xs generalizing s with
  | nil => rfl
  | cons x xs ih =>
    rw [List.map_cons, List.mem_cons, not_or] at hk
    have hrest : view (run step xs (step x s).2).2 k = view (step x s).2 k := ih hk.2 _
    exact hrest.trans (hlocal x s k hk.1)

/-- **The turn of an item.** It meets at its key what was there before the pass, and what it leaves
there is there after the pass. -/
theorem exists_turn (hlocal : Local step key view) {xs : List ι} (hnodup : (xs.map key).Nodup)
    {s : σ} {x : ι} {a : α} (h : (x, a) ∈ xs.zip (run step xs s).1) :
    ∃ t, view t (key x) = view s (key x) ∧ (step x t).1 = a ∧
      view (run step xs s).2 (key x) = view (step x t).2 (key x) := by
  induction xs generalizing s with
  | nil => simp at h
  | cons y ys ih =>
    rw [List.map_cons, List.nodup_cons] at hnodup
    rw [run, List.zip_cons_cons, List.mem_cons] at h
    rcases h with hhead | htail
    · rw [Prod.mk.injEq] at hhead
      obtain ⟨rfl, rfl⟩ := hhead
      exact ⟨s, rfl, rfl, view_run_of_notMem hlocal hnodup.1 _⟩
    · have hmem : key x ∈ ys.map key := List.mem_map_of_mem (List.of_mem_zip htail).1
      have hne : key x ≠ key y := fun heq => hnodup.1 (heq ▸ hmem)
      obtain ⟨t, hmet, hresult, hleft⟩ := ih hnodup.2 htail
      exact ⟨t, hmet.trans (hlocal y s (key x) hne), hresult, hleft⟩

/-- Every item of a pass has a result. -/
theorem exists_mem_zip (step : ι → σ → α × σ) {xs : List ι} {x : ι} (hx : x ∈ xs) (s : σ) :
    ∃ a, (x, a) ∈ xs.zip (run step xs s).1 := by
  induction xs generalizing s with
  | nil => simp at hx
  | cons y ys ih =>
    rw [run, List.zip_cons_cons]
    rcases List.mem_cons.mp hx with rfl | htail
    · exact ⟨_, List.mem_cons_self⟩
    · obtain ⟨a, ha⟩ := ih htail (step y s).2
      exact ⟨a, List.mem_cons_of_mem _ ha⟩

/-- What every step keeps, and what it then says of its result. -/
theorem forall_run {P : σ → Prop} {Q : ι → α → Prop} {xs : List ι}
    (hstep : ∀ x ∈ xs, ∀ s, P s → P (step x s).2 ∧ Q x (step x s).1) {s : σ} (hs : P s) :
    P (run step xs s).2 ∧ ∀ p ∈ xs.zip (run step xs s).1, Q p.1 p.2 := by
  induction xs generalizing s with
  | nil => exact ⟨hs, nofun⟩
  | cons x xs ih =>
    obtain ⟨hP, hQ⟩ := hstep x List.mem_cons_self s hs
    obtain ⟨hleft, hrest⟩ := ih (fun y hy => hstep y (List.mem_cons_of_mem _ hy)) hP
    refine ⟨hleft, ?_⟩
    rw [run, List.zip_cons_cons, List.forall_mem_cons]
    exact ⟨hQ, hrest⟩

namespace Determined

variable {f : ι → ν → α × ν} (h : Determined step key view f) {xs : List ι}
  (hnodup : (xs.map key).Nodup) (s : σ)
include h hnodup

/-- The results of a pass of determined steps. -/
theorem run_fst : (run step xs s).1 = xs.map fun x => (f x (view s (key x))).1 := by
  induction xs generalizing s with
  | nil => rfl
  | cons x xs ih =>
    rw [List.map_cons, List.nodup_cons] at hnodup
    have hrest : (xs.map fun y => (f y (view (step x s).2 (key y))).1) =
        xs.map fun y => (f y (view s (key y))).1 := by
      refine List.map_congr_left fun y hy => ?_
      have hne : key y ≠ key x := fun heq => hnodup.1 (heq ▸ List.mem_map_of_mem hy)
      rw [h.isLocal x s (key y) hne]
    rw [run, List.map_cons, h.result, ih hnodup.2, hrest]

/-- What a pass of determined steps leaves at the key of an item. -/
theorem view_run {x : ι} (hx : x ∈ xs) :
    view (run step xs s).2 (key x) = (f x (view s (key x))).2 := by
  obtain ⟨a, ha⟩ := exists_mem_zip step hx s
  obtain ⟨t, hmet, -, hleft⟩ := exists_turn h.isLocal hnodup ha
  rw [hleft, h.left, hmet]

end Determined

end KeyedPass
