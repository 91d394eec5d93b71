import Mathlib.Data.List.Sort
import Mathlib.Data.List.Lex

/-!
# Maps stored in key order

A finite map as the list of its entries in strictly increasing key order, the order in which a
cursor over a B+ tree visits them. The order is part of the structure, so that every operation
keeps it.

## Main definitions

* `OrderedMap`: the entries and their order.
* `OrderedMap.put`, `OrderedMap.erase`: writing one key, removing some keys.

## Main results

* `OrderedMap.entries_put_perm`: writing a fresh key adds exactly one entry.
* `OrderedMap.entries_put_of_lt`: writing a key behind all others adds the last entry.
* `OrderedMap.entries_erase_take`: removing the first keys leaves the later entries.
* `OrderedMap.mem_keys_put`, `OrderedMap.mem_keys_erase`: the keys after an operation.
* `OrderedMap.filterMap_put_of_some`, `OrderedMap.filterMap_put_of_none`: what a cursor reads after
  a write, if it reads some of the entries only.
-/

variable {K V : Type*} [LinearOrder K]

/-- A finite map, listed in strictly increasing key order. -/
structure OrderedMap (K V : Type*) [LinearOrder K] where
  /-- The entries in the order of their keys. -/
  entries : List (K × V)
  /-- Every key stands before all later keys. -/
  sorted : entries.Pairwise fun a b => a.1 < b.1

namespace OrderedMap

/-- The map without entries. -/
def empty : OrderedMap K V where
  entries := []
  sorted := List.Pairwise.nil

/-- The keys in increasing order. -/
def keys (m : OrderedMap K V) : List K := m.entries.map Prod.fst

/-- The entries with `k` written to `v`, in key order; an old value of `k` is replaced. -/
def insertEntry (k : K) (v : V) : List (K × V) → List (K × V)
  | [] => [(k, v)]
  | e :: es =>
    if k < e.1 then (k, v) :: e :: es
    else if k = e.1 then (k, v) :: es
    else e :: insertEntry k v es

theorem mem_insertEntry {k : K} {v : V} {es : List (K × V)} {x : K × V}
    (hx : x ∈ insertEntry k v es) : x = (k, v) ∨ x ∈ es := by
  induction es with
  | nil => simpa [insertEntry] using hx
  | cons e es ih =>
    simp only [insertEntry] at hx
    split_ifs at hx with hlt heq
    · simpa using hx
    · simp only [List.mem_cons] at hx ⊢
      tauto
    · rcases List.mem_cons.mp hx with rfl | hx
      · exact Or.inr List.mem_cons_self
      · exact (ih hx).imp_right (List.mem_cons_of_mem e)

theorem pairwise_insertEntry (k : K) (v : V) {es : List (K × V)}
    (h : es.Pairwise fun a b => a.1 < b.1) :
    (insertEntry k v es).Pairwise fun a b => a.1 < b.1 := by
  induction es with
  | nil => exact List.pairwise_singleton _ _
  | cons e es ih =>
    obtain ⟨he, hes⟩ := List.pairwise_cons.mp h
    simp only [insertEntry]
    split_ifs with hlt heq
    · refine List.pairwise_cons.mpr ⟨fun x hx => ?_, h⟩
      rcases List.mem_cons.mp hx with rfl | hx
      · exact hlt
      · exact hlt.trans (he x hx)
    · exact List.pairwise_cons.mpr ⟨fun x hx => heq ▸ he x hx, hes⟩
    · refine List.pairwise_cons.mpr ⟨fun x hx => ?_, ih hes⟩
      rcases mem_insertEntry hx with rfl | hx
      · exact lt_of_le_of_ne (not_lt.mp hlt) (Ne.symm heq)
      · exact he x hx

theorem insertEntry_perm {k : K} {v : V} {es : List (K × V)}
    (hk : k ∉ es.map Prod.fst) : (insertEntry k v es).Perm ((k, v) :: es) := by
  induction es with
  | nil => exact List.Perm.refl _
  | cons e es ih =>
    simp only [List.map_cons, List.mem_cons, not_or] at hk
    simp only [insertEntry]
    split_ifs with hlt heq
    · exact List.Perm.refl _
    · exact absurd heq hk.1
    · exact ((ih hk.2).cons e).trans (List.Perm.swap (k, v) e es)

theorem insertEntry_of_lt {k : K} {v : V} {es : List (K × V)} (h : ∀ e ∈ es, e.1 < k) :
    insertEntry k v es = es ++ [(k, v)] := by
  induction es with
  | nil => rfl
  | cons e es ih =>
    have he : e.1 < k := h e List.mem_cons_self
    rw [insertEntry, if_neg he.not_gt, if_neg he.ne',
      ih fun e' he' => h e' (List.mem_cons_of_mem e he'), List.cons_append]

/-- Write `v` at `k`. -/
def put (m : OrderedMap K V) (k : K) (v : V) : OrderedMap K V where
  entries := insertEntry k v m.entries
  sorted := pairwise_insertEntry k v m.sorted

/-- Remove the keys `ks`. -/
def erase (m : OrderedMap K V) (ks : List K) : OrderedMap K V where
  entries := m.entries.filter fun e => e.1 ∉ ks
  sorted := m.sorted.sublist List.filter_sublist

/-- Writing a fresh key adds exactly one entry. -/
theorem entries_put_perm {m : OrderedMap K V} {k : K} (v : V) (hk : k ∉ m.keys) :
    (m.put k v).entries.Perm ((k, v) :: m.entries) :=
  insertEntry_perm hk

/-- Writing a key that stands behind all others adds the last entry. -/
theorem entries_put_of_lt {m : OrderedMap K V} {k : K} (v : V) (hk : ∀ k' ∈ m.keys, k' < k) :
    (m.put k v).entries = m.entries ++ [(k, v)] :=
  insertEntry_of_lt fun _ he => hk _ (List.mem_map_of_mem he)

theorem mem_keys_put {m : OrderedMap K V} {k k' : K} {v : V} (h : k' ∈ (m.put k v).keys) :
    k' = k ∨ k' ∈ m.keys := by
  obtain ⟨e, he, rfl⟩ := List.mem_map.mp h
  rcases mem_insertEntry he with rfl | he
  · exact Or.inl rfl
  · exact Or.inr (List.mem_map_of_mem he)

theorem mem_keys_erase {m : OrderedMap K V} {ks : List K} {k : K} (h : k ∈ (m.erase ks).keys) :
    k ∈ m.keys := by
  obtain ⟨e, he, rfl⟩ := List.mem_map.mp h
  exact List.mem_map_of_mem (List.mem_of_mem_filter he)

/-- Removing the keys of a first part of the entries leaves the other part. -/
theorem entries_erase_take {m : OrderedMap K V} {pre post : List (K × V)}
    (h : m.entries = pre ++ post) : (m.erase (pre.map Prod.fst)).entries = post := by
  have hlt : ∀ a ∈ pre, ∀ b ∈ post, a.1 < b.1 :=
    (List.pairwise_append.mp (h ▸ m.sorted)).2.2
  have hpre : (pre.filter fun e => e.1 ∉ pre.map Prod.fst) = [] :=
    List.filter_eq_nil_iff.mpr fun a ha => by simpa using ⟨a.2, ha⟩
  have hpost : (post.filter fun e => e.1 ∉ pre.map Prod.fst) = post := by
    refine List.filter_eq_self.mpr fun b hb => decide_eq_true fun hmem => ?_
    obtain ⟨a, ha, hab⟩ := List.mem_map.mp hmem
    exact (hlt a ha b hb).ne hab
  change m.entries.filter _ = post
  rw [h, List.filter_append, hpre, hpost, List.nil_append]

/-- Of the entries that `f` reads, one that is written behind all of them is the last, wherever the
other entries are. -/
theorem filterMap_put_of_some {W : Type*} {m : OrderedMap K V} {k : K} {v : V} {w : W}
    {f : K × V → Option W} (hread : f (k, v) = some w)
    (hlt : ∀ e ∈ m.entries, (f e).isSome → e.1 < k) :
    (m.put k v).entries.filterMap f = m.entries.filterMap f ++ [w] := by
  obtain ⟨es, hsorted⟩ := m
  change (insertEntry k v es).filterMap f = es.filterMap f ++ [w]
  induction es with
  | nil => simp [insertEntry, hread]
  | cons e es ih =>
    obtain ⟨he, hes⟩ := List.pairwise_cons.mp hsorted
    have hnone (hle : k ≤ e.1) : (e :: es).filterMap f = [] := by
      refine List.filterMap_eq_nil_iff.mpr fun e' he' => ?_
      have hle' : k ≤ e'.1 := by
        rcases List.mem_cons.mp he' with rfl | htail
        · exact hle
        · exact hle.trans (he e' htail).le
      by_contra hsome
      exact absurd (hlt e' he' (Option.isSome_iff_ne_none.mpr hsome)) hle'.not_gt
    rw [insertEntry]
    split_ifs with hbefore hsame
    · rw [hnone hbefore.le, List.filterMap_cons_some hread, hnone hbefore.le, List.nil_append]
    · have htail := hnone hsame.le
      rw [htail, List.filterMap_cons_some hread, List.nil_append]
      rw [List.filterMap_eq_nil_iff] at htail
      rw [List.filterMap_eq_nil_iff.mpr fun e' he' => htail e' (List.mem_cons_of_mem e he')]
    · have hrest := ih hes fun e' he' => hlt e' (List.mem_cons_of_mem e he')
      rcases hfe : f e with _ | u
      · rw [List.filterMap_cons_none hfe, List.filterMap_cons_none hfe, hrest]
      · rw [List.filterMap_cons_some hfe, List.filterMap_cons_some hfe, hrest, List.cons_append]

/-- An entry that `f` does not read takes away what was read at its key. -/
theorem filterMap_put_of_none {W : Type*} {m : OrderedMap K V} {k : K} {v : V}
    {f : K × V → Option W} (hread : f (k, v) = none) :
    (m.put k v).entries.filterMap f = (m.entries.filter fun e => e.1 ≠ k).filterMap f := by
  obtain ⟨es, hsorted⟩ := m
  change (insertEntry k v es).filterMap f = (es.filter fun e => e.1 ≠ k).filterMap f
  induction es with
  | nil => simp [insertEntry, hread]
  | cons e es ih =>
    obtain ⟨he, hes⟩ := List.pairwise_cons.mp hsorted
    have hkeep (hle : k ≤ e.1) : (es.filter fun e => e.1 ≠ k) = es :=
      List.filter_eq_self.mpr fun e' he' => decide_eq_true (hle.trans_lt (he e' he')).ne'
    have hpos (hne : e.1 ≠ k) :
        ((e :: es).filter fun e => e.1 ≠ k) = e :: es.filter fun e => e.1 ≠ k := by simp [hne]
    rcases lt_trichotomy k e.1 with hbefore | hsame | hbehind
    · rw [insertEntry, if_pos hbefore, List.filterMap_cons_none hread, hpos hbefore.ne',
        hkeep hbefore.le]
    · have hneg : ((e :: es).filter fun e => e.1 ≠ k) = es.filter fun e => e.1 ≠ k := by
        simp [hsame]
      rw [insertEntry, if_neg hsame.not_lt, if_pos hsame, List.filterMap_cons_none hread, hneg,
        hkeep hsame.le]
    · rw [insertEntry, if_neg hbehind.not_gt, if_neg hbehind.ne', hpos hbehind.ne]
      rcases hfe : f e with _ | u
      · rw [List.filterMap_cons_none hfe, List.filterMap_cons_none hfe, ih hes]
      · rw [List.filterMap_cons_some hfe, List.filterMap_cons_some hfe, ih hes]

end OrderedMap
