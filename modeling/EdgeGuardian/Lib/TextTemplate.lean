import Mathlib.Data.List.Infix
import Mathlib.Order.Nat

/-!
# Filling in a template by replacing texts

A template is filled in by replacing targets in it, one after the other: each replacement works on
what the earlier ones have left, and so on what they have put into the text as well. A text that is
put in passes through the later replacements as it is if no target can begin in it, and if it stands
behind a separator that is in no target.

## Main definitions

* `TextTemplate.replace`: replace all occurrences of a target, from the left.
* `TextTemplate.render`: replace one target after the other.
* `TextTemplate.Frame`: a text with holes in it, each behind a separator.

## Main results

* `TextTemplate.replace_append_cons`: a separator that is not in the target divides the text.
* `TextTemplate.replace_fill`: a replacement works on a frame as on the text.
* `TextTemplate.exists_frame_render`: a text that is put in behind a separator fills the holes of a
  frame that does not depend on it.
-/

namespace TextTemplate

variable {α : Type*} [DecidableEq α]

/-! ### Replacing -/

/-- The replacement of a target, where `skip` elements are still to be skipped. -/
def replaceFrom (target replacement : List α) : ℕ → List α → List α
  | _, [] => []
  | skip + 1, _ :: text => replaceFrom target replacement skip text
  | 0, c :: text =>
    if target.isPrefixOf (c :: text) then
      replacement ++ replaceFrom target replacement (target.length - 1) text
    else c :: replaceFrom target replacement 0 text

/-- Replace all occurrences of a target that is not empty, from the left. -/
def replace (target replacement text : List α) : List α := replaceFrom target replacement 0 text

/-- Replace one target after the other. -/
def render (text : List α) (entries : List (List α × List α)) : List α :=
  entries.foldl (fun out e => replace e.1 e.2 out) text

variable {target replacement text x y a : List α} {sep first : α} {skip : ℕ}

theorem replaceFrom_nil : replaceFrom target replacement skip [] = [] := by
  cases skip <;> rfl

theorem isPrefixOf_append_cons (hsep : sep ∉ target) :
    target.isPrefixOf (x ++ sep :: y) = target.isPrefixOf x := by
  induction target generalizing x with
  | nil => simp
  | cons d target ih =>
    rw [List.mem_cons, not_or] at hsep
    rcases x with _ | ⟨c, x⟩
    · have hne : (d == sep) = false := beq_eq_false_iff_ne.mpr (Ne.symm hsep.1)
      simp [List.isPrefixOf, hne]
    · rw [List.cons_append, List.isPrefixOf, List.isPrefixOf, ih hsep.2]

theorem length_le_of_isPrefixOf (h : target.isPrefixOf text) : target.length ≤ text.length :=
  (List.isPrefixOf_iff_prefix.mp h).length_le

theorem replaceFrom_append_cons (hsep : sep ∉ target) (hne : target ≠ [])
    (hskip : skip ≤ x.length) :
    replaceFrom target replacement skip (x ++ sep :: y) =
      replaceFrom target replacement skip x ++ sep :: replace target replacement y := by
  induction x generalizing skip with
  | nil =>
    obtain rfl : skip = 0 := Nat.le_zero.mp hskip
    have hprefix : target.isPrefixOf (sep :: y) = false := by
      have hnil := isPrefixOf_append_cons (x := []) (y := y) hsep
      rw [List.nil_append] at hnil
      rw [hnil]
      obtain ⟨d, ds, rfl⟩ := List.exists_cons_of_ne_nil hne
      rfl
    rw [List.nil_append, replaceFrom_nil, replaceFrom, hprefix]
    rfl
  | cons c x ih =>
    rcases skip with _ | skip
    · rw [List.cons_append, replaceFrom, replaceFrom, ← List.cons_append,
        isPrefixOf_append_cons hsep]
      by_cases hprefix : target.isPrefixOf (c :: x)
      · have hlen : target.length - 1 ≤ x.length := by
          have hle := length_le_of_isPrefixOf hprefix
          rw [List.length_cons] at hle
          omega
        rw [if_pos hprefix, if_pos hprefix, ih hlen, List.append_assoc]
      · rw [if_neg hprefix, if_neg hprefix, ih (Nat.zero_le _), List.cons_append]
    · exact ih (Nat.le_of_succ_le_succ hskip)

/-- **A separator that is not in the target** divides the text. -/
theorem replace_append_cons (hsep : sep ∉ target) (hne : target ≠ []) :
    replace target replacement (x ++ sep :: y) =
      replace target replacement x ++ sep :: replace target replacement y :=
  replaceFrom_append_cons hsep hne (Nat.zero_le _)

/-- A text in which no target begins stays as it is. -/
theorem replace_append_of_not_mem (hfirst : target.head? = some first) (ha : first ∉ a) :
    replace target replacement (a ++ y) = a ++ replace target replacement y := by
  obtain ⟨ds, rfl⟩ := List.head?_eq_some_iff.mp hfirst
  induction a with
  | nil => rfl
  | cons c a ih =>
    rw [List.mem_cons, not_or] at ha
    have hne : (first == c) = false := beq_eq_false_iff_ne.mpr ha.1
    have hprefix : (first :: ds).isPrefixOf (c :: (a ++ y)) = false := by
      rw [List.isPrefixOf, hne, Bool.false_and]
    have hih := ih ha.2
    rw [replace] at hih
    rw [List.cons_append, replace, replaceFrom, hprefix, if_neg Bool.false_ne_true, hih]
    rfl

/-- A text without the target stays as it is. -/
theorem replace_of_not_isInfix (h : ¬ target <:+: text) :
    replace target replacement text = text := by
  induction text with
  | nil => rfl
  | cons c text ih =>
    rw [List.infix_cons_iff, not_or, ← List.isPrefixOf_iff_prefix] at h
    have hih := ih h.2
    rw [replace] at hih
    rw [replace, replaceFrom, if_neg h.1, hih]

theorem replaceFrom_of_length_le (h : text.length ≤ skip) :
    replaceFrom target replacement skip text = [] := by
  induction text generalizing skip with
  | nil => exact replaceFrom_nil
  | cons c text ih =>
    rcases skip with _ | skip
    · cases h
    · exact ih (Nat.le_of_succ_le_succ h)

theorem replace_self (hne : target ≠ []) : replace target replacement target = replacement := by
  obtain ⟨c, text, rfl⟩ := List.exists_cons_of_ne_nil hne
  have hprefix : (c :: text).isPrefixOf (c :: text) :=
    List.isPrefixOf_iff_prefix.mpr (List.prefix_refl _)
  rw [replace, replaceFrom, if_pos hprefix,
    replaceFrom_of_length_le (Nat.le_of_eq rfl : text.length ≤ (c :: text).length - 1),
    List.append_nil]

/-! ### Frames -/

/-- A text with holes: the texts before the holes and the one behind the last of them. -/
structure Frame (α : Type*) where
  holes : List (List α)
  last : List α

namespace Frame

/-- The frame with a text in its holes, each behind a separator. -/
def fill (sep : α) (a : List α) (frame : Frame α) : List α :=
  (frame.holes.flatMap fun text => text ++ sep :: a) ++ frame.last

def map (f : List α → List α) (frame : Frame α) : Frame α := ⟨frame.holes.map f, f frame.last⟩

def cons (c : α) : Frame α → Frame α
  | ⟨[], last⟩ => ⟨[], c :: last⟩
  | ⟨text :: holes, last⟩ => ⟨(c :: text) :: holes, last⟩

omit [DecidableEq α] in
theorem fill_cons (frame : Frame α) (c : α) :
    (frame.cons c).fill sep a = c :: frame.fill sep a := by
  rcases frame with ⟨_ | ⟨text, holes⟩, last⟩ <;> simp [cons, fill]

end Frame

/-- **A replacement works on a frame** as on the text, if what fills the holes passes through. -/
theorem replace_fill (hsep : sep ∉ target) (hfirst : target.head? = some first) (ha : first ∉ a)
    (frame : Frame α) :
    replace target replacement (frame.fill sep a) =
      (frame.map (replace target replacement)).fill sep a := by
  obtain ⟨holes, last⟩ := frame
  have hne : target ≠ [] := by
    rintro rfl
    cases hfirst
  induction holes with
  | nil => rfl
  | cons text holes ih =>
    simp only [Frame.fill, Frame.map, List.flatMap_cons, List.map_cons, List.append_assoc,
      List.cons_append] at ih ⊢
    rw [replace_append_cons hsep hne, replace_append_of_not_mem hfirst ha, ih]

theorem exists_frame_replaceFrom (target v text : List α) (sep : α) (skip : ℕ) :
    ∃ frame : Frame α, ∀ a,
      replaceFrom target (v ++ sep :: a) skip text = frame.fill sep a := by
  induction text generalizing skip with
  | nil => exact ⟨⟨[], []⟩, fun a => replaceFrom_nil⟩
  | cons c text ih =>
    rcases skip with _ | skip
    · by_cases hprefix : target.isPrefixOf (c :: text)
      · obtain ⟨frame, hframe⟩ := ih (target.length - 1)
        refine ⟨⟨v :: frame.holes, frame.last⟩, fun a => ?_⟩
        rw [replaceFrom, if_pos hprefix, hframe]
        simp [Frame.fill]
      · obtain ⟨frame, hframe⟩ := ih 0
        refine ⟨frame.cons c, fun a => ?_⟩
        rw [replaceFrom, if_neg hprefix, hframe, Frame.fill_cons]
    · exact ih skip

/-- **A text that is put in behind a separator** fills the holes of a frame that does not depend on
it, whatever is replaced before it and after it. -/
theorem exists_frame_render (text target v : List α) (sep first : α)
    (before after : List (List α × List α))
    (hafter : ∀ e ∈ after, sep ∉ e.1 ∧ e.1.head? = some first) :
    ∃ frame : Frame α, ∀ a, first ∉ a →
      render text (before ++ (target, v ++ sep :: a) :: after) = frame.fill sep a := by
  obtain ⟨frame, hframe⟩ := exists_frame_replaceFrom target v (render text before) sep 0
  have hrender : ∀ a, render text (before ++ (target, v ++ sep :: a) :: after) =
      render (frame.fill sep a) after := by
    intro a
    rw [← hframe, render, List.foldl_append, List.foldl_cons]
    rfl
  simp only [hrender]
  clear hrender hframe
  induction after generalizing frame with
  | nil => exact ⟨frame, fun a _ => rfl⟩
  | cons e after ih =>
    obtain ⟨⟨hsep, hfirst⟩, hrest⟩ := List.forall_mem_cons.mp hafter
    obtain ⟨result, hresult⟩ := ih hrest (frame.map (replace e.1 e.2))
    refine ⟨result, fun a ha => ?_⟩
    rw [← hresult a ha, render, List.foldl_cons, replace_fill hsep hfirst ha]
    rfl

end TextTemplate
