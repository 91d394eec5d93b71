import Mathlib.Data.List.Basic
import Mathlib.Order.Basic

/-!
# Topic filters and lists of access rules

A topic is a list of levels. A filter has wildcards in it: one for a single level, and one for all
the levels that are left. Filters are compared with filters, too: a client that subscribes to a
filter is asked whether a rule accepts it, wildcards and all. Rules are read from the top, and the
first one that applies decides.

## Main definitions

* `TopicFilter`, `TopicFilter.accepts`: filters, level by level.
* `TopicFilter.Guarded`: a wildcard for one level does not stand at the end.
* `AccessRule`, `AccessRule.permits`: rules, of which the first decides.
* `AccessRule.Flows`: a message on a topic can go from one client to another.

## Main results

* `TopicFilter.accepts_trans`: a guarded filter that accepts a filter accepts its topics.
* `AccessRule.flows_iff`: where a message can go, for rules with guarded filters.
-/

/-- A level of a filter. -/
inductive FilterLevel (α : Type*)
  | level (text : α)
  /-- Any level. -/
  | single
  /-- All levels from here on. -/
  | multi
deriving DecidableEq, Repr

/-- A filter for topics; a topic is a filter without wildcards. -/
abbrev TopicFilter (α : Type*) := List (FilterLevel α)

namespace TopicFilter

variable {α : Type*}

/-- The filter that is a topic. -/
def ofTopic (topic : List α) : TopicFilter α := topic.map .level

/-- A wildcard for one level has a level behind it. -/
def Guarded : TopicFilter α → Prop
  | [] => True
  | [.single] => False
  | [.single, .multi] => False
  | _ :: filter => Guarded filter

theorem Guarded.tail {l : FilterLevel α} {F : TopicFilter α} (h : Guarded (l :: F)) :
    Guarded F := by
  rcases F with _ | ⟨m, F⟩
  · trivial
  · rcases l with _ | _ | _ <;> rcases m with _ | _ | _ <;> rcases F with _ | _ <;>
      first | exact h | exact h.elim

theorem Guarded.cons {l : FilterLevel α} {F : TopicFilter α} (h : Guarded F) (hne : F ≠ [])
    (hmulti : F ≠ [.multi]) : Guarded (l :: F) := by
  rcases F with _ | ⟨m, F⟩
  · exact absurd rfl hne
  · rcases l with _ | _ | _ <;> rcases m with _ | _ | _ <;> rcases F with _ | _ <;>
      first | exact h | exact absurd rfl hmulti

/-- A guarded filter that begins with a fixed level stays guarded behind other levels. -/
theorem Guarded.append {a : α} {F : TopicFilter α} (h : Guarded (.level a :: F))
    (before : TopicFilter α) : Guarded (before ++ .level a :: F) := by
  induction before with
  | nil => exact h
  | cons l before ih =>
    refine ih.cons (List.append_ne_nil_of_right_ne_nil _ (List.cons_ne_nil _ _)) ?_
    rcases before with _ | ⟨m, before⟩ <;> simp

variable [DecidableEq α]

/-- The filter accepts another one, which may be a topic. -/
def accepts : TopicFilter α → TopicFilter α → Bool
  | [.multi], _ => true
  | .single :: filter, _ :: topic => accepts filter topic
  | .level a :: filter, .level b :: topic => a = b && accepts filter topic
  | [], [] => true
  | _, _ => false

variable {F G H : TopicFilter α} {a b : α}

@[simp] theorem accepts_multi : accepts [.multi] G = true := by rw [accepts.eq_def]

@[simp] theorem accepts_nil : accepts [] G ↔ G = [] := by cases G <;> simp [accepts]

@[simp] theorem accepts_single_cons {F : TopicFilter α} :
    accepts (.single :: F) G ↔ ∃ l G', G = l :: G' ∧ accepts F G' := by
  cases G <;> simp [accepts]

@[simp] theorem accepts_level_cons {F : TopicFilter α} :
    accepts (.level a :: F) G ↔ ∃ G', G = .level a :: G' ∧ accepts F G' := by
  rcases G with _ | ⟨b | _ | _, G⟩
  · simp [accepts]
  · simp only [accepts, Bool.and_eq_true, decide_eq_true_eq, List.cons.injEq,
      FilterLevel.level.injEq]
    constructor
    · rintro ⟨rfl, h⟩
      exact ⟨G, ⟨rfl, rfl⟩, h⟩
    · rintro ⟨_, ⟨rfl, rfl⟩, h⟩
      exact ⟨rfl, h⟩
  · simp [accepts]
  · simp [accepts]

/-- A wildcard for all levels stands at the end. -/
@[simp] theorem accepts_multi_cons {l : FilterLevel α} :
    accepts (.multi :: l :: F) G = false := by
  rw [accepts.eq_def]

/-! ### Topics -/

theorem accepts_nil_ofTopic {topic : List α} : accepts [] (ofTopic topic) ↔ topic = [] := by
  rw [accepts_nil, ofTopic, List.map_eq_nil_iff]

theorem accepts_level_ofTopic {topic : List α} :
    accepts (.level a :: F) (ofTopic topic) ↔
      ∃ rest, topic = a :: rest ∧ accepts F (ofTopic rest) := by
  rcases topic with _ | ⟨b, rest⟩
  · simp [ofTopic]
  · simp only [ofTopic, List.map_cons, accepts_level_cons, List.cons.injEq, FilterLevel.level.injEq]
    constructor
    · rintro ⟨_, ⟨rfl, rfl⟩, h⟩
      exact ⟨rest, ⟨rfl, rfl⟩, h⟩
    · rintro ⟨_, ⟨rfl, rfl⟩, h⟩
      exact ⟨_, ⟨rfl, rfl⟩, h⟩

theorem accepts_single_ofTopic {topic : List α} :
    accepts (.single :: F) (ofTopic topic) ↔
      ∃ b rest, topic = b :: rest ∧ accepts F (ofTopic rest) := by
  rcases topic with _ | ⟨b, rest⟩
  · simp [ofTopic]
  · simp only [ofTopic, List.map_cons, accepts_single_cons, List.cons.injEq]
    constructor
    · rintro ⟨_, _, ⟨rfl, rfl⟩, h⟩
      exact ⟨b, rest, ⟨rfl, rfl⟩, h⟩
    · rintro ⟨_, _, ⟨rfl, rfl⟩, h⟩
      exact ⟨_, _, ⟨rfl, rfl⟩, h⟩

/-- What a filter behind fixed levels accepts. -/
theorem ofTopic_append_accepts {base topic : List α} :
    accepts (ofTopic base ++ F) (ofTopic topic) ↔
      ∃ rest, topic = base ++ rest ∧ accepts F (ofTopic rest) := by
  induction base generalizing topic with
  | nil => simp [ofTopic]
  | cons a base ih =>
    show accepts (.level a :: (ofTopic base ++ F)) (ofTopic topic) ↔ _
    simp only [accepts_level_ofTopic, ih]
    constructor
    · rintro ⟨_, rfl, rest, rfl, h⟩
      exact ⟨rest, rfl, h⟩
    · rintro ⟨rest, rfl, h⟩
      exact ⟨_, rfl, rest, rfl, h⟩

/-- A topic accepts itself only. -/
theorem ofTopic_accepts {base topic : List α} :
    accepts (ofTopic base) (ofTopic topic) ↔ topic = base := by
  have happend : accepts (ofTopic base ++ []) (ofTopic topic) ↔ _ := ofTopic_append_accepts
  rw [List.append_nil] at happend
  simp only [happend, accepts_nil_ofTopic, exists_eq_right, List.append_nil]

/-- **A guarded filter that accepts a filter accepts what that one accepts.** Without the guard, the
wildcard for one level would accept the one for all levels. -/
theorem accepts_trans (hF : Guarded F) (hFG : accepts F G) (hGH : accepts G H) : accepts F H := by
  induction F generalizing G H with
  | nil =>
    rw [accepts_nil] at hFG
    rwa [hFG] at hGH
  | cons l F ih =>
    cases l with
    | level a =>
      obtain ⟨G', rfl, hrest⟩ := accepts_level_cons.mp hFG
      obtain ⟨H', rfl, hrest'⟩ := accepts_level_cons.mp hGH
      exact accepts_level_cons.mpr ⟨H', rfl, ih hF.tail hrest hrest'⟩
    | multi =>
      rcases F with _ | ⟨l, F⟩
      · exact accepts_multi
      · simp at hFG
    | single =>
      obtain ⟨l, G', rfl, hrest⟩ := accepts_single_cons.mp hFG
      suffices ∃ l H', H = l :: H' ∧ accepts G' H' by
        obtain ⟨l, H', rfl, hrest'⟩ := this
        exact accepts_single_cons.mpr ⟨l, H', rfl, ih hF.tail hrest hrest'⟩
      cases l with
      | level b =>
        obtain ⟨H', rfl, hrest'⟩ := accepts_level_cons.mp hGH
        exact ⟨_, H', rfl, hrest'⟩
      | single => exact accepts_single_cons.mp hGH
      | multi =>
        -- the rest of the guarded filter accepts no end
        rcases G' with _ | ⟨l, G'⟩
        · rcases F with _ | ⟨_ | _ | _, _ | ⟨l, F⟩⟩
          · exact hF.elim
          · simp at hrest
          · simp at hrest
          · simp at hrest
          · simp at hrest
          · exact hF.elim
          · simp at hrest
        · simp at hGH

/-- A filter that ends in a fixed level accepts filters that end in it. -/
theorem getLast?_of_accepts (h : accepts (F ++ [.level a]) G) : G.getLast? = some (.level a) := by
  induction F generalizing G with
  | nil =>
    obtain ⟨G, rfl, hend⟩ := accepts_level_cons.mp h
    rw [accepts_nil.mp hend]
    rfl
  | cons l F ih =>
    obtain ⟨m, G, rfl, hrest⟩ : ∃ m G', G = m :: G' ∧ accepts (F ++ [.level a]) G' := by
      cases l with
      | level b =>
        obtain ⟨G, rfl, hrest⟩ := accepts_level_cons.mp h
        exact ⟨_, G, rfl, hrest⟩
      | single => exact accepts_single_cons.mp h
      | multi => rcases F with _ | ⟨m, F⟩ <;> simp at h
    have hlast := ih hrest
    rcases G with _ | ⟨m', G⟩
    · cases hlast
    · exact hlast

omit [DecidableEq α] in
theorem getLast?_ofTopic_eq_some {topic : List α} :
    (ofTopic topic).getLast? = some (.level a) ↔ topic.getLast? = some a := by
  rw [ofTopic, List.getLast?_map, Option.map_eq_some_iff]
  constructor
  · rintro ⟨b, hb, h⟩
    cases h
    exact hb
  · intro h
    exact ⟨a, h, rfl⟩

end TopicFilter

/-! ### Rules -/

/-- A rule: the clients and the actions that it is for, and filters, which may depend on the
client. -/
structure AccessRule (S A α : Type*) where
  permit : Bool
  who : S → Bool
  action : A → Bool
  filters : S → List (TopicFilter α)

namespace AccessRule

open TopicFilter

variable {S A α : Type*} [DecidableEq α]

/-- The rule is for the client, the action and the filter. -/
def applies (rule : AccessRule S A α) (s : S) (a : A) (G : TopicFilter α) : Bool :=
  rule.who s && rule.action a && (rule.filters s).any (accepts · G)

/-- The first rule that applies decides, and nothing is permitted without a rule. -/
def permits (rules : List (AccessRule S A α)) (s : S) (a : A) (G : TopicFilter α) : Bool :=
  (rules.find? (·.applies s a G)).elim false permit

/-- Rules without a denial permit what one of them applies to. -/
theorem permits_iff {rules : List (AccessRule S A α)} (hallow : ∀ rule ∈ rules, rule.permit)
    {s : S} {a : A} {G : TopicFilter α} :
    permits rules s a G ↔ ∃ rule ∈ rules, rule.applies s a G := by
  rw [permits]
  generalize hfind : rules.find? _ = found
  rcases found with _ | rule
  · refine iff_of_false Bool.false_ne_true ?_
    rintro ⟨rule, hmem, happlies⟩
    exact List.find?_eq_none.mp hfind rule hmem happlies
  · have hmem := List.mem_of_find?_eq_some hfind
    have happlies : rule.applies s a G := List.find?_some (p := fun r => applies r s a G) hfind
    exact iff_of_true (hallow rule hmem) ⟨rule, hmem, happlies⟩

/-- What is denied at the end was not permitted anyway. -/
theorem permits_append_denial {rules : List (AccessRule S A α)} {denial : AccessRule S A α}
    (hdenial : denial.permit = false) {s : S} {a : A} {G : TopicFilter α} :
    permits (rules ++ [denial]) s a G = permits rules s a G := by
  rw [permits, permits, List.find?_append]
  generalize rules.find? _ = found
  rcases found with _ | rule
  · rw [Option.none_or, List.find?_singleton]
    split_ifs
    · exact hdenial
    · rfl
  · rfl

/-- A message on a topic can go from one client to another: the one may publish it, and the other
may subscribe to a filter that accepts it. -/
def Flows (rules : List (AccessRule S A α)) (publish subscribe : A) (sender : S) (topic : List α)
    (receiver : S) : Prop :=
  permits rules sender publish (ofTopic topic) ∧
    ∃ G, permits rules receiver subscribe G ∧ accepts G (ofTopic topic)

/-- **Where a message can go.** Subscribing with wildcards gets no client a message whose topic it
could not subscribe to. -/
theorem flows_iff {rules : List (AccessRule S A α)} {denial : AccessRule S A α}
    (hallow : ∀ rule ∈ rules, rule.permit) (hdenial : denial.permit = false)
    {publish subscribe : A} {sender receiver : S} {topic : List α}
    (hguarded : ∀ rule ∈ rules, ∀ F ∈ rule.filters receiver, Guarded F) :
    Flows (rules ++ [denial]) publish subscribe sender topic receiver ↔
      permits (rules ++ [denial]) sender publish (ofTopic topic) ∧
        permits (rules ++ [denial]) receiver subscribe (ofTopic topic) := by
  refine and_congr_right fun _ => ⟨?_, fun h => ⟨_, h, ofTopic_accepts.mpr rfl⟩⟩
  rintro ⟨G, hG, haccepts⟩
  rw [permits_append_denial hdenial, permits_iff hallow] at hG ⊢
  obtain ⟨rule, hrule, happlies⟩ := hG
  refine ⟨rule, hrule, ?_⟩
  simp only [applies, Bool.and_eq_true, List.any_eq_true] at happlies ⊢
  obtain ⟨⟨hwho, haction⟩, F, hF, hFG⟩ := happlies
  exact ⟨⟨hwho, haction⟩, F, hF, accepts_trans (hguarded rule hrule F hF) hFG haccepts⟩

end AccessRule
