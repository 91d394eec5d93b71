import EdgeGuardian.Controller.Invitations
import EdgeGuardian.Lib.FreshName

/-!
# The slug of a personal organization

The slug of a personal organization is made of the local part of the e-mail of its user. If there is
an organization with this slug, then `-1`, `-2` and so on is put behind it. The counter has 32 bits;
it does not overflow as long as there are fewer slugs than it can count.

Source: `controller/src/main/java/com/edgeguardian/controller/service/OrganizationService.java`
(`generateUniqueSlug`, `create`, `createPersonalOrganization`).

## Main definitions

* `searchSlug`: the loop of `generateUniqueSlug`.
* `FreshSlug`: what is expected of the slug.

## Main results

* `searchSlug_ends`: the loop ends with such a slug, and personal organizations get it.
-/

namespace EdgeGuardian.Controller

open FreshName

/-! ### The loop -/

/-- `Integer.MAX_VALUE`. -/
def maxInteger : ℕ := 2147483647

/-- A turn of the loop: `slug = base + "-" + counter++`. -/
def nextSlug (base : String) (counter : Int32) : String × Int32 :=
  (base ++ "-" ++ toString counter, counter + 1)

/-- `generateUniqueSlug` with its loop, and the number of the turns; the loop is given up when
`fuel` turns are over. -/
def searchSlug (toLowerCase : String → String) (existsBySlug : String → Bool) (fuel : ℕ)
    (email : String) : Option (String × ℕ) :=
  (localPart email).bind fun part =>
    let base := slugText (toLowerCase part)
    search existsBySlug (nextSlug base) fuel (base, 1)

theorem toString_int32_ofNat {n : ℕ} (hn : n ≤ maxInteger) :
    toString (Int32.ofNat n) = toString n := by
  have hint : (Int32.ofNat n).toInt = n := Int32.toInt_ofNat_of_lt (Nat.lt_succ_of_le hn)
  change toString (Int32.ofNat n).toInt = toString n
  rw [hint]
  rfl

/-- What the loop has after some turns. -/
theorem after_nextSlug (base : String) {n : ℕ} (hn : n ≤ maxInteger) :
    after (nextSlug base) (base, 1) n = (slugAt base n, Int32.ofNat (n + 1)) := by
  induction n with
  | zero => rfl
  | succ n ih =>
    have hslug : slugAt base (n + 1) = base ++ "-" ++ toString (n + 1) :=
      if_neg (Nat.succ_ne_zero n)
    rw [after_succ, ih (Nat.le_of_succ_le hn), nextSlug, toString_int32_ofNat hn, hslug,
      Int32.ofNat_add (n + 1) 1]
    rfl

/-! ### The characters of slugs -/

/-- `[a-z0-9-]`. -/
def SlugChar (c : Char) : Prop := c.isLower ∨ c.isDigit ∨ c = '-'

/-- Runs of dashes are shortened, and nothing else is changed. -/
theorem mem_of_mem_foldr {chars : List Char} {c : Char}
    (hc : c ∈ chars.foldr (fun c cs => if c = '-' ∧ cs.head? = some '-' then cs else c :: cs) []) :
    c ∈ chars := by
  induction chars with
  | nil => exact hc
  | cons d chars ih =>
    rw [List.foldr_cons] at hc
    split_ifs at hc with hdash
    · exact List.mem_cons_of_mem d (ih hc)
    · obtain rfl | hc := List.mem_cons.mp hc
      · exact List.mem_cons_self
      · exact List.mem_cons_of_mem d (ih hc)

theorem slugChar_of_mem_slugText {s : String} {c : Char} (hc : c ∈ (slugText s).toList) :
    SlugChar c := by
  rw [slugText, String.toList_ofList] at hc
  obtain ⟨d, -, rfl⟩ := List.mem_map.mp (mem_of_mem_foldr hc)
  by_cases hd : d.isLower || d.isDigit
  · rw [if_pos hd]
    rw [Bool.or_eq_true] at hd
    exact hd.imp_right .inl
  · rw [if_neg hd]
    exact .inr (.inr rfl)

theorem prefix_slugAt (base : String) (n : ℕ) : base.toList <+: (slugAt base n).toList := by
  rw [slugAt]
  split_ifs
  · exact List.prefix_rfl
  · rw [String.append_assoc, String.toList_append]
    exact List.prefix_append _ _

theorem slugChar_of_mem_slugAt {base : String} (hbase : ∀ c ∈ base.toList, SlugChar c) {n : ℕ}
    {c : Char} (hc : c ∈ (slugAt base n).toList) : SlugChar c := by
  rw [slugAt] at hc
  split_ifs at hc
  · exact hbase c hc
  · rw [String.toList_append, String.toList_append, List.mem_append, List.mem_append] at hc
    obtain (hc | hc) | hc := hc
    · exact hbase c hc
    · rw [show "-".toList = ['-'] from rfl, List.mem_singleton] at hc
      exact .inr (.inr hc)
    · rw [Nat.toString_eq_repr, Nat.toList_repr] at hc
      exact .inr (.inl (Nat.isDigit_of_mem_toDigits (by decide) (by decide) hc))

/-! ### The local part -/

theorem exists_localPart {email : String} (h : ∃ c ∈ email.toList, c ≠ '@') :
    ∃ part, localPart email = some part := by
  obtain ⟨c, hc, hne⟩ := h
  refine ⟨_, if_neg ?_⟩
  rintro ⟨-, hall⟩
  exact hne (of_decide_eq_true (List.all_eq_true.mp hall c hc))

/-! ### The search -/

/-- A slug that no other organization has, made of the text that is wanted. -/
structure FreshSlug (slugs : Finset String) (base slug : String) : Prop where
  not_mem : slug ∉ slugs
  chars : ∀ c ∈ slug.toList, SlugChar c
  isPrefix : base.toList <+: slug.toList

theorem saveMember_run (d : Directory) (orgId : OrganizationId) (userId : UserId)
    (role : OrgRole) : (saveMember orgId userId role).run d =
      if (d.organizations.find? orgId).isSome ∧ (d.users.find? userId).isSome then
        .ok (⟨d.members.next, orgId, userId, role⟩, d.insertMember orgId userId role)
      else .error .dataIntegrity := by
  rw [saveMember, Tx.run_get_bind, Tx.require]
  split_ifs <;> rfl

/-- With a free slug, an organization is created or the schema refuses its owner. -/
theorem createOrganization_run {d : Directory} {slug : String} (hfree : slug ∉ d.slugs)
    (name : String) (description : Option String) (ownerUserId : UserId) :
    (∃ r, (createOrganization name slug description ownerUserId).run d = .ok r) ∨
      (createOrganization name slug description ownerUserId).run d = .error .dataIntegrity := by
  have hnone : ∀ o ∈ d.organizations.rows, o.slug ≠ slug := by
    rintro o ho rfl
    exact hfree (List.mem_toFinset.mpr (List.mem_map_of_mem ho))
  rw [createOrganization, Tx.run_get_bind, Tx.require, if_pos hnone, pure_bind, Tx.run_set_bind,
    StateT.run_bind, saveMember_run]
  split_ifs
  · exact .inl ⟨_, rfl⟩
  · exact .inr rfl

/-- **The loop ends** with a slug that no organization has, after at most as many turns as there are
slugs; a personal organization gets this slug, and there is no conflict. -/
theorem searchSlug_ends (toLowerCase : String → String) {slugs : Finset String}
    (hcard : slugs.card < maxInteger) {email : String} (hemail : ∃ c ∈ email.toList, c ≠ '@') :
    ∃ part slug turns, localPart email = some part ∧ turns ≤ slugs.card ∧
      (∀ fuel, turns ≤ fuel →
        searchSlug toLowerCase (fun s => decide (s ∈ slugs)) fuel email = some (slug, turns)) ∧
      FreshSlug slugs (slugText (toLowerCase part)) slug ∧
      ∀ d : Directory, d.slugs = slugs →
        generateUniqueSlug toLowerCase d email = some slug ∧
        ∀ user : User, user.email = email →
          (createPersonalOrganization toLowerCase user).run d ≠
            .error (.conflict "Organization slug already exists") := by
  obtain ⟨part, hpart⟩ := exists_localPart hemail
  set base := slugText (toLowerCase part) with hbase
  have hname : ∀ n ≤ slugs.card, (after (nextSlug base) (base, 1) n).1 = slugAt base n :=
    fun n hn => congrArg Prod.fst (after_nextSlug base (hn.trans hcard.le))
  have hinj : Set.InjOn (fun n => (after (nextSlug base) (base, 1) n).1) (Set.Iic slugs.card) := by
    intro m hm n hn heq
    refine slugAt_injective base ?_
    rw [← hname m hm, ← hname n hn]
    exact heq
  obtain ⟨turns, hturns, hfree, htaken, hsearch⟩ := exists_search_eq_some slugs hinj
  rw [hname turns hturns] at hfree
  refine ⟨part, slugAt base turns, turns, hpart, hturns, fun fuel hfuel => ?_, ?_, ?_⟩
  · rw [searchSlug, hpart, Option.bind_some, ← hname turns hturns]
    exact hsearch fuel hfuel
  · exact ⟨hfree, fun c hc => slugChar_of_mem_slugAt (fun _ => slugChar_of_mem_slugText) hc,
      prefix_slugAt base turns⟩
  · rintro d rfl
    have hslug : generateUniqueSlug toLowerCase d email = some (slugAt base turns) := by
      rw [generateUniqueSlug, hpart, Option.bind_some]
      refine firstUnusedSlug_eq_some hturns hfree fun m hm => ?_
      rw [← hname m (hm.le.trans hturns)]
      exact htaken m hm
    refine ⟨hslug, ?_⟩
    rintro user rfl hconflict
    rw [createPersonalOrganization, Tx.run_get_bind, hslug, Tx.orElseThrow, pure_bind,
      StateT.run_bind] at hconflict
    obtain ⟨r, hok⟩ | herror := createOrganization_run hfree
      (user.displayName.getD "null" ++ "'s Organization") (some "Personal organization") user.id
    · rw [hok] at hconflict
      cases hconflict
    · rw [herror] at hconflict
      cases hconflict

theorem searchSlug_ends_jane :
    ∃ part slug turns, localPart "jane@example.com" = some part ∧
      turns ≤ ({"jane", "jane-1"} : Finset String).card ∧
      (∀ fuel, turns ≤ fuel →
        searchSlug asciiLowerCase (fun s => decide (s ∈ ({"jane", "jane-1"} : Finset String))) fuel
          "jane@example.com" = some (slug, turns)) ∧
      FreshSlug {"jane", "jane-1"} (slugText (asciiLowerCase part)) slug ∧
      ∀ d : Directory, d.slugs = {"jane", "jane-1"} →
        generateUniqueSlug asciiLowerCase d "jane@example.com" = some slug ∧
        ∀ user : User, user.email = "jane@example.com" →
          (createPersonalOrganization asciiLowerCase user).run d ≠
            .error (.conflict "Organization slug already exists") :=
  searchSlug_ends asciiLowerCase (Finset.card_le_two.trans_lt (by decide))
    ⟨'j', by decide, by decide⟩

end EdgeGuardian.Controller
