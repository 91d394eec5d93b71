import EdgeGuardian.Controller.Organizations
import EdgeGuardian.Lib.FreshName
import Mathlib.Data.List.DropRight

/-!
# Invitations and personal organizations

An invitation is stored under a normalized e-mail until a user with this e-mail registers. Users
are stored and looked up with the e-mail as the identity provider sends it. An invitation for a
registered user becomes a membership at once; all invitations for a user become memberships when
the user registers, and the user gets an organization of their own.

Source: `controller/src/main/java/com/edgeguardian/controller/service/OrganizationService.java`,
`controller/src/main/resources/db/migration/V1__core.sql`, `V7__invitations.sql`.

## Main definitions

* `normalizeEmail`, `inviteMember`, `resolvePendingInvitations`.
* `generateUniqueSlug`, `createPersonalOrganization`.

## Main results

* `saveMember_run_eq_ok`, `addMember_cases`, `inviteMember_cases`, `resolveInvitation_cases`,
  `createOrganization_cases`: what committed calls do to the directory.
* `exists_unused_slug`: the search for a slug ends.
-/

namespace EdgeGuardian.Controller

/-! ### E-mail addresses -/

/-- `String.trim`: characters up to the blank are cut off at both ends. -/
def trim (s : String) : String :=
  String.ofList ((s.toList.dropWhile (· ≤ ' ')).rdropWhile (· ≤ ' '))

/-- `String.toLowerCase` on letters of the Latin alphabet. -/
def asciiLowerCase (s : String) : String := String.ofList (s.toList.map Char.toLower)

section Email

/-! Everything that follows is for any function in the place of `String.toLowerCase`. -/

variable (toLowerCase : String → String)

/-- `normalizeEmail`, with `none` for `null`. -/
def normalizeEmail : Option String → String
  | none => ""
  | some email => toLowerCase (trim email)

/-- `userRepository.findByEmail`. -/
def findUserByEmail (d : Directory) (email : String) : Option User :=
  d.users.rows.find? fun u => u.email = email

/-! ### Invitations -/

/-- `OrganizationService.InviteResult`. -/
structure InviteResult where
  member : Option OrganizationMember
  user : Option User
  invitation : Option OrganizationInvitation
deriving DecidableEq, Repr

/-- `invitationRepository.findByOrganizationIdAndEmail`. -/
def findInvitation (d : Directory) (orgId : OrganizationId) (email : String) :
    Option OrganizationInvitation :=
  d.invitations.rows.find? fun i => i.organizationId = orgId ∧ i.email = email

/-- The invitation of an e-mail, saved: the row there is with the new role, or a new row. Its
organization and the user who invites exist. -/
def saveInvitation (orgId : OrganizationId) (email : String) (role : OrgRole)
    (invitedByUserId : Option UserId) : DirectoryService OrganizationInvitation := do
  let d ← get
  Tx.require ((d.organizations.find? orgId).isSome ∧
    ∀ u ∈ invitedByUserId, (d.users.find? u).isSome) .dataIntegrity
  match findInvitation d orgId email with
  | some inv =>
    set { d with
      invitations := d.invitations.modify (fun i => i.id = inv.id) (fun i =>
        { i with orgRole := role, invitedByUserId := invitedByUserId }) fun _ => rfl }
    return { inv with orgRole := role, invitedByUserId := invitedByUserId }
  | none =>
    set { d with
      invitations := d.invitations.insert (⟨·, orgId, email, role, invitedByUserId⟩) fun _ => rfl }
    return ⟨d.invitations.next, orgId, email, role, invitedByUserId⟩

/-- `OrganizationService.inviteMember`. -/
def inviteMember (orgId : OrganizationId) (rawEmail : Option String) (role : OrgRole)
    (invitedByUserId : Option UserId) : DirectoryService InviteResult := do
  rejectOwnerRole role
  let email := normalizeEmail toLowerCase rawEmail
  Tx.require (email ≠ "") (.conflict "Email is required")
  let d ← get
  match findUserByEmail d email with
  | some user =>
    let member ← addMember orgId user.id role
    return ⟨some member, some user, none⟩
  | none =>
    let invitation ← saveInvitation orgId email role invitedByUserId
    return ⟨none, none, some invitation⟩

/-- The user has no membership in the organization. -/
def NotMember (d : Directory) (orgId : OrganizationId) (userId : UserId) : Prop :=
  ∀ m ∈ d.members.rows, ¬ (m.organizationId = orgId ∧ m.userId = userId)

instance (d : Directory) (orgId : OrganizationId) (userId : UserId) :
    Decidable (NotMember d orgId userId) := inferInstanceAs (Decidable (∀ _ ∈ _, _))

/-- The turn of `resolvePendingInvitations` for one invitation. -/
def resolveInvitation (userId : UserId) (inv : OrganizationInvitation) :
    DirectoryService Unit := do
  let d ← get
  if NotMember d inv.organizationId userId then
    let _ ← saveMember inv.organizationId userId inv.orgRole
  modify fun d => { d with invitations := d.invitations.delete fun i => i.id = inv.id }

/-- `invitationRepository.findByEmail`. -/
def findInvitationsByEmail (d : Directory) (email : String) : List OrganizationInvitation :=
  d.invitations.rows.filter fun i => i.email = email

/-- `OrganizationService.resolvePendingInvitations`. -/
def resolvePendingInvitations (user : User) : DirectoryService Unit := do
  let email := normalizeEmail toLowerCase (some user.email)
  let d ← get
  if email = "" then return ()
  (findInvitationsByEmail d email).forM (resolveInvitation user.id)

/-! ### Personal organizations -/

/-- `email.split("@")[0]`: trailing empty parts are dropped, and a text of separators only has no
part at all. -/
def localPart (email : String) : Option String :=
  if email ≠ "" ∧ email.toList.all (· = '@') then none
  else some (String.ofList (email.toList.takeWhile (· ≠ '@')))

/-- `replaceAll("[^a-z0-9]", "-")` and `replaceAll("-+", "-")`. -/
def slugText (s : String) : String :=
  let dashed := s.toList.map fun c => if c.isLower || c.isDigit then c else '-'
  String.ofList
    (dashed.foldr (fun c cs => if c = '-' ∧ cs.head? = some '-' then cs else c :: cs) [])

/-- The slug that `generateUniqueSlug` tries in its turn `n`. -/
def slugAt (base : String) (n : ℕ) : String := if n = 0 then base else base ++ "-" ++ toString n

/-- `organizationRepository.existsBySlug`. -/
def existsBySlug (d : Directory) (slug : String) : Bool := d.organizations.rows.any (·.slug = slug)

/-- The first slug of the turns that no organization has. -/
def firstUnusedSlug (d : Directory) (base : String) : Option String :=
  ((List.range (d.organizations.rows.length + 1)).map (slugAt base)).find? fun slug =>
    !existsBySlug d slug

/-- `generateUniqueSlug`: one turn more than there are organizations finds a slug. -/
def generateUniqueSlug (d : Directory) (email : String) : Option String :=
  (localPart email).bind fun part => firstUnusedSlug d (slugText (toLowerCase part))

/-- `OrganizationService.createPersonalOrganization`; a display name that is `null` is printed. -/
def createPersonalOrganization (user : User) : DirectoryService Unit := do
  let d ← get
  let slug ← Tx.orElseThrow (generateUniqueSlug toLowerCase d user.email) .arrayIndex
  let _ ← createOrganization (user.displayName.getD "null" ++ "'s Organization") slug
    (some "Personal organization") user.id

end Email

/-! ### The search for a slug -/

theorem slugAt_injective (base : String) : Function.Injective (slugAt base) := by
  intro m n h
  have hsuffix : ∀ k, k ≠ 0 →
      (slugAt base k).toList = base.toList ++ ('-' :: Nat.toDigits 10 k) := by
    intro k hk
    simp [slugAt, hk]
  have hlist : (slugAt base m).toList = (slugAt base n).toList := by rw [h]
  by_cases hm : m = 0 <;> by_cases hn : n = 0
  · rw [hm, hn]
  · rw [hsuffix n hn, hm, slugAt, if_pos rfl] at hlist
    simp at hlist
  · rw [hsuffix m hm, hn, slugAt, if_pos rfl] at hlist
    simp at hlist
  · rw [hsuffix m hm, hsuffix n hn] at hlist
    have hdigits : Nat.toDigits 10 m = Nat.toDigits 10 n :=
      (List.cons.inj (List.append_cancel_left hlist)).2
    rw [← Nat.ofDigitChars_ten_toDigits (n := m), hdigits, Nat.ofDigitChars_ten_toDigits]

/-- The slugs of the organizations. -/
def Directory.slugs (d : Directory) : Finset String :=
  (d.organizations.rows.map Organization.slug).toFinset

theorem existsBySlug_eq (d : Directory) (slug : String) :
    existsBySlug d slug = decide (slug ∈ d.slugs) := by
  rw [Bool.eq_iff_iff, decide_eq_true_iff, Directory.slugs, List.mem_toFinset, List.mem_map,
    existsBySlug, List.any_eq_true]
  simp only [decide_eq_true_iff]

/-- The first slug that is free is the one that is used. -/
theorem firstUnusedSlug_eq_some {d : Directory} {base : String} {n : ℕ} (hn : n ≤ d.slugs.card)
    (hfree : slugAt base n ∉ d.slugs) (htaken : ∀ m < n, slugAt base m ∈ d.slugs) :
    firstUnusedSlug d base = some (slugAt base n) := by
  have hlength : d.slugs.card ≤ d.organizations.rows.length :=
    (List.toFinset_card_le _).trans_eq (List.length_map _)
  have hfind : (List.range (d.organizations.rows.length + 1)).find?
      (fun n => !existsBySlug d (slugAt base n)) = some n := by
    rw [List.find?_range_eq_some]
    refine ⟨?_, List.mem_range.mpr (Nat.lt_succ_of_le (hn.trans hlength)), fun m hm => ?_⟩
    · rw [existsBySlug_eq, decide_eq_false hfree]
      rfl
    · rw [existsBySlug_eq, decide_eq_true (htaken m hm)]
      rfl
  rw [firstUnusedSlug, List.find?_map, Function.comp_def, hfind]
  rfl

/-- The search for a slug ends: there are more turns than organizations. -/
theorem exists_unused_slug (d : Directory) (base : String) :
    ∃ slug, firstUnusedSlug d base = some slug := by
  obtain ⟨n, hn, hfree, htaken⟩ :=
    FreshName.exists_turn d.slugs (slugAt_injective base).injOn
  exact ⟨slugAt base n, firstUnusedSlug_eq_some hn hfree htaken⟩

/-! ### What committed calls do -/

/-- The invitation with the number is gone. -/
def Directory.deleteInvitation (d : Directory) (id : ℕ) : Directory :=
  { d with invitations := d.invitations.delete fun i => i.id = id }

section Specs

variable {toLowerCase : String → String} {d d' : Directory} {orgId : OrganizationId}
  {userId : UserId} {role : OrgRole}

theorem mem_insertMember {m : OrganizationMember} :
    m ∈ (d.insertMember orgId userId role).members.rows ↔
      m ∈ d.members.rows ∨ m = ⟨d.members.next, orgId, userId, role⟩ :=
  SerialTable.mem_insert fun _ => rfl

theorem mem_found {name slug : String} {description : Option String} {m : OrganizationMember} :
    m ∈ (d.found name slug description userId).members.rows ↔
      m ∈ d.members.rows ∨ m = ⟨d.members.next, d.organizations.next, userId, .owner⟩ :=
  mem_insertMember

theorem saveMember_run_eq_ok {member : OrganizationMember} :
    (saveMember orgId userId role).run d = .ok (member, d') ↔
      ((d.organizations.find? orgId).isSome ∧ (d.users.find? userId).isSome) ∧
        member = ⟨d.members.next, orgId, userId, role⟩ ∧
        d' = d.insertMember orgId userId role := by
  simp only [saveMember, Tx.run_get_bind_eq_ok, Tx.run_require_bind_eq_ok, Tx.run_set_bind_eq_ok,
    Tx.run_pure_eq_ok, Prod.mk.injEq]
  constructor
  · rintro ⟨hkeys, hmember, hd⟩
    exact ⟨hkeys, hmember.symm, hd.symm⟩
  · rintro ⟨hkeys, hmember, hd⟩
    exact ⟨hkeys, hmember.symm, hd.symm⟩

/-- What a committed `create` does. -/
theorem createOrganization_cases {name slug : String} {description : Option String}
    {org : Organization}
    (h : (createOrganization name slug description userId).run d = .ok (org, d')) :
    (d.users.find? userId).isSome ∧ org = ⟨d.organizations.next, name, slug, description⟩ ∧
      d' = d.found name slug description userId := by
  simp only [createOrganization, Tx.run_get_bind_eq_ok, Tx.run_require_bind_eq_ok,
    Tx.run_set_bind_eq_ok] at h
  obtain ⟨-, h⟩ := h
  obtain ⟨_, _, hsave, h⟩ := Tx.run_bind_eq_ok.mp h
  obtain ⟨⟨-, huser⟩, -, rfl⟩ := saveMember_run_eq_ok.mp hsave
  obtain ⟨rfl, rfl⟩ := Prod.mk.inj (Tx.run_pure_eq_ok.mp h)
  exact ⟨huser, rfl, rfl⟩

/-- What a committed `addMember` does. -/
theorem addMember_cases {member : OrganizationMember}
    (h : (addMember orgId userId role).run d = .ok (member, d')) :
    role ≠ .owner ∧ NotMember d orgId userId ∧ (d.organizations.find? orgId).isSome ∧
      (d.users.find? userId).isSome ∧ d' = d.insertMember orgId userId role := by
  simp only [addMember, rejectOwnerRole, Tx.run_require_bind_eq_ok, Tx.run_get_bind_eq_ok] at h
  obtain ⟨hrole, hnew, h⟩ := h
  obtain ⟨⟨horg, huser⟩, -, rfl⟩ := saveMember_run_eq_ok.mp h
  exact ⟨hrole, hnew, horg, huser, rfl⟩

theorem requireMemberInOrg_run_eq_ok {memberId : ℕ} {member : OrganizationMember} :
    (requireMemberInOrg memberId orgId).run d = .ok (member, d') ↔
      d.members.find? memberId = some member ∧ orgId = member.organizationId ∧ d' = d := by
  simp only [requireMemberInOrg, Tx.run_get_bind_eq_ok, Tx.run_orElseThrow_bind_eq_ok,
    Tx.run_require_bind_eq_ok, Tx.run_pure_eq_ok, Prod.mk.injEq]
  constructor
  · rintro ⟨_, hfind, horg, rfl, rfl⟩
    exact ⟨hfind, horg, rfl⟩
  · rintro ⟨hfind, horg, rfl⟩
    exact ⟨member, hfind, horg, rfl, rfl⟩

/-- What a committed `updateMemberRole` does. -/
theorem updateMemberRole_cases {memberId : ℕ} {member : OrganizationMember}
    (h : (updateMemberRole memberId orgId role).run d = .ok (member, d')) :
    role ≠ .owner ∧ (∃ old, d.members.find? memberId = some old ∧ old.orgRole ≠ .owner) ∧
      d' = { d with
        members := d.members.modify (fun m => m.id = memberId) (fun m =>
          { m with orgRole := role }) fun _ => rfl } := by
  rw [updateMemberRole, rejectOwnerRole, Tx.run_require_bind_eq_ok, Tx.run_bind_eq_ok] at h
  obtain ⟨hrole, old, _, hload, h⟩ := h
  obtain ⟨hfind, -, rfl⟩ := requireMemberInOrg_run_eq_ok.mp hload
  simp only [Tx.run_require_bind_eq_ok, Tx.run_modify_bind_eq_ok, Tx.run_pure_eq_ok,
    Prod.mk.injEq] at h
  obtain ⟨hold, -, rfl⟩ := h
  exact ⟨hrole, ⟨old, hfind, hold⟩, rfl⟩

/-- What a committed `removeMemberById` does. -/
theorem removeMemberById_cases {memberId : ℕ}
    (h : (removeMemberById memberId orgId).run d = .ok ((), d')) :
    (∃ old, d.members.find? memberId = some old ∧ old.orgRole ≠ .owner) ∧
      d' = { d with members := d.members.delete fun m => m.id = memberId } := by
  rw [removeMemberById, Tx.run_bind_eq_ok] at h
  obtain ⟨old, _, hload, h⟩ := h
  obtain ⟨hfind, -, rfl⟩ := requireMemberInOrg_run_eq_ok.mp hload
  simp only [Tx.run_require_bind_eq_ok, Tx.run_modify_eq_ok, Prod.mk.injEq] at h
  obtain ⟨hold, -, rfl⟩ := h
  exact ⟨⟨old, hfind, hold⟩, rfl⟩

/-- What a committed `revokeInvitation` does. -/
theorem revokeInvitation_cases {invitationId : ℕ}
    (h : (revokeInvitation invitationId orgId).run d = .ok ((), d')) :
    d' = d.deleteInvitation invitationId := by
  simp only [revokeInvitation, Tx.run_get_bind_eq_ok, Tx.run_orElseThrow_bind_eq_ok,
    Tx.run_require_bind_eq_ok] at h
  obtain ⟨inv, -, -, h⟩ := h
  exact (Prod.mk.inj (Except.ok.inj h)).2.symm

/-- A new invitation. -/
def Directory.insertInvitation (d : Directory) (orgId : OrganizationId) (email : String)
    (role : OrgRole) (invitedByUserId : Option UserId) : Directory :=
  { d with
    invitations := d.invitations.insert (⟨·, orgId, email, role, invitedByUserId⟩) fun _ => rfl }

/-- The invitation with the number has another role. -/
def Directory.setInvitation (d : Directory) (id : ℕ) (role : OrgRole)
    (invitedByUserId : Option UserId) : Directory :=
  { d with
    invitations := d.invitations.modify (fun i => i.id = id) (fun i =>
      { i with orgRole := role, invitedByUserId := invitedByUserId }) fun _ => rfl }

theorem mem_insertInvitation {email : String} {invitedByUserId : Option UserId}
    {i : OrganizationInvitation} :
    i ∈ (d.insertInvitation orgId email role invitedByUserId).invitations.rows ↔
      i ∈ d.invitations.rows ∨ i = ⟨d.invitations.next, orgId, email, role, invitedByUserId⟩ :=
  SerialTable.mem_insert fun _ => rfl

theorem saveInvitation_cases {email : String} {invitedByUserId : Option UserId}
    {inv : OrganizationInvitation}
    (h : (saveInvitation orgId email role invitedByUserId).run d = .ok (inv, d')) :
    ((d.organizations.find? orgId).isSome ∧ ∀ u ∈ invitedByUserId, (d.users.find? u).isSome) ∧
      ((∃ id, d' = d.setInvitation id role invitedByUserId) ∨
        d' = d.insertInvitation orgId email role invitedByUserId) := by
  rw [saveInvitation, Tx.run_get_bind_eq_ok, Tx.run_require_bind_eq_ok] at h
  obtain ⟨hkeys, h⟩ := h
  refine ⟨hkeys, ?_⟩
  rcases hfind : findInvitation d orgId email with _ | old <;>
    rw [hfind, Tx.run_set_bind_eq_ok, Tx.run_pure_eq_ok] at h
  · exact .inr (Prod.mk.inj h).2.symm
  · exact .inl ⟨old.id, (Prod.mk.inj h).2.symm⟩

/-- What a committed `inviteMember` does: a registered user joins, and for other e-mails an
invitation is saved. -/
theorem inviteMember_cases {rawEmail : Option String} {invitedByUserId : Option UserId}
    {r : InviteResult}
    (h : (inviteMember toLowerCase orgId rawEmail role invitedByUserId).run d = .ok (r, d')) :
    role ≠ .owner ∧ normalizeEmail toLowerCase rawEmail ≠ "" ∧
      ((∃ user member, findUserByEmail d (normalizeEmail toLowerCase rawEmail) = some user ∧
          (addMember orgId user.id role).run d = .ok (member, d')) ∨
        findUserByEmail d (normalizeEmail toLowerCase rawEmail) = none ∧
          ((d.organizations.find? orgId).isSome ∧
            ∀ u ∈ invitedByUserId, (d.users.find? u).isSome) ∧
          ((∃ id, d' = d.setInvitation id role invitedByUserId) ∨
            d' = d.insertInvitation orgId (normalizeEmail toLowerCase rawEmail) role
              invitedByUserId)) := by
  simp only [inviteMember, rejectOwnerRole, Tx.run_require_bind_eq_ok,
    Tx.run_get_bind_eq_ok] at h
  obtain ⟨hrole, hemail, h⟩ := h
  refine ⟨hrole, hemail, ?_⟩
  rcases hfind : findUserByEmail d (normalizeEmail toLowerCase rawEmail) with _ | user <;>
    rw [hfind, Tx.run_bind_eq_ok] at h
  · obtain ⟨_, _, hsave, h⟩ := h
    obtain ⟨-, rfl⟩ := Prod.mk.inj (Tx.run_pure_eq_ok.mp h)
    exact .inr ⟨rfl, saveInvitation_cases hsave⟩
  · obtain ⟨member, _, hadd, h⟩ := h
    obtain ⟨-, rfl⟩ := Prod.mk.inj (Tx.run_pure_eq_ok.mp h)
    exact .inl ⟨user, member, rfl, hadd⟩

/-- One turn of `resolvePendingInvitations`: the user joins, unless they are a member already, and
the invitation is gone. -/
theorem resolveInvitation_cases {inv : OrganizationInvitation}
    (h : (resolveInvitation userId inv).run d = .ok ((), d')) :
    d' = d.deleteInvitation inv.id ∨
      (NotMember d inv.organizationId userId ∧ (d.organizations.find? inv.organizationId).isSome ∧
        (d.users.find? userId).isSome ∧
        d' = (d.insertMember inv.organizationId userId inv.orgRole).deleteInvitation inv.id) := by
  rw [resolveInvitation, Tx.run_get_bind_eq_ok] at h
  by_cases hnew : NotMember d inv.organizationId userId
  · rw [if_pos hnew, Tx.run_bind_eq_ok] at h
    obtain ⟨_, _, hsave, h⟩ := h
    obtain ⟨⟨horg, huser⟩, -, rfl⟩ := saveMember_run_eq_ok.mp hsave
    exact .inr ⟨hnew, horg, huser, (Prod.mk.inj (Tx.run_modify_eq_ok.mp h)).2.symm⟩
  · rw [if_neg hnew] at h
    exact .inl (Prod.mk.inj (Tx.run_modify_eq_ok.mp h)).2.symm

/-- What a committed `resolvePendingInvitations` does: nothing, if the user has no e-mail, or one
turn for every invitation of their e-mail. -/
theorem resolvePendingInvitations_cases {user : User}
    (h : (resolvePendingInvitations toLowerCase user).run d = .ok ((), d')) :
    (normalizeEmail toLowerCase (some user.email) = "" ∧ d' = d) ∨
      ((findInvitationsByEmail d (normalizeEmail toLowerCase (some user.email))).forM
        (resolveInvitation user.id)).run d = .ok ((), d') := by
  rw [resolvePendingInvitations, Tx.run_get_bind_eq_ok] at h
  split_ifs at h with hempty
  · exact .inl ⟨hempty, (Prod.mk.inj (Tx.run_pure_eq_ok.mp h)).2.symm⟩
  · exact .inr h

/-- What a committed `createPersonalOrganization` does. -/
theorem createPersonalOrganization_cases {user : User}
    (h : (createPersonalOrganization toLowerCase user).run d = .ok ((), d')) :
    (d.users.find? user.id).isSome ∧ ∃ name slug description,
      d' = d.found name slug description user.id := by
  rw [createPersonalOrganization, Tx.run_get_bind_eq_ok, Tx.run_orElseThrow_bind_eq_ok] at h
  obtain ⟨slug, -, h⟩ := h
  obtain ⟨org, hcreate⟩ := Tx.run_discard_eq_ok h
  obtain ⟨huser, -, hd⟩ := createOrganization_cases hcreate
  exact ⟨huser, _, _, _, hd⟩

end Specs

end EdgeGuardian.Controller
