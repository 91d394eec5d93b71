import EdgeGuardian.Controller.Invitations
import EdgeGuardian.Lib.Transition

/-!
# Users and the calls that write the directory

A sign-in mirrors the user of a token in the directory: a user is looked up by the subject of the
token, then by its e-mail, and is registered if there is none. A user who registers gets an
organization of their own and, if the e-mail is verified, a membership for every invitation.

Source: `controller/src/main/java/com/edgeguardian/controller/service/UserService.java`,
`OrganizationService.java`, `controller/src/main/resources/db/migration/V1__core.sql`.

## Main definitions

* `Jwt`, `updateProfile`, `registerNewUser`, `syncFromJwt`.
* `DirectoryCall`, `directoryStep`: the calls, and their steps.

## Main results

* `syncFromJwt_cases`: everything that a committed sign-in does.
* `directoryStep_cases`: what a call does to the directory.
-/

namespace EdgeGuardian.Controller

/-! ### Sign-in -/

/-- The claims of a `Jwt` that are read. -/
structure Jwt where
  subject : Option String
  email : Option String
  name : Option String
  picture : Option String
  /-- `email_verified` is the boolean `true`. -/
  emailVerified : Bool
deriving DecidableEq, Repr

/-- `userRepository.findByKeycloakId`. -/
def findByKeycloakId (d : Directory) (keycloakId : String) : Option User :=
  d.users.rows.find? fun u => u.keycloakId = keycloakId

/-- The constraints of the schema on the users: nobody else has the subject or the e-mail. -/
def UniqueUser (d : Directory) (user : User) : Prop :=
  ∀ u ∈ d.users.rows, u.id ≠ user.id → u.keycloakId ≠ user.keycloakId ∧ u.email ≠ user.email

instance (d : Directory) (user : User) : Decidable (UniqueUser d user) :=
  inferInstanceAs (Decidable (∀ u ∈ d.users.rows, u.id ≠ user.id →
    u.keycloakId ≠ user.keycloakId ∧ u.email ≠ user.email))

/-- The row of the user is replaced. -/
def Directory.setUser (d : Directory) (user : User) : Directory :=
  { d with
    users := d.users.modify (fun u => u.id = user.id) (fun u => { user with id := u.id })
      fun _ => rfl }

/-- A user is written at the end of the transaction if the row has changed. -/
def saveUser (user : User) : DirectoryService Unit := do
  let d ← get
  if d.users.find? user.id = some user then return ()
  Tx.require (UniqueUser d user) .dataIntegrity
  set (d.setUser user)

/-- The user with the profile of a token. -/
def User.withProfile (user : User) (jwt : Jwt) : User :=
  { user with
    email := jwt.email.getD user.email
    displayName := jwt.name.or user.displayName
    avatarUrl := jwt.picture.or user.avatarUrl }

/-- `UserService.updateProfile`. -/
def updateProfile (user : User) (jwt : Jwt) : DirectoryService User := do
  saveUser (user.withProfile jwt)
  return user.withProfile jwt

section SyncFromJwt

variable (toLowerCase : String → String)

/-- `UserService.registerNewUser`: the subject and the e-mail are not null. -/
def registerNewUser (jwt : Jwt) : DirectoryService User := do
  let subject ← Tx.orElseThrow jwt.subject .dataIntegrity
  let email ← Tx.orElseThrow jwt.email .dataIntegrity
  let d ← get
  let newUser (id : ℕ) : User := ⟨id, subject, email, some (jwt.name.getD email), jwt.picture⟩
  let user := newUser d.users.next
  Tx.require (UniqueUser d user) .dataIntegrity
  set { d with users := d.users.insert newUser fun _ => rfl }
  createPersonalOrganization toLowerCase user
  if jwt.emailVerified then resolvePendingInvitations toLowerCase user
  return user

/-- `UserService.syncFromJwt`. -/
def syncFromJwt (jwt : Jwt) : DirectoryService User := do
  let d ← get
  match jwt.subject.bind (findByKeycloakId d) with
  | some user => updateProfile user jwt
  | none =>
    match jwt.email.bind (findUserByEmail d) with
    | some existing =>
      let subject ← Tx.orElseThrow jwt.subject .dataIntegrity
      updateProfile { existing with keycloakId := subject } jwt
    | none => registerNewUser toLowerCase jwt

end SyncFromJwt

/-! ### What a committed sign-in does -/

/-- A new user. -/
def Directory.insertUser (d : Directory) (subject email : String)
    (displayName avatarUrl : Option String) : Directory :=
  { d with users := d.users.insert (⟨·, subject, email, displayName, avatarUrl⟩) fun _ => rfl }

section Specs

variable {toLowerCase : String → String} {d d' : Directory} {jwt : Jwt} {user : User}

theorem updateProfile_cases {user' : User}
    (h : (updateProfile user jwt).run d = .ok (user', d')) :
    user' = user.withProfile jwt ∧
      (d' = d ∧ d.users.find? user.id = some (user.withProfile jwt) ∨
        UniqueUser d (user.withProfile jwt) ∧ d' = d.setUser (user.withProfile jwt)) := by
  rw [updateProfile, Tx.run_bind_eq_ok] at h
  obtain ⟨_, _, hsave, h⟩ := h
  obtain ⟨rfl, rfl⟩ := Prod.mk.inj (Tx.run_pure_eq_ok.mp h)
  refine ⟨rfl, ?_⟩
  rw [saveUser, Tx.run_get_bind_eq_ok] at hsave
  split_ifs at hsave with hsame
  · exact .inl ⟨(Prod.mk.inj (Tx.run_pure_eq_ok.mp hsave)).2.symm, hsame⟩
  · rw [Tx.run_require_bind_eq_ok] at hsave
    exact .inr ⟨hsave.1, (Prod.mk.inj (Except.ok.inj hsave.2)).2.symm⟩

/-- A profile that breaks no constraint is saved. -/
theorem exists_updateProfile (h : UniqueUser d (user.withProfile jwt)) :
    ∃ d', (updateProfile user jwt).run d = .ok (user.withProfile jwt, d') := by
  simp only [updateProfile, Tx.run_bind_eq_ok, saveUser, Tx.run_get_bind, Tx.run_pure_eq_ok,
    Prod.mk.injEq, true_and]
  by_cases hsame : d.users.find? (user.withProfile jwt).id = some (user.withProfile jwt)
  · exact ⟨d, (), d, by rw [if_pos hsame]; rfl, rfl⟩
  · refine ⟨d.setUser (user.withProfile jwt), (), _, ?_, rfl⟩
    rw [if_neg hsame, Tx.run_require_bind_eq_ok]
    exact ⟨h, rfl⟩

/-- Everything that a committed sign-in does: the profile of the user of the subject is updated, the
user of the e-mail is bound to the subject, or a user is registered. -/
inductive Synced (toLowerCase : String → String) (jwt : Jwt) (d : Directory) :
    User → Directory → Prop
  | bySubject {user user' : User} {d' : Directory}
      (hfind : jwt.subject.bind (findByKeycloakId d) = some user)
      (hupdate : (updateProfile user jwt).run d = .ok (user', d')) :
      Synced toLowerCase jwt d user' d'
  | byEmail {subject : String} {existing user' : User} {d' : Directory}
      (hsubject : jwt.subject = some subject)
      (hnone : jwt.subject.bind (findByKeycloakId d) = none)
      (hfind : jwt.email.bind (findUserByEmail d) = some existing)
      (hupdate : (updateProfile { existing with keycloakId := subject } jwt).run d =
        .ok (user', d')) :
      Synced toLowerCase jwt d user' d'
  | registered (name slug : String) (description : Option String) {subject email : String}
      {d' : Directory}
      (hsubject : jwt.subject = some subject) (hemail : jwt.email = some email)
      (hsubjectNone : jwt.subject.bind (findByKeycloakId d) = none)
      (hemailNone : jwt.email.bind (findUserByEmail d) = none)
      (hunique : UniqueUser d
        ⟨d.users.next, subject, email, some (jwt.name.getD email), jwt.picture⟩)
      (hresolved :
        let user : User := ⟨d.users.next, subject, email, some (jwt.name.getD email), jwt.picture⟩
        let d₁ := (d.insertUser subject email user.displayName user.avatarUrl).found name slug
          description user.id
        if jwt.emailVerified then
          (resolvePendingInvitations toLowerCase user).run d₁ = .ok ((), d')
        else d' = d₁) :
      Synced toLowerCase jwt d
        ⟨d.users.next, subject, email, some (jwt.name.getD email), jwt.picture⟩ d'

theorem syncFromJwt_cases (h : (syncFromJwt toLowerCase jwt).run d = .ok (user, d')) :
    Synced toLowerCase jwt d user d' := by
  rw [syncFromJwt, Tx.run_get_bind_eq_ok] at h
  rcases hsubject : jwt.subject.bind (findByKeycloakId d) with _ | known <;>
    simp only [hsubject] at h
  · rcases hemail : jwt.email.bind (findUserByEmail d) with _ | existing <;>
      simp only [hemail] at h
    · rw [registerNewUser, Tx.run_orElseThrow_bind_eq_ok] at h
      obtain ⟨subject, hs, h⟩ := h
      rw [Tx.run_orElseThrow_bind_eq_ok] at h
      obtain ⟨email, he, h⟩ := h
      rw [Tx.run_get_bind_eq_ok, Tx.run_require_bind_eq_ok] at h
      obtain ⟨hunique, h⟩ := h
      rw [Tx.run_set_bind_eq_ok, Tx.run_bind_eq_ok] at h
      obtain ⟨_, _, hpersonal, h⟩ := h
      obtain ⟨-, name, slug, description, rfl⟩ := createPersonalOrganization_cases hpersonal
      dsimp only at h
      by_cases hverified : jwt.emailVerified
      · rw [if_pos hverified, Tx.run_bind_eq_ok] at h
        obtain ⟨_, _, hresolve, h⟩ := h
        obtain ⟨rfl, rfl⟩ := Prod.mk.inj (Tx.run_pure_eq_ok.mp h)
        refine .registered name slug description hs he hsubject hemail hunique ?_
        rw [if_pos hverified]
        exact hresolve
      · rw [if_neg hverified] at h
        obtain ⟨rfl, rfl⟩ := Prod.mk.inj (Tx.run_pure_eq_ok.mp h)
        refine .registered name slug description hs he hsubject hemail hunique ?_
        rw [if_neg hverified]
        rfl
    · rw [Tx.run_orElseThrow_bind_eq_ok] at h
      obtain ⟨subject, hs, h⟩ := h
      exact .byEmail hs hsubject hemail h
  · exact .bySubject hsubject h

end Specs

/-! ### Calls -/

/-- The methods of `UserService` and `OrganizationService` that write the directory. -/
inductive DirectoryCall
  | syncFromJwt (jwt : Jwt)
  | create (name slug : String) (description : Option String) (ownerUserId : UserId)
  | addMember (orgId : OrganizationId) (userId : UserId) (role : OrgRole)
  | updateMemberRole (memberId : ℕ) (orgId : OrganizationId) (role : OrgRole)
  | removeMemberById (memberId : ℕ) (orgId : OrganizationId)
  | inviteMember (orgId : OrganizationId) (rawEmail : Option String) (role : OrgRole)
      (invitedByUserId : Option UserId)
  | resolvePendingInvitations (user : User)
  | revokeInvitation (invitationId : ℕ) (orgId : OrganizationId)
  | delete (orgId : OrganizationId)
deriving DecidableEq, Repr

/-- The transaction of a call, without its result. -/
def DirectoryCall.perform (toLowerCase : String → String) : DirectoryCall → DirectoryService Unit
  | .syncFromJwt jwt => do let _ ← Controller.syncFromJwt toLowerCase jwt
  | .create name slug description ownerUserId => do
    let _ ← createOrganization name slug description ownerUserId
  | .addMember orgId userId role => do let _ ← Controller.addMember orgId userId role
  | .updateMemberRole memberId orgId role => do
    let _ ← Controller.updateMemberRole memberId orgId role
  | .removeMemberById memberId orgId => Controller.removeMemberById memberId orgId
  | .inviteMember orgId rawEmail role invitedByUserId => do
    let _ ← Controller.inviteMember toLowerCase orgId rawEmail role invitedByUserId
  | .resolvePendingInvitations user => Controller.resolvePendingInvitations toLowerCase user
  | .revokeInvitation invitationId orgId => Controller.revokeInvitation invitationId orgId
  | .delete orgId => modify (deleteOrganization orgId)

/-- A call; one that throws is rolled back. -/
def directoryStep (toLowerCase : String → String) (d : Directory) (call : DirectoryCall) :
    Option Directory :=
  some ((call.perform toLowerCase).commit d)

/-- What a committed call does to the directory, under the checks that it has passed. -/
inductive Committed (toLowerCase : String → String) (d : Directory) :
    DirectoryCall → Directory → Prop
  | synced {jwt : Jwt} {user : User} {d' : Directory} (h : Synced toLowerCase jwt d user d') :
      Committed toLowerCase d (.syncFromJwt jwt) d'
  | created {name slug : String} {description : Option String} {ownerUserId : UserId}
      (huser : (d.users.find? ownerUserId).isSome) :
      Committed toLowerCase d (.create name slug description ownerUserId)
        (d.found name slug description ownerUserId)
  | joined {orgId : OrganizationId} {userId : UserId} {role : OrgRole} (hrole : role ≠ .owner)
      (hnew : NotMember d orgId userId) (horg : (d.organizations.find? orgId).isSome)
      (huser : (d.users.find? userId).isSome) :
      Committed toLowerCase d (.addMember orgId userId role) (d.insertMember orgId userId role)
  | roleSet {old : OrganizationMember} {orgId : OrganizationId} {role : OrgRole}
      (hfind : d.members.find? old.id = some old) (hold : old.orgRole ≠ .owner)
      (hrole : role ≠ .owner) :
      Committed toLowerCase d (.updateMemberRole old.id orgId role)
        { d with
          members := d.members.modify (fun m => m.id = old.id) (fun m =>
            { m with orgRole := role }) fun _ => rfl }
  | removed {old : OrganizationMember} {orgId : OrganizationId}
      (hfind : d.members.find? old.id = some old) (hold : old.orgRole ≠ .owner) :
      Committed toLowerCase d (.removeMemberById old.id orgId)
        { d with members := d.members.delete fun m => m.id = old.id }
  | joinedByInvitation {orgId : OrganizationId} {rawEmail : Option String} {role : OrgRole}
      {invitedByUserId : Option UserId} {user : User} (hrole : role ≠ .owner)
      (hfind : findUserByEmail d (normalizeEmail toLowerCase rawEmail) = some user)
      (hnew : NotMember d orgId user.id) (horg : (d.organizations.find? orgId).isSome)
      (huser : (d.users.find? user.id).isSome) :
      Committed toLowerCase d (.inviteMember orgId rawEmail role invitedByUserId)
        (d.insertMember orgId user.id role)
  | invitedAgain {orgId : OrganizationId} {rawEmail : Option String} {role : OrgRole}
      {invitedByUserId : Option UserId} (id : ℕ) (hrole : role ≠ .owner)
      (hnone : findUserByEmail d (normalizeEmail toLowerCase rawEmail) = none) :
      Committed toLowerCase d (.inviteMember orgId rawEmail role invitedByUserId)
        (d.setInvitation id role invitedByUserId)
  | invited {orgId : OrganizationId} {rawEmail : Option String} {role : OrgRole}
      {invitedByUserId : Option UserId} (hrole : role ≠ .owner)
      (hemail : normalizeEmail toLowerCase rawEmail ≠ "")
      (hnone : findUserByEmail d (normalizeEmail toLowerCase rawEmail) = none)
      (hkeys : (d.organizations.find? orgId).isSome ∧
        ∀ u ∈ invitedByUserId, (d.users.find? u).isSome) :
      Committed toLowerCase d (.inviteMember orgId rawEmail role invitedByUserId)
        (d.insertInvitation orgId (normalizeEmail toLowerCase rawEmail) role invitedByUserId)
  | resolved {user : User} {d' : Directory}
      (h : (resolvePendingInvitations toLowerCase user).run d = .ok ((), d')) :
      Committed toLowerCase d (.resolvePendingInvitations user) d'
  | uninvited {invitationId : ℕ} {orgId : OrganizationId} :
      Committed toLowerCase d (.revokeInvitation invitationId orgId)
        (d.deleteInvitation invitationId)
  | dissolved {orgId : OrganizationId} :
      Committed toLowerCase d (.delete orgId) (deleteOrganization orgId d)

theorem committed_of_perform {toLowerCase : String → String} {d d' : Directory}
    {call : DirectoryCall} (h : (call.perform toLowerCase).run d = .ok ((), d')) :
    Committed toLowerCase d call d' := by
  cases call with
  | syncFromJwt jwt =>
    obtain ⟨user, h⟩ := Tx.run_discard_eq_ok h
    exact .synced (syncFromJwt_cases h)
  | create name slug description ownerUserId =>
    obtain ⟨org, h⟩ := Tx.run_discard_eq_ok h
    obtain ⟨huser, -, rfl⟩ := createOrganization_cases h
    exact .created huser
  | addMember orgId userId role =>
    obtain ⟨member, h⟩ := Tx.run_discard_eq_ok h
    obtain ⟨hrole, hnew, horg, huser, rfl⟩ := addMember_cases h
    exact .joined hrole hnew horg huser
  | updateMemberRole memberId orgId role =>
    obtain ⟨member, h⟩ := Tx.run_discard_eq_ok h
    obtain ⟨hrole, ⟨old, hfind, hold⟩, rfl⟩ := updateMemberRole_cases h
    obtain rfl : old.id = memberId := Table.key_of_find?_eq_some hfind
    exact .roleSet hfind hold hrole
  | removeMemberById memberId orgId =>
    obtain ⟨⟨old, hfind, hold⟩, rfl⟩ := removeMemberById_cases h
    obtain rfl : old.id = memberId := Table.key_of_find?_eq_some hfind
    exact .removed hfind hold
  | inviteMember orgId rawEmail role invitedByUserId =>
    obtain ⟨r, h⟩ := Tx.run_discard_eq_ok h
    obtain ⟨hrole, hemail, ⟨user, member, hfind, hadd⟩ | ⟨hnone, hkeys, ⟨id, rfl⟩ | rfl⟩⟩ :=
      inviteMember_cases h
    · obtain ⟨-, hnew, horg, huser, rfl⟩ := addMember_cases hadd
      exact .joinedByInvitation hrole hfind hnew horg huser
    · exact .invitedAgain id hrole hnone
    · exact .invited hrole hemail hnone hkeys
  | resolvePendingInvitations user => exact .resolved h
  | revokeInvitation invitationId orgId =>
    rw [revokeInvitation_cases h]
    exact .uninvited
  | delete orgId =>
    obtain ⟨-, rfl⟩ := Prod.mk.inj (Tx.run_modify_eq_ok.mp h)
    exact .dissolved

/-- A step is a committed call, or changes nothing. -/
theorem directoryStep_cases {toLowerCase : String → String} {d d' : Directory}
    {call : DirectoryCall} (h : directoryStep toLowerCase d call = some d') :
    d' = d ∨ Committed toLowerCase d call d' := by
  rcases Tx.eq_or_run_of_commit h with heq | ⟨_, hrun⟩
  · exact .inl heq
  · exact .inr (committed_of_perform hrun)

end EdgeGuardian.Controller
