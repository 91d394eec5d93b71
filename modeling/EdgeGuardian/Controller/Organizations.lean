import EdgeGuardian.Controller.Model

/-!
# Organizations, their members and API keys

The services that own the membership graph. Members, invitations and API keys are rows with an
organization and are addressed by their number. `OrganizationService` loads the row first and then
compares its organization with that of the caller; `ApiKeyService` filters the row that it loads.
The owner of an organization is its creator: the role can neither be given nor taken away, and goes
with the organization.

Source: `controller/src/main/java/com/edgeguardian/controller/service/OrganizationService.java`,
`ApiKeyService.java`, `controller/src/main/resources/db/migration/V1__core.sql`,
`V7__invitations.sql`.

## Main definitions

* `Organization`, `User`, `OrganizationMember`, `OrganizationInvitation`, `ApiKey`, `Directory`: the
  tables of the membership graph.
* `createOrganization`, `addMember`, `updateMemberRole`, `removeMemberById`, `revokeInvitation`,
  `deleteOrganization`, `revokeApiKey`.

## Main results

* `requireMemberInOrg_run_eq_error`, `revokeInvitation_run_eq_error`, `revokeApiKey_run_eq_error`:
  a row of another organization is reported as no row is.
-/

namespace EdgeGuardian.Controller

/-! ### Entities -/

/-- `OrgRole`. -/
inductive OrgRole
  | owner
  | admin
  | operator
  | viewer
deriving DecidableEq, Repr

/-- `Organization`. -/
structure Organization where
  id : OrganizationId
  name : String
  slug : String
  description : Option String
deriving DecidableEq, Repr

/-- `User`. -/
structure User where
  id : UserId
  keycloakId : String
  email : String
  displayName : Option String
  avatarUrl : Option String
deriving DecidableEq, Repr

/-- `OrganizationMember`. -/
structure OrganizationMember where
  id : ℕ
  organizationId : OrganizationId
  userId : UserId
  orgRole : OrgRole
deriving DecidableEq, Repr

/-- `OrganizationInvitation`. -/
structure OrganizationInvitation where
  id : ℕ
  organizationId : OrganizationId
  email : String
  orgRole : OrgRole
  invitedByUserId : Option UserId
deriving DecidableEq, Repr

/-- `ApiKey`. -/
structure ApiKey where
  id : ℕ
  organizationId : OrganizationId
  keyHash : String
  keyPrefix : String
  name : String
  scopes : List String
  expiresAt : Option Instant
  revoked : Bool
  lastUsedAt : Option Instant
  createdBy : Option UserId
deriving DecidableEq, Repr

/-- The tables of the membership graph. -/
structure Directory where
  organizations : SerialTable Organization Organization.id
  users : SerialTable User User.id
  members : SerialTable OrganizationMember OrganizationMember.id
  invitations : SerialTable OrganizationInvitation OrganizationInvitation.id
  apiKeys : SerialTable ApiKey ApiKey.id

/-- A directory without rows. -/
def Directory.empty : Directory where
  organizations := .empty
  users := .empty
  members := .empty
  invitations := .empty
  apiKeys := .empty

/-- The exceptions that leave `OrganizationService`. -/
inductive OrganizationError
  /-- `ConflictException`. -/
  | conflict (message : String)
  /-- `NotFoundException`. -/
  | notFound (message : String)
  /-- `DataIntegrityViolationException`: a constraint of the schema refuses the row. -/
  | dataIntegrity
  /-- `ArrayIndexOutOfBoundsException`. -/
  | arrayIndex
deriving DecidableEq, Repr

/-- A transactional method of `OrganizationService`. -/
abbrev DirectoryService := Tx Directory OrganizationError

/-! ### Organizations -/

/-- `memberRepository.save` of a new member: its organization and its user exist. -/
def saveMember (organizationId : OrganizationId) (userId : UserId) (orgRole : OrgRole) :
    DirectoryService OrganizationMember := do
  let d ← get
  Tx.require ((d.organizations.find? organizationId).isSome ∧ (d.users.find? userId).isSome)
    .dataIntegrity
  set { d with members := d.members.insert (⟨·, organizationId, userId, orgRole⟩) fun _ => rfl }
  return ⟨d.members.next, organizationId, userId, orgRole⟩

/-- `OrganizationService.create`. -/
def createOrganization (name slug : String) (description : Option String) (ownerUserId : UserId) :
    DirectoryService Organization := do
  let d ← get
  Tx.require (∀ o ∈ d.organizations.rows, o.slug ≠ slug)
    (.conflict "Organization slug already exists")
  set { d with
    organizations := d.organizations.insert (⟨·, name, slug, description⟩) fun _ => rfl }
  let _ ← saveMember d.organizations.next ownerUserId .owner
  return ⟨d.organizations.next, name, slug, description⟩

/-- A new member. -/
def Directory.insertMember (d : Directory) (orgId : OrganizationId) (userId : UserId)
    (role : OrgRole) : Directory :=
  { d with members := d.members.insert (⟨·, orgId, userId, role⟩) fun _ => rfl }

/-- A new organization with its owner. -/
def Directory.found (d : Directory) (name slug : String) (description : Option String)
    (ownerUserId : UserId) : Directory :=
  Directory.insertMember
    { d with organizations := d.organizations.insert (⟨·, name, slug, description⟩) fun _ => rfl }
    d.organizations.next ownerUserId .owner

/-- `OrganizationService.delete`, with the cascades of the schema. -/
def deleteOrganization (orgId : OrganizationId) (d : Directory) : Directory :=
  { d with
    organizations := d.organizations.delete fun o => o.id = orgId
    members := d.members.delete fun m => m.organizationId = orgId
    invitations := d.invitations.delete fun i => i.organizationId = orgId
    apiKeys := d.apiKeys.delete fun k => k.organizationId = orgId }

/-! ### Members -/

/-- `rejectOwnerRole`. -/
def rejectOwnerRole (role : OrgRole) : DirectoryService Unit :=
  Tx.require (role ≠ .owner)
    (.conflict "OWNER role cannot be assigned - it is fixed at org creation")

/-- `OrganizationService.addMember`. -/
def addMember (orgId : OrganizationId) (userId : UserId) (role : OrgRole) :
    DirectoryService OrganizationMember := do
  rejectOwnerRole role
  let d ← get
  Tx.require (∀ m ∈ d.members.rows, ¬ (m.organizationId = orgId ∧ m.userId = userId))
    (.conflict "User is already a member")
  saveMember orgId userId role

/-- `requireMemberInOrg`. -/
def requireMemberInOrg (memberId : ℕ) (orgId : OrganizationId) :
    DirectoryService OrganizationMember := do
  let d ← get
  let member ← Tx.orElseThrow (d.members.find? memberId) (.notFound "Member not found")
  Tx.require (orgId = member.organizationId) (.notFound "Member not found")
  return member

/-- `OrganizationService.updateMemberRole`. -/
def updateMemberRole (memberId : ℕ) (orgId : OrganizationId) (role : OrgRole) :
    DirectoryService OrganizationMember := do
  rejectOwnerRole role
  let member ← requireMemberInOrg memberId orgId
  Tx.require (member.orgRole ≠ .owner) (.conflict "The organization owner's role cannot be changed")
  modify fun d => { d with
    members := d.members.modify (fun m => m.id = memberId) (fun m =>
      { m with orgRole := role }) fun _ => rfl }
  return { member with orgRole := role }

/-- `OrganizationService.removeMemberById`. -/
def removeMemberById (memberId : ℕ) (orgId : OrganizationId) : DirectoryService Unit := do
  let member ← requireMemberInOrg memberId orgId
  Tx.require (member.orgRole ≠ .owner)
    (.conflict "The organization owner cannot be removed - delete the organization instead")
  modify fun d => { d with members := d.members.delete fun m => m.id = memberId }

/-! ### Invitations and API keys -/

/-- `OrganizationService.revokeInvitation`. -/
def revokeInvitation (invitationId : ℕ) (orgId : OrganizationId) : DirectoryService Unit := do
  let d ← get
  let inv ← Tx.orElseThrow (d.invitations.find? invitationId) (.notFound "Invitation not found")
  Tx.require (orgId = inv.organizationId) (.notFound "Invitation not found")
  set { d with invitations := d.invitations.delete fun i => i.id = invitationId }

/-- `ApiKeyService.revoke`. -/
def revokeApiKey (keyId : ℕ) (expectedOrgId : OrganizationId) : Tx Directory ServiceError Unit := do
  let d ← get
  let key ← Tx.orElseThrow
    ((d.apiKeys.find? keyId).filter fun k => k.organizationId = expectedOrgId)
    (.status 404 "API key not found")
  set { d with
    apiKeys := d.apiKeys.modify (fun k => k.id = key.id) (fun k =>
      { k with revoked := true }) fun _ => rfl }

/-! ### Rows of other organizations -/

section Foreign

variable {d : Directory} {orgId : OrganizationId}

theorem requireMemberInOrg_run_eq_error {memberId : ℕ}
    (h : (d.members.find? memberId).map OrganizationMember.organizationId ≠ some orgId) :
    (requireMemberInOrg memberId orgId).run d = .error (.notFound "Member not found") := by
  rw [requireMemberInOrg, Tx.run_get_bind]
  exact Tx.run_orElseThrow_require_bind_of_ne h

theorem revokeInvitation_run_eq_error {invitationId : ℕ}
    (h : (d.invitations.find? invitationId).map OrganizationInvitation.organizationId ≠
      some orgId) :
    (revokeInvitation invitationId orgId).run d = .error (.notFound "Invitation not found") := by
  rw [revokeInvitation, Tx.run_get_bind]
  exact Tx.run_orElseThrow_require_bind_of_ne h

theorem revokeApiKey_run_eq_error {keyId : ℕ}
    (h : (d.apiKeys.find? keyId).map ApiKey.organizationId ≠ some orgId) :
    (revokeApiKey keyId orgId).run d = .error (.status 404 "API key not found") := by
  rw [revokeApiKey, Tx.run_get_bind]
  exact Tx.run_orElseThrow_filter_bind_of_ne h

end Foreign

end EdgeGuardian.Controller
