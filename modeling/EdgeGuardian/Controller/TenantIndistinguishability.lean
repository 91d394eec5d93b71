import EdgeGuardian.Controller.Devices
import EdgeGuardian.Controller.Organizations

/-!
# Records of other tenants are not told apart from missing ones

Eight operations of four services take the number of a record and the organization of the caller.
Every one of them checks the owner of the record before it looks at anything else in it, so that a
record of another organization is answered as if there were none. The one check that comes earlier,
that of the role given to `updateMemberRole`, reads no record.

Source: `controller/src/main/java/com/edgeguardian/controller/service/CertificateService.java`,
`EnrollmentService.java`, `ApiKeyService.java`, `OrganizationService.java`,
`controller/src/test/java/com/edgeguardian/controller/service/CrossTenantAccessTest.java`.

## Main definitions

* `Records`: all tables of the controller.
* `IdOperation`: the operations that name a record by its number; `IdOperation.call` is their
  outcome together with the tables after it.
* `IdOperation.owner`: the organization of the record with a number.

## Main results

* `IdOperation.call_of_owner_ne`: what a caller sees of a record that is not its own.
* `foreign_record_indistinguishable`: a record of another organization and no record.
-/

namespace EdgeGuardian.Controller

/-- All tables of the controller. -/
structure Records where
  db : Db
  directory : Directory

/-- The exceptions of the services. -/
inductive Failure
  | service (e : ServiceError)
  | organization (e : OrganizationError)
deriving DecidableEq, Repr

/-- The operations that name a record by its number. -/
inductive IdOperation
  | approve (reviewerUserId : Option UserId)
  | reject (reviewerUserId : Option UserId) (reason : Option String)
  | revoke (userId : Option UserId)
  | revokeToken
  | revokeApiKey
  | updateMemberRole (role : OrgRole)
  | removeMemberById
  | revokeInvitation
deriving DecidableEq, Repr

namespace Records

variable {α ε : Type}

/-- The outcome of a transaction on the tables of `Db`, and the tables after it. -/
def onDb (x : Service α) (r : Records) : Option Failure × Records :=
  match x.run r.db with
  | .ok (_, db) => (none, { r with db })
  | .error e => (some (.service e), r)

/-- The outcome of a transaction on the tables of `Directory`, and the tables after it. -/
def onDirectory (failure : ε → Failure) (x : Tx Directory ε α) (r : Records) :
    Option Failure × Records :=
  match x.run r.directory with
  | .ok (_, directory) => (none, { r with directory })
  | .error e => (some (failure e), r)

theorem onDb_of_run_eq_error {x : Service α} {r : Records} {e : ServiceError}
    (h : x.run r.db = .error e) : r.onDb x = (some (.service e), r) := by
  rw [onDb, h]

theorem onDirectory_of_run_eq_error {failure : ε → Failure} {x : Tx Directory ε α} {r : Records}
    {e : ε} (h : x.run r.directory = .error e) :
    r.onDirectory failure x = (some (failure e), r) := by
  rw [onDirectory, h]

end Records

namespace IdOperation

/-- The outcome of an operation on the record `id` for a caller of the organization `orgId`, and
the tables after it: a call that throws is rolled back. -/
def call (pki : PkiContext) (env : Env) (id : ℕ) (orgId : OrganizationId) (r : Records) :
    IdOperation → Option Failure × Records
  | approve reviewerUserId => r.onDb (Controller.approve pki env id orgId reviewerUserId)
  | reject reviewerUserId reason => r.onDb (Controller.reject env id orgId reviewerUserId reason)
  | revoke userId => r.onDb (Controller.revoke pki env id orgId userId)
  | revokeToken => r.onDb (Controller.revokeToken id orgId)
  | revokeApiKey => r.onDirectory .service (Controller.revokeApiKey id orgId)
  | updateMemberRole role =>
    r.onDirectory .organization (Controller.updateMemberRole id orgId role)
  | removeMemberById => r.onDirectory .organization (Controller.removeMemberById id orgId)
  | revokeInvitation => r.onDirectory .organization (Controller.revokeInvitation id orgId)

/-- The organization of the record `id` in the table of the operation, `none` if there is no such
record. -/
def owner (id : ℕ) (r : Records) : IdOperation → Option OrganizationId
  | approve _ => (r.db.requests.find? id).map CertificateRequest.organizationId
  | reject _ _ => (r.db.requests.find? id).map CertificateRequest.organizationId
  | revoke _ => (r.db.certificates.find? id).map IssuedCertificate.organizationId
  | revokeToken => (findEnrollmentTokenById r.db id).map EnrollmentToken.organizationId
  | revokeApiKey => (r.directory.apiKeys.find? id).map ApiKey.organizationId
  | updateMemberRole _ => (r.directory.members.find? id).map OrganizationMember.organizationId
  | removeMemberById => (r.directory.members.find? id).map OrganizationMember.organizationId
  | revokeInvitation =>
    (r.directory.invitations.find? id).map OrganizationInvitation.organizationId

/-- The failure of an operation for want of a record. -/
def missing : IdOperation → Failure
  | approve _ => .service (.status 404 "Request not found")
  | reject _ _ => .service (.status 404 "Request not found")
  | revoke _ => .service (.status 404 "Certificate not found")
  | revokeToken => .service (.status 404 "Token not found")
  | revokeApiKey => .service (.status 404 "API key not found")
  | updateMemberRole role =>
    .organization (if role = .owner then
      .conflict "OWNER role cannot be assigned - it is fixed at org creation"
    else .notFound "Member not found")
  | removeMemberById => .organization (.notFound "Member not found")
  | revokeInvitation => .organization (.notFound "Invitation not found")

end IdOperation

section

variable {pki : PkiContext} {env : Env} {id : ℕ} {orgId : OrganizationId}

theorem loadPending_run_eq_error {db : Db}
    (h : (db.requests.find? id).map CertificateRequest.organizationId ≠ some orgId) :
    (loadPending id orgId).run db = .error (.status 404 "Request not found") := by
  rw [loadPending, Tx.run_get_bind]
  exact Tx.run_orElseThrow_filter_bind_of_ne h

theorem revoke_run_eq_error {db : Db} {userId : Option UserId}
    (h : (db.certificates.find? id).map IssuedCertificate.organizationId ≠ some orgId) :
    (revoke pki env id orgId userId).run db = .error (.status 404 "Certificate not found") := by
  rw [revoke, Tx.run_get_bind]
  exact Tx.run_orElseThrow_filter_bind_of_ne h

theorem revokeToken_run_eq_error {db : Db}
    (h : (findEnrollmentTokenById db id).map EnrollmentToken.organizationId ≠ some orgId) :
    (revokeToken id orgId).run db = .error (.status 404 "Token not found") := by
  rw [revokeToken, Tx.run_get_bind]
  exact Tx.run_orElseThrow_filter_bind_of_ne h

/-- The role is refused before any record is loaded. -/
theorem updateMemberRole_run_eq_error {d : Directory} {role : OrgRole}
    (h : (d.members.find? id).map OrganizationMember.organizationId ≠ some orgId) :
    (updateMemberRole id orgId role).run d = .error (if role = .owner then
      .conflict "OWNER role cannot be assigned - it is fixed at org creation"
    else .notFound "Member not found") := by
  rw [updateMemberRole, rejectOwnerRole, Tx.require]
  by_cases hrole : role = .owner
  · rw [if_neg (fun hne => hne hrole), if_pos hrole]
    rfl
  · rw [if_pos hrole, if_neg hrole, pure_bind]
    exact Tx.run_bind_of_run_eq_error (requireMemberInOrg_run_eq_error h)

/-- An operation on a record that is not one of the caller's organization fails as it fails for want
of a record, and nothing is written. -/
theorem IdOperation.call_of_owner_ne {op : IdOperation} {r : Records}
    (h : op.owner id r ≠ some orgId) : op.call pki env id orgId r = (some op.missing, r) := by
  cases op with
  | approve _ =>
    exact Records.onDb_of_run_eq_error (Tx.run_bind_of_run_eq_error (loadPending_run_eq_error h))
  | reject _ _ =>
    exact Records.onDb_of_run_eq_error (Tx.run_bind_of_run_eq_error (loadPending_run_eq_error h))
  | revoke _ => exact Records.onDb_of_run_eq_error (revoke_run_eq_error h)
  | revokeToken => exact Records.onDb_of_run_eq_error (revokeToken_run_eq_error h)
  | revokeApiKey => exact Records.onDirectory_of_run_eq_error (revokeApiKey_run_eq_error h)
  | updateMemberRole _ =>
    exact Records.onDirectory_of_run_eq_error (updateMemberRole_run_eq_error h)
  | removeMemberById =>
    exact Records.onDirectory_of_run_eq_error
      (Tx.run_bind_of_run_eq_error (requireMemberInOrg_run_eq_error h))
  | revokeInvitation =>
    exact Records.onDirectory_of_run_eq_error (revokeInvitation_run_eq_error h)

end

/-- **Tenant indistinguishability.** An operation on a record that belongs to another organization
than the caller's fails, leaves every table as it is, and its failure is that of the same operation
where no record has the number, whatever else the tables hold and whatever the clock says. -/
theorem foreign_record_indistinguishable {pki pki₀ : PkiContext} {env env₀ : Env} {id : ℕ}
    {orgId orgId' : OrganizationId} {op : IdOperation} {r r₀ : Records}
    (howner : op.owner id r = some orgId') (hforeign : orgId' ≠ orgId)
    (habsent : op.owner id r₀ = none) :
    ∃ failure, op.call pki env id orgId r = (some failure, r) ∧
      op.call pki₀ env₀ id orgId r₀ = (some failure, r₀) := by
  refine ⟨op.missing, IdOperation.call_of_owner_ne ?_, IdOperation.call_of_owner_ne ?_⟩
  · intro h
    rw [howner] at h
    exact hforeign (Option.some.inj h)
  · rw [habsent]
    exact fun h => nomatch h

/-- The tables after an organization was created by the user of the directory, who then owns it. -/
def recordsWithOwner : Records where
  db := .empty .empty
  directory :=
    (createOrganization "Acme" "acme" none 1).commit { Directory.empty with
      users := Directory.empty.users.insert
        (⟨·, "kc-1", "owner@acme.test", none, none⟩) fun _ => rfl }

/-- The owner of the organization 1, for a caller of the organization 2. -/
theorem foreign_owner_indistinguishable :
    IdOperation.removeMemberById.owner 1 recordsWithOwner = some 1 ∧
    ∃ failure,
      IdOperation.removeMemberById.call default default 1 2 recordsWithOwner =
        (some failure, recordsWithOwner) ∧
      IdOperation.removeMemberById.call default default 1 2 ⟨.empty .empty, .empty⟩ =
        (some failure, ⟨.empty .empty, .empty⟩) := by
  have howner : IdOperation.removeMemberById.owner 1 recordsWithOwner = some 1 := by decide
  exact ⟨howner, foreign_record_indistinguishable howner (by decide) (by decide)⟩

end EdgeGuardian.Controller
