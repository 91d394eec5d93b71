import EdgeGuardian.Controller.DeviceDeletion
import EdgeGuardian.Controller.HttpSecurity
import EdgeGuardian.Lib.Delegation

/-!
# How authority in an organization is gained

The principal of a request is found again for every request, so that authority in an organization is
what the directory says: memberships with their roles, API keys that are not revoked, and
invitations, which become memberships when somebody with the e-mail registers. This module follows
the directory over runs of requests to the API, with the sign-in that comes with a bearer token, and
shows that only three endpoints of the organization widen this authority.

Source: `api/OrganizationController.java`, `api/ApiKeyController.java`,
`security/JwtTenantConverter.java`, `service/OrganizationService.java`, `service/ApiKeyService.java`
under `controller/src/main/java/com/edgeguardian/controller/`,
`controller/src/main/resources/db/migration/V1__core.sql`, `V3__commands.sql`, `V4__pki.sql`.

## Main definitions

* `ApiCall`, `ApiCall.perform`: what the handlers write.
* `Api`, `step`: runs of requests.
* `rights`: the authority in an organization.
* `Widens`: a request that may add to it.

## Main results

* `exists_admin_of_widens`: it is made by a user who is at least an administrator.
* `authority_within_of_reaches`: in a run without such a request, nothing is gained but by
  registering with an e-mail that was invited.
* `authority_of_handledFor`: what this says about the requests that are handled after the run.
-/

namespace EdgeGuardian.Controller.Http

open Transition

/-! ### What the handlers write -/

/-- `OrganizationService.update`. -/
def updateOrganization (orgId : OrganizationId) (name : String) (description : Option String) :
    DirectoryService Unit := do
  let d ← get
  let _ ← Tx.orElseThrow (d.organizations.find? orgId) (.notFound "Organization not found")
  set { d with
    organizations := d.organizations.modify (fun o => o.id = orgId) (fun o =>
      { o with name := name, description := description.or o.description }) fun _ => rfl }

/-- `ApiKeyService.create`, for the random key `rawKey`: the hash of a key is unique, and its
organization and its creator exist. -/
def createApiKey (sha256 : String → String) (orgId : OrganizationId) (name : String)
    (scopes : Option (List String)) (expiresAt : Option Instant) (createdBy : Option UserId)
    (rawKey : String) : DirectoryService Unit := do
  let d ← get
  Tx.require ((∀ k ∈ d.apiKeys.rows, k.keyHash ≠ sha256 rawKey) ∧
    (d.organizations.find? orgId).isSome ∧ ∀ u ∈ createdBy, (d.users.find? u).isSome)
    .dataIntegrity
  set { d with
    apiKeys := d.apiKeys.insert (fun id => {
      id := id
      organizationId := orgId
      keyHash := sha256 rawKey
      keyPrefix := String.ofList (rawKey.toList.take 8)
      name := name
      scopes := scopes.getD []
      expiresAt := expiresAt
      revoked := false
      lastUsedAt := none
      createdBy := createdBy }) fun _ => rfl }

/-- What the foreign keys of the schema take with the row of an organization: its rows, and the rows
of its devices. -/
def deleteOrganizationRows (orgId : OrganizationId) (db : Db) : Db :=
  let ofDevice (deviceId : String) : Prop :=
    ∃ d ∈ db.devices.find? deviceId, d.organizationId = orgId
  { db with
    devices := db.devices.delete fun d => d.organizationId = orgId
    deviceTokens := db.deviceTokens.delete fun t => ofDevice t.deviceId
    manifests := db.manifests.delete fun m => m.organizationId = orgId ∨ ofDevice m.deviceId
    enrollmentTokens := db.enrollmentTokens.delete fun t => t.organizationId = orgId
    requests := db.requests.delete fun r => r.organizationId = orgId ∨ ofDevice r.deviceId
    certificates := db.certificates.delete fun c => c.organizationId = orgId ∨ ofDevice c.deviceId
    crls := db.crls.delete fun c => c.organizationId = orgId
    commands := db.commands.delete fun c => c.organizationId = orgId
    auditLog := db.auditLog.map fun a =>
      if a.organizationId = some orgId then { a with organizationId := none } else a }

/-- `OrganizationController.parseRole`, with `String.toUpperCase`. -/
def parseRole (toUpperCase : String → String) (role : Option String) : Option OrgRole :=
  match role.elim "" fun role => toUpperCase (trim role) with
  | "OWNER" => some .owner
  | "ADMIN" => some .admin
  | "OPERATOR" => some .operator
  | "VIEWER" => some .viewer
  | _ => none

/-- The arguments of a handler. The handlers of the other endpoints do not write the directory; `db`
is what they leave in the other tables. -/
inductive ApiCall
  | updateOrganization (name : String) (description : Option String)
  | deleteOrganization
  | inviteMember (email role : Option String)
  | updateMemberRole (memberId : ℕ) (role : Option String)
  | removeMember (memberId : ℕ)
  | revokeInvitation (invitationId : ℕ)
  | createApiKey (name : String) (scopes : Option (List String)) (expiresAt : Option Instant)
      (rawKey : String)
  | revokeApiKey (keyId : ℕ)
  | other (endpoint : Endpoint) (db : Db)

/-- The endpoint of a call. -/
def ApiCall.endpoint : ApiCall → Endpoint
  | updateOrganization .. => .updateOrganization
  | deleteOrganization => .deleteOrganization
  | inviteMember .. => .inviteMember
  | updateMemberRole .. => .updateMemberRole
  | removeMember .. => .removeMember
  | revokeInvitation .. => .revokeInvitation
  | createApiKey .. => .createApiKey
  | revokeApiKey .. => .revokeApiKey
  | other endpoint _ => endpoint

/-- The endpoints whose calls add to the authority in an organization. -/
def widening : List Endpoint := [.inviteMember, .updateMemberRole, .createApiKey]

section Calls

variable (ctx : SecurityContext) (toUpperCase : String → String)

/-- What a handler writes to the directory, for a principal of the organization. -/
def ApiCall.write (orgId : OrganizationId) (userId : Option UserId) (d : Directory) :
    ApiCall → Directory
  | updateOrganization name description => (Http.updateOrganization orgId name description).commit d
  | deleteOrganization => Controller.deleteOrganization orgId d
  | inviteMember email role =>
    (parseRole toUpperCase role).elim d fun role =>
      (Controller.inviteMember ctx.toLowerCase orgId email role userId).commit d
  | updateMemberRole memberId role =>
    (parseRole toUpperCase role).elim d fun role =>
      (Controller.updateMemberRole memberId orgId role).commit d
  | removeMember memberId => (Controller.removeMemberById memberId orgId).commit d
  | revokeInvitation invitationId => (Controller.revokeInvitation invitationId orgId).commit d
  | createApiKey name scopes expiresAt rawKey =>
    (Http.createApiKey ctx.sha256 orgId name scopes expiresAt userId rawKey).commit d
  | revokeApiKey keyId => (Controller.revokeApiKey keyId orgId).commit d
  | other _ _ => d

/-- The tables after a handler. An organization stays if rows that are left refer to rows that would
go with it. -/
def ApiCall.perform (principal : Option TenantPrincipal) (r : Records) (call : ApiCall) : Records :=
  let directory := (principal.bind TenantPrincipal.organizationId).elim r.directory fun orgId =>
    call.write ctx toUpperCase orgId (principal.bind TenantPrincipal.userId) r.directory
  match call, principal.bind TenantPrincipal.organizationId with
  | .other _ db, _ => ⟨db, directory⟩
  | .deleteOrganization, some orgId =>
    let db := deleteOrganizationRows orgId r.db
    if ReferencesHold db then ⟨db, directory⟩ else r
  | _, _ => ⟨r.db, directory⟩

/-! ### Runs of requests -/

/-- The tables, and the users who have registered, with the claims of the token they came with. -/
structure Api where
  records : Records
  registered : List (UserId × Jwt)

/-- A request to the API. -/
structure ApiAction where
  exchange : Exchange
  request : Request
  call : ApiCall

/-- The user whom a request registers. -/
def registration (x : Exchange) (q : Request) (r : Records) : Option (UserId × Jwt) :=
  match (identify ctx x q r).1 with
  | .ok (some principal) => do
    let userId ← principal.userId
    let jwt ← q.bearer.bind (ctx.decode x.now)
    if (r.directory.users.find? userId).isSome then none else some (userId, jwt)
  | _ => none

/-- One request: the filters, and the handler if it is called. -/
def step (s : Api) (a : ApiAction) : Option Api :=
  let (answer, r) := respond ctx a.exchange a.request s.records
  let registered := (registration ctx a.exchange a.request s.records).toList ++ s.registered
  match answer with
  | .handled e principal =>
    if e = a.call.endpoint then some ⟨a.call.perform ctx toUpperCase principal r, registered⟩
    else none
  | _ => some ⟨r, registered⟩

/-- The request is handled in the organization, by an endpoint that adds to the authority in it. -/
def Widens (orgId : OrganizationId) (s : Api) (a : ApiAction) : Prop :=
  a.call.endpoint ∈ widening ∧
    ∃ userId, HandledFor ctx a.exchange a.request s.records a.call.endpoint userId orgId

end Calls

/-! ### Authority -/

/-- Who may act in an organization. -/
inductive Holder
  | user (userId : UserId)
  | key (keyHash : String) (expiresAt : Option Instant)

/-- The authority in an organization: the roles of the members, of the keys that are not revoked,
and of those who are invited. -/
def rights (orgId : OrganizationId) (d : Directory) : Rights Holder String OrgRole where
  held := {p |
    (∃ m ∈ d.members.rows, m.organizationId = orgId ∧ p = (.user m.userId, m.orgRole)) ∨
      ∃ k ∈ d.apiKeys.rows, k.organizationId = orgId ∧ k.revoked = false ∧
        p = (.key k.keyHash k.expiresAt, .operator)}
  offered := {p | ∃ i ∈ d.invitations.rows, i.organizationId = orgId ∧ p = (i.email, i.orgRole)}

/-- Somebody has registered with a verified e-mail. -/
def Proves (toLowerCase : String → String) (registered : List (UserId × Jwt)) (holder : Holder)
    (email : String) : Prop :=
  ∃ userId jwt, holder = .user userId ∧ (userId, jwt) ∈ registered ∧ jwt.emailVerified ∧
    email = normalizeEmail toLowerCase jwt.email

theorem Proves.mono {toLowerCase : String → String} {registered registered' : List (UserId × Jwt)}
    {holder : Holder} {email : String} (hsub : registered ⊆ registered')
    (h : Proves toLowerCase registered holder email) :
    Proves toLowerCase registered' holder email := by
  obtain ⟨userId, jwt, hholder, hmem, hproof⟩ := h
  exact ⟨userId, jwt, hholder, hsub hmem, hproof⟩

/-! ### What a sign-in gains -/

section Gains

variable {P : Holder → String → Prop} {orgId orgId' : OrganizationId} {d d' : Directory}
  {toLowerCase : String → String}

/-- Nothing is gained in the organization, and no organization gets its number. -/
structure NothingGained (P : Holder → String → Prop) (orgId : OrganizationId) (d d' : Directory) :
    Prop where
  within : (rights orgId d).Within P (rights orgId d')
  next_le : d.organizations.next ≤ d'.organizations.next

protected theorem NothingGained.refl (d : Directory) : NothingGained P orgId d d :=
  ⟨.refl _, le_rfl⟩

theorem NothingGained.trans {d'' : Directory} (h : NothingGained P orgId d d')
    (h' : NothingGained P orgId d' d'') : NothingGained P orgId d d'' :=
  ⟨h.within.trans h'.within, h.next_le.trans h'.next_le⟩

theorem NothingGained.mono {Q : Holder → String → Prop} (h : NothingGained P orgId d d')
    (hP : ∀ holder email, P holder email → Q holder email) : NothingGained Q orgId d d' :=
  ⟨h.within.mono hP, h.next_le⟩

/-- Nothing is gained where the rows of the organization are old ones. -/
theorem nothingGained_of_rows (hnext : d.organizations.next ≤ d'.organizations.next)
    (hmembers : ∀ m ∈ d'.members.rows, m.organizationId = orgId → m ∈ d.members.rows)
    (hinvitations : ∀ i ∈ d'.invitations.rows, i.organizationId = orgId → i ∈ d.invitations.rows)
    (hkeys : ∀ k ∈ d'.apiKeys.rows, k.organizationId = orgId → k.revoked = false →
      ∃ old ∈ d.apiKeys.rows, old.organizationId = orgId ∧ old.revoked = false ∧
        old.keyHash = k.keyHash ∧ old.expiresAt = k.expiresAt) :
    NothingGained P orgId d d' := by
  refine ⟨.of_subset ?_ ?_, hnext⟩
  · rintro _ (⟨m, hm, horg, rfl⟩ | ⟨k, hk, horg, hrevoked, rfl⟩)
    · exact .inl ⟨m, hmembers m hm horg, horg, rfl⟩
    · obtain ⟨old, hold, horg', hrevoked', hhash, hexpires⟩ := hkeys k hk horg hrevoked
      exact .inr ⟨old, hold, horg', hrevoked', by rw [hhash, hexpires]⟩
  · rintro _ ⟨i, hi, horg, rfl⟩
    exact ⟨i, hinvitations i hi horg, horg, rfl⟩

/-- Members of another organization say nothing. -/
theorem nothingGained_insertMember {userId : UserId} {role : OrgRole} (h : orgId' ≠ orgId) :
    NothingGained P orgId d (d.insertMember orgId' userId role) := by
  refine nothingGained_of_rows le_rfl (fun m hm horg => ?_) (fun _ hi _ => hi)
    fun k hk horg hrevoked => ⟨k, hk, horg, hrevoked, rfl, rfl⟩
  rcases mem_insertMember.mp hm with hm | rfl
  · exact hm
  · exact absurd horg h

/-- A new organization has another number. -/
theorem nothingGained_found {name slug : String} {description : Option String} {userId : UserId}
    (horg : orgId < d.organizations.next) :
    NothingGained P orgId d (d.found name slug description userId) := by
  have hnew : NothingGained P orgId d { d with
      organizations := d.organizations.insert (⟨·, name, slug, description⟩) fun _ => rfl } :=
    ⟨.refl _, Nat.le_succ _⟩
  exact hnew.trans (nothingGained_insertMember horg.ne')

theorem nothingGained_deleteInvitation {id : ℕ} :
    NothingGained P orgId d (d.deleteInvitation id) :=
  nothingGained_of_rows le_rfl (fun _ hm _ => hm) (fun _ hi _ => (SerialTable.mem_delete.mp hi).1)
    fun k hk horg hrevoked => ⟨k, hk, horg, hrevoked, rfl, rfl⟩

/-- The turns for the invitations of an e-mail gain what was offered to it. -/
theorem nothingGained_turns {userId : UserId} {email : String} {d₀ : Directory}
    {l : List OrganizationInvitation} (hP : P (.user userId) email)
    (hl : ∀ inv ∈ l, inv.email = email ∧
      (inv.organizationId = orgId → (inv.email, inv.orgRole) ∈ (rights orgId d₀).offered))
    (h : (l.forM (resolveInvitation userId)).run d = .ok ((), d'))
    (hd : NothingGained P orgId d₀ d) : NothingGained P orgId d₀ d' := by
  refine Tx.rel_of_run_forM
    (R := fun s t => NothingGained P orgId d₀ s → NothingGained P orgId d₀ t)
    (fun _ => id) (fun h h' => h' ∘ h) ?_ h hd
  intro inv hinv s t hturn hs
  rcases resolveInvitation_cases hturn with rfl | ⟨-, -, -, rfl⟩
  · exact hs.trans nothingGained_deleteInvitation
  · refine NothingGained.trans ?_ nothingGained_deleteInvitation
    by_cases horg : inv.organizationId = orgId
    · obtain ⟨hemail, hoffer⟩ := hl inv hinv
      refine ⟨⟨?_, hs.within.offered⟩, hs.next_le⟩
      rintro holder role (⟨m, hm, hmorg, heq⟩ | hkey)
      · rcases mem_insertMember.mp hm with hm | rfl
        · exact hs.within.held _ _ (.inl ⟨m, hm, hmorg, heq⟩)
        · cases heq
          exact .inr ⟨inv.email, by rwa [hemail], hoffer horg⟩
      · exact hs.within.held _ _ (.inr hkey)
    · exact hs.trans (nothingGained_insertMember horg)

/-- The users have no part in the authority. -/
theorem nothingGained_updateProfile {user user' : User} {jwt : Jwt}
    (h : (updateProfile user jwt).run d = .ok (user', d')) : NothingGained P orgId d d' := by
  obtain ⟨-, ⟨rfl, -⟩ | ⟨-, rfl⟩⟩ := updateProfile_cases h
  · exact .refl _
  · exact ⟨.refl _, le_rfl⟩

/-- A sign-in gains what was offered to the verified e-mail of a user who registers. -/
theorem nothingGained_syncFromJwt {jwt : Jwt} {user : User}
    (horg : orgId < d.organizations.next)
    (hP : d.users.find? user.id = none → jwt.emailVerified →
      P (.user user.id) (normalizeEmail toLowerCase jwt.email))
    (h : (syncFromJwt toLowerCase jwt).run d = .ok (user, d')) : NothingGained P orgId d d' := by
  cases syncFromJwt_cases h with
  | bySubject _ hupdate => exact nothingGained_updateProfile hupdate
  | byEmail _ _ _ hupdate => exact nothingGained_updateProfile hupdate
  | @registered name slug description subject email _ hsubject hemail _ _ _ hresolved =>
    have hfound : NothingGained P orgId d
        ((d.insertUser subject email (some (jwt.name.getD email)) jwt.picture).found name slug
          description d.users.next) := by
      have huser : NothingGained P orgId d
          (d.insertUser subject email (some (jwt.name.getD email)) jwt.picture) := ⟨.refl _, le_rfl⟩
      exact huser.trans (nothingGained_found horg)
    by_cases hverified : jwt.emailVerified
    · rw [if_pos hverified] at hresolved
      rcases resolvePendingInvitations_cases hresolved with ⟨-, rfl⟩ | hturns
      · exact hfound
      · refine nothingGained_turns (hP d.users.find?_next hverified) (fun inv hinv => ?_) hturns
          hfound
        obtain ⟨hinv, he⟩ := List.mem_filter.mp hinv
        rw [hemail]
        exact ⟨of_decide_eq_true he, fun horg => ⟨inv, hinv, horg, rfl⟩⟩
    · rw [if_neg hverified] at hresolved
      rw [hresolved]
      exact hfound

/-! ### What a handler gains -/

theorem nothingGained_commit {ε α : Type} {x : Tx Directory ε α}
    (h : ∀ a d', x.run d = .ok (a, d') → NothingGained P orgId d d') :
    NothingGained P orgId d (x.commit d) := by
  rcases Tx.commit_eq_or x d with heq | ⟨a, hrun⟩
  · rw [heq]
    exact .refl _
  · exact h a _ hrun

/-- Where only members change, and no member of the organization is new. -/
theorem nothingGained_of_members (horganizations : d'.organizations = d.organizations)
    (hinvitations : d'.invitations = d.invitations) (hkeys : d'.apiKeys = d.apiKeys)
    (hmembers : ∀ m ∈ d'.members.rows, m.organizationId = orgId → m ∈ d.members.rows) :
    NothingGained P orgId d d' := by
  refine nothingGained_of_rows (by rw [horganizations]) hmembers
    (fun i hi _ => by rwa [← hinvitations]) fun k hk horg hrevoked => ?_
  rw [hkeys] at hk
  exact ⟨k, hk, horg, hrevoked, rfl, rfl⟩

/-- The member whose role changes is one of the organization of the caller. -/
theorem nothingGained_updateMemberRole {memberId : ℕ} {role : OrgRole} {member : OrganizationMember}
    (hne : orgId' ≠ orgId)
    (h : (updateMemberRole memberId orgId' role).run d = .ok (member, d')) :
    NothingGained P orgId d d' := by
  rw [updateMemberRole, rejectOwnerRole, Tx.run_require_bind_eq_ok, Tx.run_bind_eq_ok] at h
  obtain ⟨-, old, _, hload, h⟩ := h
  obtain ⟨hfind, hold, rfl⟩ := requireMemberInOrg_run_eq_ok.mp hload
  simp only [Tx.run_require_bind_eq_ok, Tx.run_modify_bind_eq_ok, Tx.run_pure_eq_ok,
    Prod.mk.injEq] at h
  obtain ⟨-, -, rfl⟩ := h
  refine nothingGained_of_members rfl rfl rfl fun m hm horg => ?_
  rcases SerialTable.mem_modify.mp hm with ⟨b, hb, hid, rfl⟩ | ⟨hm, -⟩
  · have hb := Table.mem_rows_iff.mp hb
    rw [hid] at hb
    cases hb.symm.trans hfind
    exact absurd (hold.trans horg) hne
  · exact hm

/-- The invitation that is saved is one of the organization of the caller. -/
theorem nothingGained_saveInvitation {email : String} {role : OrgRole}
    {invitedByUserId : Option UserId} {inv : OrganizationInvitation} (hne : orgId' ≠ orgId)
    (h : (saveInvitation orgId' email role invitedByUserId).run d = .ok (inv, d')) :
    NothingGained P orgId d d' := by
  have hkeys : ∀ k ∈ d.apiKeys.rows, k.organizationId = orgId → k.revoked = false →
      ∃ old ∈ d.apiKeys.rows, old.organizationId = orgId ∧ old.revoked = false ∧
        old.keyHash = k.keyHash ∧ old.expiresAt = k.expiresAt :=
    fun k hk horg hrevoked => ⟨k, hk, horg, hrevoked, rfl, rfl⟩
  rw [saveInvitation, Tx.run_get_bind_eq_ok, Tx.run_require_bind_eq_ok] at h
  obtain ⟨-, h⟩ := h
  rcases hfind : findInvitation d orgId' email with _ | old <;>
    rw [hfind, Tx.run_set_bind_eq_ok, Tx.run_pure_eq_ok] at h <;> obtain ⟨-, rfl⟩ := Prod.mk.inj h
  · refine nothingGained_of_rows le_rfl (fun _ hm _ => hm) (fun i hi horg => ?_) hkeys
    rcases (SerialTable.mem_insert fun _ => rfl).mp hi with hi | rfl
    · exact hi
    · exact absurd horg hne
  · have hrow := List.mem_of_find?_eq_some hfind
    have horg' : old.organizationId = orgId' ∧ old.email = email := by
      simpa using List.find?_some hfind
    refine nothingGained_of_rows le_rfl (fun _ hm _ => hm) (fun i hi horg => ?_) hkeys
    rcases SerialTable.mem_modify.mp hi with ⟨b, hb, hid, rfl⟩ | ⟨hi, -⟩
    · have hb := Table.mem_rows_iff.mp hb
      rw [hid] at hb
      cases hb.symm.trans (Table.mem_rows_iff.mp hrow)
      exact absurd (horg'.1.symm.trans horg) hne
    · exact hi

theorem nothingGained_inviteMember {rawEmail : Option String} {role : OrgRole}
    {invitedByUserId : Option UserId} {r : InviteResult} (hne : orgId' ≠ orgId)
    (h : (inviteMember toLowerCase orgId' rawEmail role invitedByUserId).run d = .ok (r, d')) :
    NothingGained P orgId d d' := by
  simp only [inviteMember, rejectOwnerRole, Tx.run_require_bind_eq_ok,
    Tx.run_get_bind_eq_ok] at h
  obtain ⟨-, -, h⟩ := h
  rcases hfind : findUserByEmail d (normalizeEmail toLowerCase rawEmail) with _ | user <;>
    rw [hfind, Tx.run_bind_eq_ok] at h <;> obtain ⟨_, _, hsave, h⟩ := h <;>
    obtain ⟨-, rfl⟩ := Prod.mk.inj (Tx.run_pure_eq_ok.mp h)
  · exact nothingGained_saveInvitation hne hsave
  · obtain ⟨-, -, -, -, rfl⟩ := addMember_cases hsave
    exact nothingGained_insertMember hne

/-- Where only keys change. -/
theorem nothingGained_of_keys (horganizations : d'.organizations = d.organizations)
    (hmembers : d'.members = d.members)
    (hinvitations : d'.invitations = d.invitations)
    (hkeys : ∀ k ∈ d'.apiKeys.rows, k.organizationId = orgId → k.revoked = false →
      ∃ old ∈ d.apiKeys.rows, old.organizationId = orgId ∧ old.revoked = false ∧
        old.keyHash = k.keyHash ∧ old.expiresAt = k.expiresAt) :
    NothingGained P orgId d d' :=
  nothingGained_of_rows (by rw [horganizations]) (fun m hm _ => by rwa [← hmembers])
    (fun i hi _ => by rwa [← hinvitations]) hkeys

theorem nothingGained_revokeApiKey {keyId : ℕ}
    (h : (revokeApiKey keyId orgId').run d = .ok ((), d')) : NothingGained P orgId d d' := by
  rw [revokeApiKey, Tx.run_get_bind_eq_ok, Tx.run_orElseThrow_bind_eq_ok] at h
  obtain ⟨key, -, h⟩ := h
  obtain ⟨-, rfl⟩ := Prod.mk.inj (Except.ok.inj h)
  refine nothingGained_of_keys rfl rfl rfl fun k hk horg hrevoked => ?_
  rcases SerialTable.mem_modify.mp hk with ⟨b, -, -, rfl⟩ | ⟨hk, -⟩
  · cases hrevoked
  · exact ⟨k, hk, horg, hrevoked, rfl, rfl⟩

theorem nothingGained_createApiKey {sha256 : String → String} {name : String}
    {scopes : Option (List String)} {expiresAt : Option Instant} {createdBy : Option UserId}
    {rawKey : String} (hne : orgId' ≠ orgId)
    (h : (createApiKey sha256 orgId' name scopes expiresAt createdBy rawKey).run d =
      .ok ((), d')) : NothingGained P orgId d d' := by
  rw [createApiKey, Tx.run_get_bind_eq_ok, Tx.run_require_bind_eq_ok] at h
  obtain ⟨-, rfl⟩ := Prod.mk.inj (Except.ok.inj h.2)
  refine nothingGained_of_keys rfl rfl rfl fun k hk horg hrevoked => ?_
  rcases (SerialTable.mem_insert fun _ => rfl).mp hk with hk | rfl
  · exact ⟨k, hk, horg, hrevoked, rfl, rfl⟩
  · exact absurd horg hne

/-- **What a handler gains**: nothing, unless its endpoint is a widening one and the organization is
that of its caller. -/
theorem nothingGained_write {ctx : SecurityContext} {toUpperCase : String → String}
    {userId : Option UserId} {call : ApiCall} (h : orgId' = orgId → call.endpoint ∉ widening) :
    NothingGained P orgId d (call.write ctx toUpperCase orgId' userId d) := by
  have hother : call.endpoint ∈ widening → orgId' ≠ orgId := fun hw heq => h heq hw
  cases call with
  | updateOrganization name description =>
    refine nothingGained_commit fun _ d' hrun => ?_
    rw [Http.updateOrganization, Tx.run_get_bind_eq_ok, Tx.run_orElseThrow_bind_eq_ok] at hrun
    obtain ⟨_, -, hrun⟩ := hrun
    obtain ⟨-, rfl⟩ := Prod.mk.inj (Except.ok.inj hrun)
    exact ⟨.refl _, le_rfl⟩
  | deleteOrganization =>
    refine nothingGained_of_rows le_rfl (fun m hm _ => (SerialTable.mem_delete.mp hm).1)
      (fun i hi _ => (SerialTable.mem_delete.mp hi).1) fun k hk horg hrevoked => ?_
    exact ⟨k, (SerialTable.mem_delete.mp hk).1, horg, hrevoked, rfl, rfl⟩
  | inviteMember email role =>
    simp only [ApiCall.write]
    rcases parseRole toUpperCase role with _ | role
    · exact .refl _
    · exact nothingGained_commit fun _ _ hrun =>
        nothingGained_inviteMember (hother (by simp [widening, ApiCall.endpoint])) hrun
  | updateMemberRole memberId role =>
    simp only [ApiCall.write]
    rcases parseRole toUpperCase role with _ | role
    · exact .refl _
    · exact nothingGained_commit fun _ _ hrun =>
        nothingGained_updateMemberRole (hother (by simp [widening, ApiCall.endpoint])) hrun
  | removeMember memberId =>
    refine nothingGained_commit fun _ d' hrun => ?_
    obtain ⟨-, rfl⟩ := removeMemberById_cases hrun
    exact nothingGained_of_members rfl rfl rfl fun m hm _ => (SerialTable.mem_delete.mp hm).1
  | revokeInvitation invitationId =>
    refine nothingGained_commit fun _ d' hrun => ?_
    rw [revokeInvitation_cases hrun]
    exact nothingGained_deleteInvitation
  | createApiKey name scopes expiresAt rawKey =>
    exact nothingGained_commit fun _ _ hrun =>
      nothingGained_createApiKey (hother (by simp [widening, ApiCall.endpoint])) hrun
  | revokeApiKey keyId => exact nothingGained_commit fun _ _ hrun => nothingGained_revokeApiKey hrun
  | other => exact .refl _

end Gains

/-! ### Runs -/

section Runs

variable {ctx : SecurityContext} {toUpperCase : String → String} {x : Exchange} {q : Request}
  {r : Records} {orgId : OrganizationId} {s t : Api} {a : ApiAction}

theorem snd_respond : (respond ctx x q r).2 = (identify ctx x q r).2 := by
  rw [respond]
  rcases identify ctx x q r with ⟨status | found, r'⟩ <;> rfl

variable (ctx x q r) in
/-- The use of a key changes its row only. -/
theorem apiKeyFilter_cases : (apiKeyFilter ctx x q r).2 = r ∨ ∃ key : ApiKey,
    (apiKeyFilter ctx x q r).2 = { r with
      directory := { r.directory with
        apiKeys := r.directory.apiKeys.modify (fun k => k.id = key.id) (fun k =>
          { k with lastUsedAt := some x.now }) fun _ => rfl } } := by
  rw [apiKeyFilter]
  rcases q.apiKey.filter fun value => !isBlank value with _ | value
  · exact .inl rfl
  · simp only [Controller.authenticate]
    generalize Option.filter _ (findByKeyHash _ _) = found
    rcases found with _ | key
    · exact .inl rfl
    · exact .inr ⟨key, rfl⟩

theorem users_apiKeyFilter : (apiKeyFilter ctx x q r).2.directory.users = r.directory.users := by
  rcases apiKeyFilter_cases ctx x q r with h | ⟨key, h⟩ <;> rw [h]

theorem nothingGained_apiKeyFilter {P : Holder → String → Prop} :
    NothingGained P orgId r.directory (apiKeyFilter ctx x q r).2.directory := by
  rcases apiKeyFilter_cases ctx x q r with h | ⟨key, h⟩ <;> rw [h]
  · exact .refl _
  · refine nothingGained_of_keys rfl rfl rfl fun k hk horg hrevoked => ?_
    rcases SerialTable.mem_modify.mp hk with ⟨b, hb, -, rfl⟩ | ⟨hk, -⟩
    · exact ⟨b, hb, horg, hrevoked, rfl, rfl⟩
    · exact ⟨k, hk, horg, hrevoked, rfl, rfl⟩

variable (ctx x q r) in
/-- What the filters do to the tables: what the first one does, and then possibly a sign-in. -/
theorem identify_cases : (identify ctx x q r).2 = (apiKeyFilter ctx x q r).2 ∨
    ∃ value jwt user d, q.bearer = some value ∧ ctx.decode x.now value = some jwt ∧
      (syncFromJwt ctx.toLowerCase jwt).run (apiKeyFilter ctx x q r).2.directory = .ok (user, d) ∧
      identify ctx x q r = (.ok (some (tenantPrincipal x jwt user d)),
        { (apiKeyFilter ctx x q r).2 with directory := d }) := by
  simp only [identify]
  rcases deviceTokenFilter ctx q (apiKeyFilter ctx x q r).1 (apiKeyFilter ctx x q r).2
    with status | found
  · exact .inl rfl
  rcases hbearer : q.bearer with _ | value
  · simp [bearerFilter, hbearer]
  rcases hdecode : ctx.decode x.now value with _ | jwt
  · simp [bearerFilter, hbearer, hdecode]
  rcases hsync : (syncFromJwt ctx.toLowerCase jwt).run (apiKeyFilter ctx x q r).2.directory
    with error | ⟨user, d⟩
  · simp [bearerFilter, hbearer, hdecode, hsync]
  · refine .inr ⟨value, jwt, user, d, rfl, hdecode, hsync, ?_⟩
    simp [bearerFilter, hbearer, hdecode, hsync]

/-- What the filters gain: what was offered to the user whom the request registers. -/
theorem nothingGained_identify (horg : orgId < r.directory.organizations.next) :
    NothingGained (Proves ctx.toLowerCase (registration ctx x q r).toList) orgId r.directory
      (identify ctx x q r).2.directory := by
  rcases identify_cases ctx x q r with
    h | ⟨value, jwt, user, d, hbearer, hdecode, hsync, h⟩
  · rw [h]
    exact nothingGained_apiKeyFilter
  · have hkey : NothingGained (Proves ctx.toLowerCase (registration ctx x q r).toList) orgId
        r.directory (apiKeyFilter ctx x q r).2.directory := nothingGained_apiKeyFilter
    have hregistration : r.directory.users.find? user.id = none →
        registration ctx x q r = some (user.id, jwt) := by
      intro hnone
      simp [registration, h, tenantPrincipal, hbearer, hdecode, hnone]
    rw [h]
    refine hkey.trans (nothingGained_syncFromJwt (horg.trans_le hkey.next_le) ?_ hsync)
    intro hnone hverified
    rw [users_apiKeyFilter] at hnone
    rw [hregistration hnone]
    exact ⟨user.id, jwt, rfl, List.mem_singleton_self _, hverified, rfl⟩

theorem minRole_of_mem_widening : ∀ e ∈ widening, e.minRole = some .admin := by decide

/-- A request widens the authority in an organization only for a user who is at least an
administrator in it. -/
theorem exists_admin_of_widens (h : Widens ctx orgId s a) :
    ∃ userId granted, Grants ctx a.exchange a.request s.records (some userId) orgId granted ∧
      roleLevel .admin ≤ roleLevel granted := by
  obtain ⟨hwidening, userId, hhandled⟩ := h
  have hrole := minRole_of_mem_widening _ hwidening
  obtain ⟨-, granted, hgrants, hle⟩ := (handledFor_iff hrole).mp hhandled
  cases hgrants with
  | apiKey => exact absurd hle (by decide)
  | member hbearer hdecode hsync hfirst =>
    exact ⟨_, _, .member hbearer hdecode hsync hfirst, hle⟩

/-- A handler leaves the directory as it was, or writes it for the organization of its caller. -/
theorem directory_perform (principal : Option TenantPrincipal) (call : ApiCall) :
    (call.perform ctx toUpperCase principal r).directory = r.directory ∨
      ∃ orgId, principal.bind TenantPrincipal.organizationId = some orgId ∧
        (call.perform ctx toUpperCase principal r).directory =
          call.write ctx toUpperCase orgId (principal.bind TenantPrincipal.userId) r.directory := by
  rcases horg : principal.bind TenantPrincipal.organizationId with _ | orgId
  · left
    cases call <;> simp [ApiCall.perform, horg]
  · by_cases hrefer : ReferencesHold (deleteOrganizationRows orgId r.db)
    · exact .inr ⟨orgId, rfl, by cases call <;> simp [ApiCall.perform, horg, hrefer]⟩
    cases call with
    | deleteOrganization => exact .inl (by simp [ApiCall.perform, horg, hrefer])
    | _ => exact .inr ⟨orgId, rfl, by simp [ApiCall.perform, horg]⟩

/-- A handler of a widening endpoint runs in the organization only if the request widens the
authority in it. -/
theorem not_mem_widening {principal : Option TenantPrincipal}
    (hwidens : ¬ Widens ctx orgId s a)
    (h : (respond ctx a.exchange a.request s.records).1 = .handled a.call.endpoint principal)
    (horg : principal.bind TenantPrincipal.organizationId = some orgId) :
    a.call.endpoint ∉ widening := by
  intro hwidening
  have hrole := minRole_of_mem_widening _ hwidening
  obtain ⟨userId, orgId', identity, granted, rfl⟩ :=
    exists_eq_of_handled hrole h
  cases horg
  exact hwidens ⟨hwidening, userId, identity, granted, h⟩

theorem registered_step (h : step ctx toUpperCase s a = some t) :
    t.registered =
      (registration ctx a.exchange a.request s.records).toList ++ s.registered := by
  simp only [step] at h
  split at h
  · split_ifs at h
    cases h
    rfl
  · cases h
    rfl

/-- **What a request gains** that does not widen the authority: what was offered to the user whom it
registers. -/
theorem nothingGained_step (horg : orgId < s.records.directory.organizations.next)
    (hwidens : ¬ Widens ctx orgId s a) (h : step ctx toUpperCase s a = some t) :
    NothingGained (Proves ctx.toLowerCase t.registered) orgId s.records.directory
      t.records.directory := by
  have hidentify : NothingGained (Proves ctx.toLowerCase t.registered) orgId s.records.directory
      (respond ctx a.exchange a.request s.records).2.directory := by
    rw [snd_respond, registered_step h]
    refine (nothingGained_identify horg).mono ?_
    exact fun _ _ => Proves.mono fun _ hmem => List.mem_append_left _ hmem
  refine hidentify.trans ?_
  simp only [step] at h
  split at h
  · rename_i e principal hanswer
    split_ifs at h with he
    cases h
    rcases directory_perform principal a.call with hkept | ⟨orgId', hprincipal, hwritten⟩
    · rw [hkept]
      exact .refl _
    · rw [hwritten]
      refine nothingGained_write ?_
      rintro rfl
      exact not_mem_widening hwidens (he ▸ hanswer) hprincipal
  · cases h
    exact .refl _

theorem lt_next_of_reaches (horg : orgId < s.records.directory.organizations.next)
    (h : Reaches (step ctx toUpperCase) (fun s a => ¬ Widens ctx orgId s a) s t) :
    orgId < t.records.directory.organizations.next := by
  refine h.invariant (fun s => orgId < s.records.directory.organizations.next) ?_ horg
  intro s a t hs hok hstep
  exact hs.trans_le (nothingGained_step hs hok hstep).next_le

theorem within_run (horg : orgId < s.records.directory.organizations.next)
    (h : Reaches (step ctx toUpperCase) (fun s a => ¬ Widens ctx orgId s a) s t) :
    (rights orgId s.records.directory).Within (Proves ctx.toLowerCase t.registered)
      (rights orgId t.records.directory) := by
  refine Rights.within_of_reaches (fun s : Api => rights orgId s.records.directory)
    (fun s => Proves ctx.toLowerCase s.registered)
    (fun s => orgId < s.records.directory.organizations.next) ?_ ?_ ?_ h horg
  · intro s a t hs hok hstep
    exact hs.trans_le (nothingGained_step hs hok hstep).next_le
  · intro s a t hstep _ _
    rw [registered_step hstep]
    exact Proves.mono fun _ hmem => List.mem_append_right _ hmem
  · intro s a t hs hok hstep
    exact (nothingGained_step hs hok hstep).within

/-- **How authority is gained.** In a run without a request that widens the authority in an
organization, the rights held at the end were held at the start, or were offered at the start to an
e-mail with which their holder has registered since; and no offer is new. -/
theorem authority_within_of_reaches (horg : orgId < s.records.directory.organizations.next)
    (h : Reaches (step ctx toUpperCase) (fun s a => ¬ Widens ctx orgId s a) s t) :
    (rights orgId s.records.directory).Within (Proves ctx.toLowerCase t.registered)
      (rights orgId t.records.directory) :=
  within_run horg h

/-- **Who acts in an organization after a run** without a request that widens the authority in it: a
key that was one of its keys before the run, as an operator; a user who had the role before the run;
or a user who has registered since with a verified e-mail that was invited for the role before the
run. -/
theorem authority_of_handledFor {e : Endpoint} {role : OrgRole} {userId : Option UserId}
    (horg : orgId < s.records.directory.organizations.next)
    (h : Reaches (step ctx toUpperCase) (fun s a => ¬ Widens ctx orgId s a) s t)
    (hrole : e.minRole = some role) (hhandled : HandledFor ctx x q t.records e userId orgId) :
    ∃ granted, roleLevel role ≤ roleLevel granted ∧
      ((∃ value expiresAt, userId = none ∧ q.apiKey = some value ∧
          (.key (ctx.sha256 value) expiresAt, granted) ∈ (rights orgId s.records.directory).held ∧
          ∀ time ∈ expiresAt, x.now ≤ time) ∨
        ∃ user, userId = some user ∧
          ((.user user, granted) ∈ (rights orgId s.records.directory).held ∨
            ∃ email, (email, granted) ∈ (rights orgId s.records.directory).offered ∧
              Proves ctx.toLowerCase ((registration ctx x q t.records).toList ++ t.registered)
                (.user user) email)) := by
  have hrun := within_run horg h
  obtain ⟨⟨hroute, -⟩, granted, hgrants, hle⟩ := (handledFor_iff hrole).mp hhandled
  refine ⟨granted, hle, ?_⟩
  cases hgrants with
  | @apiKey key hbearer hkey =>
    obtain ⟨value, hvalue, hkey⟩ := Option.bind_eq_some_iff.mp hkey
    obtain ⟨hfind, hvalid⟩ := Option.filter_eq_some_iff.mp hkey
    have hhash : key.keyHash = ctx.sha256 value := by simpa using List.find?_some hfind
    simp only [ApiKey.isValid, Bool.and_eq_true, Bool.not_eq_true', Option.any_eq_false,
      decide_eq_false_iff_not, not_lt] at hvalid
    have hheld : (Holder.key (ctx.sha256 value) key.expiresAt, OrgRole.operator) ∈
        (rights key.organizationId t.records.directory).held :=
      .inr ⟨key, List.mem_of_find?_eq_some hfind, rfl, hvalid.1, by rw [hhash]⟩
    refine .inl ⟨value, key.expiresAt, rfl, (Option.filter_eq_some_iff.mp hvalue).1, ?_, hvalid.2⟩
    rcases hrun.held _ _ hheld with hheld | ⟨email, ⟨_, _, hholder, -⟩, -⟩
    · exact hheld
    · cases hholder
  | @member value jwt user d m hbearer hdecode hsync hfirst =>
    have hd : (identify ctx x q t.records).2.directory = d := by
      rw [identify_of_route hroute]
      simp [bearerFilter, hbearer, hdecode, hsync]
    have hgain : NothingGained (Proves ctx.toLowerCase (registration ctx x q t.records).toList)
        m.organizationId t.records.directory d := by
      rw [← hd]
      exact nothingGained_identify (lt_next_of_reaches horg h)
    have hmem : m ∈ d.members.rows.filter fun m => m.userId = user.id :=
      (x.perm _).subset (List.mem_of_head? hfirst)
    obtain ⟨hmem, huser⟩ := List.mem_filter.mp hmem
    have hheld : (Holder.user user.id, m.orgRole) ∈ (rights m.organizationId d).held :=
      .inl ⟨m, hmem, rfl, by rw [of_decide_eq_true huser]⟩
    have hall : (rights m.organizationId s.records.directory).Within (Proves ctx.toLowerCase
        ((registration ctx x q t.records).toList ++ t.registered))
        (rights m.organizationId d) := by
      refine (hrun.mono ?_).trans (hgain.within.mono ?_)
      · exact fun _ _ => Proves.mono fun _ hmem => List.mem_append_right _ hmem
      · exact fun _ _ => Proves.mono fun _ hmem => List.mem_append_left _ hmem
    refine .inr ⟨user.id, rfl, ?_⟩
    rcases hall.held _ _ hheld with hold | ⟨email, hproves, hoffer⟩
    · exact .inl hold
    · exact .inr ⟨email, hoffer, hproves⟩

end Runs

/-! ### An invitation that is redeemed -/

def bobJwt : Jwt := ⟨some "bob", some "bob", none, none, true⟩

/-- Two bearer tokens are valid. -/
def twoTokens : SecurityContext where
  sha256 := id
  toLowerCase := id
  decode _ value :=
    if value = "token" then some aliceJwt else if value = "bob" then some bobJwt else none

/-- The organization has invited an operator. -/
def invited : Api where
  records := ⟨.empty .empty, { staffed with
    invitations := ⟨⟨[⟨1, 1, "bob", .operator, some 1⟩], by decide⟩, 2, by decide⟩ }⟩
  registered := []

/-- The operator signs in for the first time. -/
def firstSignIn : ApiAction where
  exchange := inOrder
  request := ⟨.get, meBase, none, none, some "bob"⟩
  call := .other .me (.empty .empty)

/-- The API after the sign-in. -/
def joined : Api := (step twoTokens id invited firstSignIn).getD invited

theorem reaches_joined :
    Reaches (step twoTokens id) (fun s a => ¬ Widens twoTokens 1 s a) invited joined :=
  .single ⟨firstSignIn, fun h => absurd h.1 (by decide), rfl⟩

theorem within_joined : (rights 1 invited.records.directory).Within (Proves id joined.registered)
    (rights 1 joined.records.directory) :=
  authority_within_of_reaches (by decide) reaches_joined

/-- The new user acts as the operator that they were invited to be, where the database returns this
membership first. -/
theorem authority_joined :
    let q := membersRequest .get none (some "bob")
    let x : Exchange := ⟨20, List.reverse, List.reverse_perm, fun _ => true⟩
    ∃ granted, roleLevel .viewer ≤ roleLevel granted ∧
      ((∃ value expiresAt, some 2 = none ∧ q.apiKey = some value ∧
          (.key value expiresAt, granted) ∈ (rights 1 invited.records.directory).held ∧
          ∀ time ∈ expiresAt, x.now ≤ time) ∨
        ∃ user, some 2 = some user ∧
          ((.user user, granted) ∈ (rights 1 invited.records.directory).held ∨
            ∃ email, (email, granted) ∈ (rights 1 invited.records.directory).offered ∧
              Proves id ((registration twoTokens x q joined.records).toList ++ joined.registered)
                (.user user) email)) :=
  authority_of_handledFor (by decide) reaches_joined rfl ⟨some "bob", .operator, rfl⟩

end EdgeGuardian.Controller.Http
