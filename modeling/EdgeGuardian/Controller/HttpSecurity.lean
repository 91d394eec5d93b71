import EdgeGuardian.Controller.Credentials
import EdgeGuardian.Controller.TenantIndistinguishability
import EdgeGuardian.Controller.Users

/-!
# Who reaches the HTTP endpoints

A request passes three filters that may authenticate it: an API key, a device token and a bearer
token, in this order; the bearer token replaces what the others have found. The rules of the filter
chain then let a path through or ask for an authentication. When the arguments of the handler have
been bound, the annotation of the endpoint asks for a role in the organization of the principal. The
organization and the role are not part of the credentials: they are looked up for every request, in
the row of the key or in the memberships of the user.

Source: `config/SecurityConfig.java`, `security/ApiKeyAuthenticationFilter.java`,
`security/DeviceTokenAuthFilter.java`, `security/JwtTenantConverter.java`,
`security/OrgSecurity.java`, `security/TenantPrincipal.java`, `api/ApiPaths.java` and the
controllers of `api` under `controller/src/main/java/com/edgeguardian/controller/`.

## Main definitions

* `Endpoint`, `Endpoint.method`, `Endpoint.pattern`, `Endpoint.minRole`, `route`: the endpoints.
* `access`: the rules of the filter chain.
* `hasMinRole`, `identify`, `respond`: the filters, and what becomes of a request.
* `Grants`: the credentials of a request carry a role in an organization.

## Main results

* `access_of_matches`: what the filter chain asks for the path of an endpoint.
* `respond_eq_handled_iff`: when the handler of an endpoint is called.
* `handled_iff_exists_grants`: the handler of an endpoint with a role runs for the credentials that
  carry this role, and no others.
* `exists_handled_iff_of_bearer_eq_none`: what is reached without a bearer token.
-/

namespace EdgeGuardian.Controller.Http

/-! ### Paths -/

/-- HTTP methods with a handler. -/
inductive Method
  | get
  | post
  | put
  | patch
  | delete
deriving DecidableEq, Repr

/-- The path of a request, as the segments between its slashes. -/
abbrev Path := List String

/-- A segment of the pattern of a mapping. -/
inductive PathElement
  | literal (text : String)
  /-- A path variable, which takes no empty segment. -/
  | variable
  /-- A path variable before a fixed text. -/
  | variableBefore (suffix : String)
deriving DecidableEq, Repr

/-- The segment matches. -/
def PathElement.accepts : PathElement → String → Bool
  | .literal text, segment => segment = text
  | .variable, segment => segment ≠ ""
  | .variableBefore suffix, segment =>
    segment ≠ suffix && suffix.toList.isSuffixOf segment.toList

/-- The path matches, segment by segment. -/
def matchesPath : List PathElement → Path → Bool
  | [], [] => true
  | element :: pattern, segment :: path => element.accepts segment && matchesPath pattern path
  | _, _ => false

/-- The pattern of a constant of `ApiPaths`. -/
def constant (path : Path) : List PathElement := path.map .literal

/-! ### Endpoints -/

def apiV1 : Path := ["api", "v1"]
def agentBase : Path := apiV1 ++ ["agent"]
def agentInstaller : Path := agentBase ++ ["installer"]
def agentBinary : Path := agentBase ++ ["binary"]
def agentBinaries : Path := agentBase ++ ["binaries"]
def agentLatestVersion : Path := agentBase ++ ["latest-version"]
def agentEnroll : Path := agentBase ++ ["enroll"]
def pkiBase : Path := apiV1 ++ ["pki"]
def pkiCrlBase : Path := pkiBase ++ ["crl"]
def pkiCaBundle : Path := pkiBase ++ ["ca-bundle"]
def pkiBrokerCa : Path := pkiBase ++ ["broker-ca"]
def devicesBase : Path := apiV1 ++ ["devices"]
def shellWs : Path := devicesBase ++ ["shell", "ws"]
def organizationBase : Path := apiV1 ++ ["organization"]
def meBase : Path := apiV1 ++ ["me"]
def certificatesBase : Path := apiV1 ++ ["certificates"]
def enrollmentTokensBase : Path := apiV1 ++ ["enrollment-tokens"]
def apiKeysBase : Path := apiV1 ++ ["api-keys"]

/-- The methods of the controllers, and the handshake of the shell. -/
inductive Endpoint
  | installer | binary | latestVersion | publishBinary
  | listApiKeys | createApiKey | revokeApiKey
  | listCertificates | listRequests | approve | reject | revokeCertificate | getCaCert
  | listDevices | countDevices | getDevice | removeDevice | getDeviceLogs | getManifest
  | updateManifest | sendCommand | listCommands | getCommandResults
  | listEnrollmentTokens | createEnrollmentToken | revokeEnrollmentToken
  | me
  | getOrganization | updateOrganization | deleteOrganization | listMembers | inviteMember
  | updateMemberRole | removeMember | listInvitations | revokeInvitation | listAuditLog
  | getCrl | getCaBundle | getBrokerCa
  | createShellSession | connectShell
  | getRawTelemetry | getHourlyTelemetry
deriving DecidableEq, Repr

namespace Endpoint

/-- The method of the mapping. -/
def method : Endpoint → Method
  | publishBinary | createApiKey | approve | reject | revokeCertificate | sendCommand
  | createEnrollmentToken | inviteMember | createShellSession => .post
  | updateManifest | updateOrganization => .put
  | updateMemberRole => .patch
  | revokeApiKey | removeDevice | revokeEnrollmentToken | deleteOrganization | removeMember
  | revokeInvitation => .delete
  | _ => .get

/-- The path of the class: what the patterns of its methods begin with. -/
def base : Endpoint → Path
  | installer | binary | latestVersion | publishBinary => agentBase
  | listApiKeys | createApiKey | revokeApiKey => apiKeysBase
  | listCertificates | listRequests | approve | reject | revokeCertificate | getCaCert =>
    certificatesBase
  | listDevices | countDevices | getDevice | removeDevice | getDeviceLogs | getManifest
  | updateManifest | sendCommand | listCommands | getCommandResults | createShellSession
  | connectShell | getRawTelemetry | getHourlyTelemetry => devicesBase
  | listEnrollmentTokens | createEnrollmentToken | revokeEnrollmentToken => enrollmentTokensBase
  | me => meBase
  | getOrganization | updateOrganization | deleteOrganization | listMembers | inviteMember
  | updateMemberRole | removeMember | listInvitations | revokeInvitation | listAuditLog =>
    organizationBase
  | getCrl | getCaBundle | getBrokerCa => pkiBase

/-- The rest of the pattern. -/
def mapping : Endpoint → List PathElement
  | installer => [.literal "installer"]
  | binary => [.literal "binary"]
  | latestVersion => [.literal "latest-version"]
  | publishBinary => [.literal "binaries"]
  | listApiKeys | createApiKey | listCertificates | listDevices | listEnrollmentTokens
  | createEnrollmentToken | me | getOrganization | updateOrganization | deleteOrganization => []
  | revokeApiKey | getDevice | removeDevice | revokeEnrollmentToken => [.variable]
  | listRequests => [.literal "requests"]
  | approve => [.literal "requests", .variable, .literal "approve"]
  | reject => [.literal "requests", .variable, .literal "reject"]
  | revokeCertificate => [.variable, .literal "revoke"]
  | getCaCert => [.literal "ca"]
  | countDevices => [.literal "count"]
  | getDeviceLogs => [.variable, .literal "logs"]
  | getManifest | updateManifest => [.variable, .literal "manifest"]
  | sendCommand | listCommands => [.variable, .literal "commands"]
  | getCommandResults => [.variable, .literal "commands", .variable, .literal "results"]
  | listMembers | inviteMember => [.literal "members"]
  | updateMemberRole | removeMember => [.literal "members", .variable]
  | listInvitations => [.literal "invitations"]
  | revokeInvitation => [.literal "invitations", .variable]
  | listAuditLog => [.literal "audit-log"]
  | getCrl => [.literal "crl", .variableBefore ".crl"]
  | getCaBundle => [.literal "ca-bundle"]
  | getBrokerCa => [.literal "broker-ca"]
  | createShellSession => [.variable, .literal "shell", .literal "sessions"]
  | connectShell => [.literal "shell", .literal "ws"]
  | getRawTelemetry => [.variable, .literal "telemetry"]
  | getHourlyTelemetry => [.variable, .literal "telemetry", .literal "hourly"]

/-- The pattern of the mapping. -/
def pattern (e : Endpoint) : List PathElement := constant e.base ++ e.mapping

/-- The role of the annotation `@PreAuthorize`, if there is one. -/
def minRole : Endpoint → Option OrgRole
  | installer | binary | latestVersion | publishBinary | me | getCrl | getCaBundle | getBrokerCa
  | connectShell => none
  | getCaCert | listDevices | countDevices | getDevice | getDeviceLogs | getManifest | listCommands
  | getCommandResults | getOrganization | listMembers | listAuditLog | getRawTelemetry
  | getHourlyTelemetry => some .viewer
  | listCertificates | listRequests | updateManifest | sendCommand | listEnrollmentTokens
  | createShellSession => some .operator
  | deleteOrganization => some .owner
  | _ => some .admin

/-- All endpoints; a fixed path stands before the variable that would take it too. -/
def all : List Endpoint :=
  [installer, binary, latestVersion, publishBinary, listApiKeys, createApiKey, revokeApiKey,
    listCertificates, listRequests, approve, reject, revokeCertificate, getCaCert, listDevices,
    countDevices, getDevice, removeDevice, getDeviceLogs, getManifest, updateManifest, sendCommand,
    listCommands, getCommandResults, listEnrollmentTokens, createEnrollmentToken,
    revokeEnrollmentToken, me, getOrganization, updateOrganization, deleteOrganization, listMembers,
    inviteMember, updateMemberRole, removeMember, listInvitations, revokeInvitation, listAuditLog,
    getCrl, getCaBundle, getBrokerCa, createShellSession, connectShell, getRawTelemetry,
    getHourlyTelemetry]

/-- The endpoint needs no credentials. -/
def isPublic : Endpoint → Bool
  | installer | binary | latestVersion | publishBinary | getCrl | getCaBundle | getBrokerCa
  | connectShell => true
  | _ => false

end Endpoint

/-- The endpoint that handles a request. -/
def route (method : Method) (path : Path) : Option Endpoint :=
  Endpoint.all.find? fun e => e.method = method && matchesPath e.pattern path

/-! ### The rules of the filter chain -/

/-- A pattern of `requestMatchers`. -/
inductive RequestMatcher
  | path (path : Path)
  /-- The pattern ends in `/**`. -/
  | below (base : Path)
deriving DecidableEq, Repr

def RequestMatcher.accepts : RequestMatcher → Path → Bool
  | path p, q => q = p
  | below base, q => base.isPrefixOf q

/-- What a rule asks for. -/
inductive Access
  | permitAll
  | authenticated
  | denyAll
deriving DecidableEq, Repr

/-- The rules of `authorizeHttpRequests`, before that of any other request. -/
def rules : List (List RequestMatcher × Access) :=
  [([.below ["actuator", "health"], .path ["actuator", "info"]], .permitAll),
    ([.path agentEnroll, .path agentInstaller, .path agentBinary, .path agentLatestVersion],
      .permitAll),
    ([.path agentBinaries], .permitAll),
    ([.below pkiCrlBase, .path pkiCaBundle, .path pkiBrokerCa], .permitAll),
    ([.path shellWs], .permitAll),
    ([.below apiV1], .authenticated)]

/-- The first rule that matches. -/
def access (path : Path) : Access :=
  ((rules.find? fun rule => rule.1.any (·.accepts path)).map Prod.snd).getD .denyAll

/-! ### Credentials -/

/-- `OrgSecurity.roleLevel`. -/
def roleLevel : OrgRole → ℕ
  | .owner => 4
  | .admin => 3
  | .operator => 2
  | .viewer => 1

/-- `TenantPrincipal`, with everything that an authentication may lack. -/
structure TenantPrincipal where
  organizationId : Option OrganizationId
  userId : Option UserId
  identity : Option String
  orgRole : Option OrgRole
deriving DecidableEq, Repr

/-- `OrgSecurity.hasMinRole`; a request without an authentication has no principal. -/
def hasMinRole (principal : Option TenantPrincipal) (minRole : OrgRole) : Bool :=
  match principal.bind TenantPrincipal.orgRole with
  | none => false
  | some role => roleLevel minRole ≤ roleLevel role

/-- A request, as far as the filters read it. -/
structure Request where
  method : Method
  path : Path
  /-- `X-API-Key`. -/
  apiKey : Option String
  /-- `X-Device-Token`. -/
  deviceToken : Option String
  /-- The bearer token of `Authorization`. -/
  bearer : Option String
deriving DecidableEq, Repr

/-- The libraries that the filters call. -/
structure SecurityContext where
  /-- `TokenHasher.sha256`. -/
  sha256 : String → String
  /-- `String.toLowerCase`. -/
  toLowerCase : String → String
  /-- `JwtDecoder.decode` at a time: the signature, the issuer and the times are checked. -/
  decode : Instant → String → Option Jwt

/-- What a request meets: the clock, the order in which the database returns memberships, which no
query fixes, and the binding of its arguments. -/
structure Exchange where
  now : Instant
  arrange : List OrganizationMember → List OrganizationMember
  perm : ∀ l, (arrange l).Perm l
  /-- The arguments of the handler are found in the path, the parameters and the body, with the
  types and the bounds of the method. -/
  binds : Endpoint → Bool

/-- What becomes of a request. -/
inductive Answer
  /-- A filter answers. -/
  | rejected (status : ℕ)
  /-- No handler is mapped. -/
  | unmapped
  /-- The arguments of the handler are not bound. -/
  | unbound
  /-- The annotation of the endpoint throws. -/
  | accessDenied
  /-- The handler is called. -/
  | handled (endpoint : Endpoint) (principal : Option TenantPrincipal)
deriving DecidableEq, Repr

/-- `DeviceTokenAuthFilter.shouldNotFilter`. -/
def shouldNotFilter (path : Path) : Bool :=
  !(agentBase.isPrefixOf path && agentBase.length < path.length) ||
    [agentEnroll, agentInstaller, agentBinary, agentBinaries, agentLatestVersion].contains path

section Filters

variable (ctx : SecurityContext) (x : Exchange) (q : Request)

/-- `ApiKeyAuthenticationFilter`. -/
def apiKeyFilter (r : Records) : Option TenantPrincipal × Records :=
  match q.apiKey.filter fun value => !isBlank value with
  | none => (none, r)
  | some value =>
    let (principal, directory) := Controller.authenticate ctx.sha256 x.now x.now value r.directory
    (principal.map fun p => ⟨some p.organizationId, none, some p.identity, some p.orgRole⟩,
      { r with directory })

/-- `DeviceTokenAuthFilter`, with the principal found so far: the principal, or the status of the
answer. -/
def deviceTokenFilter (principal : Option TenantPrincipal) (r : Records) :
    Except ℕ (Option TenantPrincipal) :=
  if shouldNotFilter q.path || principal.isSome then .ok principal
  else
    match q.deviceToken.filter fun value => !isBlank value with
    | none => .error 401
    | some value =>
      match (r.db.deviceTokens.rows.find? fun t => t.tokenHash = ctx.sha256 value).filter
          fun t => !t.revoked with
      | none => .error 401
      | some token =>
        .ok (some ⟨(r.db.devices.find? token.deviceId).map Device.organizationId, none,
          some ("device:" ++ token.deviceId), none⟩)

/-- `JwtTenantConverter.convert`, for the user of the token. -/
def tenantPrincipal (jwt : Jwt) (user : User) (d : Directory) : TenantPrincipal :=
  let membership := (x.arrange (d.members.rows.filter fun m => m.userId = user.id)).head?
  ⟨membership.map OrganizationMember.organizationId, some user.id, jwt.subject,
    membership.map OrganizationMember.orgRole⟩

/-- `BearerTokenAuthenticationFilter` with the converter: a token that is not valid is answered, and
so is one whose user cannot be saved. -/
def bearerFilter (principal : Option TenantPrincipal) (r : Records) :
    Except ℕ (Option TenantPrincipal) × Records :=
  match q.bearer with
  | none => (.ok principal, r)
  | some value =>
    match ctx.decode x.now value with
    | none => (.error 401, r)
    | some jwt =>
      match (syncFromJwt ctx.toLowerCase jwt).run r.directory with
      | .error _ => (.error 500, r)
      | .ok (user, directory) =>
        (.ok (some (tenantPrincipal x jwt user directory)), { r with directory })

/-- The three filters: the principal, or the status of an answer, and the tables after. -/
def identify (r : Records) : Except ℕ (Option TenantPrincipal) × Records :=
  let (principal, r) := apiKeyFilter ctx x q r
  match deviceTokenFilter ctx q principal r with
  | .error status => (.error status, r)
  | .ok principal => bearerFilter ctx x q principal r

/-- `AuthorizationFilter`: the status of the answer if the path is not let through. -/
def authorize (principal : Option TenantPrincipal) : Option ℕ :=
  match access q.path, principal with
  | .permitAll, _ => none
  | .authenticated, some _ => none
  | .denyAll, some _ => some 403
  | _, none => some 401

/-- The dispatch to the endpoint: the annotation is read when the method is called, and this is
after its arguments have been bound. -/
def dispatch (principal : Option TenantPrincipal) : Answer :=
  match route q.method q.path with
  | none => .unmapped
  | some e =>
    if x.binds e then
      if e.minRole.all (hasMinRole principal) then .handled e principal else .accessDenied
    else .unbound

/-- What becomes of a request, up to the call of its handler. -/
def respond (r : Records) : Answer × Records :=
  match identify ctx x q r with
  | (.error status, r) => (.rejected status, r)
  | (.ok principal, r) => ((authorize q principal).elim (dispatch x q principal) .rejected, r)

end Filters

/-! ### The rules and the endpoints -/

@[simp] theorem matchesPath_nil {path : Path} : matchesPath [] path ↔ path = [] := by
  cases path <;> simp [matchesPath]

theorem matchesPath_constant_append {p path : Path} {pattern : List PathElement} :
    matchesPath (constant p ++ pattern) path ↔
      ∃ tail, path = p ++ tail ∧ matchesPath pattern tail := by
  induction p generalizing path with
  | nil => simp [constant]
  | cons segment p ih =>
    rcases path with _ | ⟨s, path⟩
    · simp [constant, matchesPath]
    · have ih := @ih path
      simp only [constant] at ih
      simp only [constant, List.map_cons, List.cons_append, matchesPath, PathElement.accepts,
        Bool.and_eq_true, decide_eq_true_eq, ih, List.cons.injEq]
      constructor
      · rintro ⟨rfl, tail, rfl, h⟩
        exact ⟨tail, ⟨rfl, rfl⟩, h⟩
      · rintro ⟨tail, ⟨rfl, rfl⟩, h⟩
        exact ⟨rfl, tail, rfl, h⟩

theorem matchesPath_cons {element : PathElement} {pattern : List PathElement} {path : Path} :
    matchesPath (element :: pattern) path ↔
      ∃ segment tail, path = segment :: tail ∧ element.accepts segment ∧
        matchesPath pattern tail := by
  cases path <;> simp [matchesPath]

/-- The first of these rules that matches. -/
def accessBy (rules : List (List RequestMatcher × Access)) (path : Path) : Access :=
  ((rules.find? fun rule => rule.1.any (·.accepts path)).map Prod.snd).getD .denyAll

/-- The patterns of the rules that ask for nothing. -/
def opened : List (List RequestMatcher) :=
  (rules.filter fun rule => rule.2 = .permitAll).map Prod.fst

/-- Rules that ask for nothing may be taken together. -/
theorem accessBy_permitAll_append (path : Path) (l : List (List RequestMatcher))
    (rest : List (List RequestMatcher × Access)) :
    accessBy (l.map (·, .permitAll) ++ rest) path =
      if l.flatten.any (·.accepts path) then .permitAll else accessBy rest path := by
  induction l with
  | nil => simp
  | cons ms l ih =>
    rw [accessBy] at ih ⊢
    by_cases h : ms.any (·.accepts path)
    · simp [h]
    · rw [List.map_cons, List.cons_append, List.find?_cons_of_neg (by simpa using h), ih,
        List.flatten_cons, List.any_append, Bool.eq_false_of_not_eq_true h, Bool.false_or]

theorem access_eq (path : Path) : access path =
    if opened.flatten.any (·.accepts path) then .permitAll
    else if apiV1.isPrefixOf path then .authenticated else .denyAll := by
  have hrules : rules = opened.map (·, .permitAll) ++ [([.below apiV1], .authenticated)] := rfl
  rw [access, ← accessBy, hrules, accessBy_permitAll_append]
  by_cases h : apiV1.isPrefixOf path <;> simp [accessBy, RequestMatcher.accepts, h]

theorem opened_api (resource : String) (tail : Path) :
    opened.flatten.any (·.accepts (apiV1 ++ resource :: tail)) ↔
      resource = "agent" ∧ tail ∈ [["enroll"], ["installer"], ["binary"], ["latest-version"],
          ["binaries"]] ∨
        resource = "pki" ∧ (["crl"] <+: tail ∨ tail = ["ca-bundle"] ∨ tail = ["broker-ca"]) ∨
        resource = "devices" ∧ tail = ["shell", "ws"] := by
  have hopened : opened.flatten = [.below ["actuator", "health"], .path ["actuator", "info"],
    .path agentEnroll, .path agentInstaller, .path agentBinary, .path agentLatestVersion,
    .path agentBinaries, .below pkiCrlBase, .path pkiCaBundle, .path pkiBrokerCa,
    .path shellWs] := rfl
  rw [hopened]
  simp [RequestMatcher.accepts, agentEnroll, agentInstaller, agentBinary, agentBinaries,
    agentLatestVersion, agentBase, pkiCrlBase, pkiCaBundle, pkiBrokerCa, pkiBase, shellWs,
    devicesBase, apiV1, eq_comm (a := "pki")]
  grind

/-- The patterns of the rules that ask for nothing are the paths of the public endpoints. -/
theorem opened_of_matches {e : Endpoint} {tail : Path} (h : matchesPath e.mapping tail) :
    opened.flatten.any (·.accepts (e.base ++ tail)) = e.isPublic := by
  by_cases hpublic : e.isPublic
  · rw [hpublic]
    have hfixed : ∀ {s : String}, e.mapping = [.literal s] → tail = [s] := by
      intro s hs
      rw [hs, matchesPath_cons] at h
      obtain ⟨segment, rest, rfl, hsegment, hrest⟩ := h
      rw [matchesPath_nil.mp hrest, of_decide_eq_true hsegment]
    cases e with
    | getCrl =>
      obtain ⟨segment, rest, rfl, hsegment, -⟩ := matchesPath_cons.mp h
      rw [of_decide_eq_true hsegment]
      exact opened_api "pki" _ |>.mpr (.inr (.inl ⟨rfl, .inl ⟨rest, rfl⟩⟩))
    | connectShell =>
      obtain ⟨segment, rest, rfl, hsegment, hrest⟩ := matchesPath_cons.mp h
      obtain ⟨segment', rest', rfl, hsegment', hrest'⟩ := matchesPath_cons.mp hrest
      rw [of_decide_eq_true hsegment, of_decide_eq_true hsegment', matchesPath_nil.mp hrest']
      rfl
    | installer | binary | latestVersion | publishBinary | getCaBundle | getBrokerCa =>
      rw [hfixed rfl]
      rfl
    | _ => exact absurd hpublic Bool.false_ne_true
  · rw [Bool.eq_false_of_not_eq_true hpublic, ← Bool.not_eq_true]
    have hother : ∃ resource, e.base = apiV1 ++ [resource] ∧ resource ≠ "agent" ∧
        resource ≠ "pki" := by
      cases e <;> first | exact absurd rfl hpublic | exact ⟨_, rfl, by decide, by decide⟩
    have hshell : matchesPath e.mapping ["shell", "ws"] = false := by
      cases e <;> first | exact absurd rfl hpublic | rfl
    obtain ⟨resource, hbase, hagent, hpki⟩ := hother
    rw [hbase, List.append_assoc, List.singleton_append, opened_api]
    rintro (⟨rfl, -⟩ | ⟨rfl, -⟩ | ⟨-, rfl⟩)
    · exact hagent rfl
    · exact hpki rfl
    · rw [hshell] at h
      exact absurd h Bool.false_ne_true

/-- **The rules agree with the endpoints.** -/
theorem access_of_matches {e : Endpoint} {path : Path} (h : matchesPath e.pattern path) :
    access path = if e.isPublic then .permitAll else .authenticated := by
  rw [Endpoint.pattern, matchesPath_constant_append] at h
  obtain ⟨tail, rfl, h⟩ := h
  have hbase : ∃ resource, e.base = apiV1 ++ [resource] := by cases e <;> exact ⟨_, rfl⟩
  obtain ⟨resource, hbase⟩ := hbase
  rw [access_eq, opened_of_matches h, hbase, List.append_assoc]
  simp

/-- No endpoint is below the paths that ask for a device token. -/
theorem shouldNotFilter_of_matches {e : Endpoint} {path : Path} (h : matchesPath e.pattern path) :
    shouldNotFilter path = true := by
  rw [Endpoint.pattern, matchesPath_constant_append] at h
  obtain ⟨tail, rfl, h⟩ := h
  have hbase : ∃ resource, e.base = apiV1 ++ [resource] ∧ (resource = "agent" → e.isPublic) := by
    cases e <;> exact ⟨_, rfl, by decide⟩
  obtain ⟨resource, hbase, hpublic⟩ := hbase
  have hopen := opened_of_matches h
  rw [hbase, List.append_assoc, List.singleton_append] at hopen ⊢
  by_cases hagent : resource = "agent"
  · subst hagent
    rw [hpublic rfl, opened_api] at hopen
    obtain ⟨-, htail⟩ | ⟨hpki, -⟩ | ⟨hdevices, -⟩ := hopen
    · simp only [List.mem_cons, List.not_mem_nil, or_false] at htail
      obtain rfl | rfl | rfl | rfl | rfl := htail <;> rfl
    · exact absurd hpki (by decide)
    · exact absurd hdevices (by decide)
  · have hprefix : agentBase.isPrefixOf (apiV1 ++ resource :: tail) = false := by
      simp [agentBase, apiV1, List.isPrefixOf, Ne.symm hagent]
    rw [shouldNotFilter, hprefix]
    rfl

/-! ### When a handler is called -/

section Respond

variable {ctx : SecurityContext} {x : Exchange} {q : Request} {r : Records} {e : Endpoint}
  {principal : Option TenantPrincipal}

theorem method_eq_and_matches_of_route (h : route q.method q.path = some e) :
    e.method = q.method ∧ matchesPath e.pattern q.path := by
  have h := List.find?_some h
  simpa using h

/-- **When the handler of an endpoint is called**: the endpoint is mapped, its arguments are bound,
the filters let the request pass, there is a principal unless the endpoint is public, and the
principal has the role. -/
theorem respond_eq_handled_iff :
    (respond ctx x q r).1 = .handled e principal ↔
      (route q.method q.path = some e ∧ x.binds e) ∧ (identify ctx x q r).1 = .ok principal ∧
        (e.isPublic ∨ principal.isSome) ∧ e.minRole.all (hasMinRole principal) := by
  rw [respond]
  rcases identify ctx x q r with ⟨status | found, r'⟩
  · simp
  simp only [Except.ok.injEq, dispatch]
  rcases hroute : route q.method q.path with _ | e'
  · rcases authorize q found with _ | status <;> simp
  have haccess := access_of_matches (method_eq_and_matches_of_route hroute).2
  have hauthorize : (authorize q found).isNone ↔ e'.isPublic ∨ found.isSome := by
    rcases hpublic : e'.isPublic with _ | _ <;> rcases found with _ | found <;>
      simp [authorize, haccess, hpublic]
  rcases hanswer : authorize q found with _ | status <;>
    simp only [hanswer, Option.isNone_none, Option.isNone_some, true_iff, false_iff,
      Bool.false_eq_true, not_or] at hauthorize
  · by_cases hbinds : x.binds e'
    swap
    · simp only [Option.elim_none, if_neg hbinds, reduceCtorEq, Option.some.injEq, false_iff]
      rintro ⟨⟨rfl, h⟩, -⟩
      exact hbinds h
    by_cases hrole : e'.minRole.all (hasMinRole found)
    · simp only [Option.elim_none, if_pos hbinds, if_pos hrole, Answer.handled.injEq,
        Option.some.injEq]
      constructor
      · rintro ⟨rfl, rfl⟩
        exact ⟨⟨rfl, hbinds⟩, rfl, hauthorize, hrole⟩
      · rintro ⟨⟨rfl, -⟩, rfl, -⟩
        exact ⟨rfl, rfl⟩
    · simp only [Option.elim_none, if_pos hbinds, if_neg hrole, reduceCtorEq, Option.some.injEq,
        false_iff]
      rintro ⟨⟨rfl, -⟩, rfl, -, h⟩
      exact hrole h
  · simp only [Option.elim_some, reduceCtorEq, Option.some.injEq, false_iff]
    rintro ⟨⟨rfl, -⟩, rfl, hpublic | hsome, -⟩
    · exact hauthorize.1 hpublic
    · exact hauthorize.2 hsome

/-- For the path of an endpoint, the device token is not read. -/
theorem identify_of_route (h : route q.method q.path = some e) :
    identify ctx x q r =
      bearerFilter ctx x q (apiKeyFilter ctx x q r).1 (apiKeyFilter ctx x q r).2 := by
  have hskip := shouldNotFilter_of_matches (method_eq_and_matches_of_route h).2
  simp [identify, deviceTokenFilter, hskip]

end Respond

/-! ### Roles -/

section Grants

variable (ctx : SecurityContext) (x : Exchange) (q : Request) (r : Records)

/-- The API key that authenticates a request. -/
def validKey : Option ApiKey :=
  (q.apiKey.filter fun value => !isBlank value).bind fun value =>
    (findByKeyHash r.directory (ctx.sha256 value)).filter fun key => key.isValid x.now

/-- The principal of an API key. -/
def keyPrincipal (key : ApiKey) : TenantPrincipal :=
  ⟨some key.organizationId, none, some ("apikey:" ++ key.keyPrefix), some .operator⟩

/-- The credentials of a request carry a role in an organization: as the operator that every valid
API key is, unless there is a bearer token, or as the first membership of the user of the bearer
token, after the user has been signed in. -/
inductive Grants : Option UserId → OrganizationId → OrgRole → Prop
  | apiKey {key : ApiKey} (hbearer : q.bearer = none) (hkey : validKey ctx x q r = some key) :
      Grants none key.organizationId .operator
  | member {value : String} {jwt : Jwt} {user : User} {d : Directory} {m : OrganizationMember}
      (hbearer : q.bearer = some value) (hdecode : ctx.decode x.now value = some jwt)
      (hsync : (syncFromJwt ctx.toLowerCase jwt).run (apiKeyFilter ctx x q r).2.directory =
        .ok (user, d))
      (hfirst : (x.arrange (d.members.rows.filter fun m => m.userId = user.id)).head? = some m) :
      Grants (some user.id) m.organizationId m.orgRole

/-- The handler is called for a principal with this user, in this organization. -/
def HandledFor (e : Endpoint) (userId : Option UserId) (orgId : OrganizationId) : Prop :=
  ∃ identity granted,
    (respond ctx x q r).1 = .handled e (some ⟨some orgId, userId, identity, some granted⟩)

variable {ctx x q r} {e : Endpoint} {role : OrgRole} {principal : Option TenantPrincipal}

theorem apiKeyFilter_fst :
    (apiKeyFilter ctx x q r).1 = (validKey ctx x q r).map keyPrincipal := by
  rw [apiKeyFilter, validKey]
  rcases q.apiKey.filter fun value => !isBlank value with _ | value
  · rfl
  · simp only [Controller.authenticate, Option.bind_some]
    generalize Option.filter _ (findByKeyHash _ _) = found
    rcases found with _ | key <;> rfl

/-- What the bearer token and the API key of a request make of its principal. -/
theorem fst_bearerFilter_eq_ok {found : Option TenantPrincipal} {r : Records} :
    (bearerFilter ctx x q found r).1 = .ok principal ↔
      q.bearer = none ∧ found = principal ∨
        ∃ value jwt user d, q.bearer = some value ∧ ctx.decode x.now value = some jwt ∧
          (syncFromJwt ctx.toLowerCase jwt).run r.directory = .ok (user, d) ∧
          some (tenantPrincipal x jwt user d) = principal := by
  rw [bearerFilter]
  rcases q.bearer with _ | value
  · simp
  rcases hdecode : ctx.decode x.now value with _ | jwt
  · simp [hdecode]
  rcases hsync : (syncFromJwt ctx.toLowerCase jwt).run r.directory with error | ⟨user, d⟩ <;>
    simp [hdecode, hsync]

/-- A principal with a role has it from the credentials of the request, in its organization. -/
theorem hasMinRole_iff_of_identify (hroute : route q.method q.path = some e)
    (h : (identify ctx x q r).1 = .ok principal) :
    hasMinRole principal role ↔
      ∃ orgId userId identity granted,
        principal = some ⟨some orgId, userId, identity, some granted⟩ ∧
          Grants ctx x q r userId orgId granted ∧ roleLevel role ≤ roleLevel granted := by
  constructor
  · intro hrole
    rw [identify_of_route hroute, fst_bearerFilter_eq_ok, apiKeyFilter_fst] at h
    rcases h with ⟨hbearer, rfl⟩ | ⟨value, jwt, user, d, hbearer, hdecode, hsync, rfl⟩
    · rcases hkey : validKey ctx x q r with _ | key
      · rw [hkey] at hrole
        exact absurd hrole Bool.false_ne_true
      · rw [hkey] at hrole
        exact ⟨_, _, _, _, rfl, .apiKey hbearer hkey, of_decide_eq_true hrole⟩
    · rcases hfirst : (x.arrange (d.members.rows.filter fun m => m.userId = user.id)).head?
        with _ | m
      · simp [hasMinRole, tenantPrincipal, hfirst] at hrole
      · refine ⟨m.organizationId, _, jwt.subject, m.orgRole, ?_,
          .member hbearer hdecode hsync hfirst, ?_⟩
        · simp [tenantPrincipal, hfirst]
        · simpa [hasMinRole, tenantPrincipal, hfirst] using hrole
  · rintro ⟨_, _, _, _, rfl, -, h⟩
    exact decide_eq_true h

/-- The identification of a request whose credentials carry a role. -/
theorem identify_of_grants {userId : Option UserId} {orgId : OrganizationId} {granted : OrgRole}
    (hroute : route q.method q.path = some e) (h : Grants ctx x q r userId orgId granted) :
    ∃ identity,
      (identify ctx x q r).1 = .ok (some ⟨some orgId, userId, identity, some granted⟩) := by
  rw [identify_of_route hroute]
  simp only [fst_bearerFilter_eq_ok, apiKeyFilter_fst]
  cases h with
  | apiKey hbearer hkey => exact ⟨_, .inl ⟨hbearer, by rw [hkey]; rfl⟩⟩
  | member hbearer hdecode hsync hfirst =>
    exact ⟨_, .inr ⟨_, _, _, _, hbearer, hdecode, hsync, by simp [tenantPrincipal, hfirst]; rfl⟩⟩

theorem all_minRole (hrole : e.minRole = some role) (principal : Option TenantPrincipal) :
    e.minRole.all (hasMinRole principal) = hasMinRole principal role := by
  rw [hrole, Option.all_some]

/-- The principal of an endpoint with a role is complete. -/
theorem exists_eq_of_handled (hrole : e.minRole = some role)
    (h : (respond ctx x q r).1 = .handled e principal) :
    ∃ userId orgId identity granted,
      principal = some ⟨some orgId, userId, identity, some granted⟩ := by
  obtain ⟨⟨hroute, -⟩, hidentify, -, h⟩ := respond_eq_handled_iff.mp h
  rw [all_minRole hrole, hasMinRole_iff_of_identify hroute hidentify] at h
  obtain ⟨orgId, userId, identity, granted, rfl, -⟩ := h
  exact ⟨userId, orgId, identity, granted, rfl⟩

/-- The handler runs for the credentials that carry the role. -/
theorem handledFor_iff (hrole : e.minRole = some role) {userId : Option UserId}
    {orgId : OrganizationId} :
    HandledFor ctx x q r e userId orgId ↔
      (route q.method q.path = some e ∧ x.binds e) ∧
        ∃ granted, Grants ctx x q r userId orgId granted ∧ roleLevel role ≤ roleLevel granted := by
  constructor
  · rintro ⟨identity, granted, h⟩
    obtain ⟨⟨hroute, hbinds⟩, hidentify, -, h⟩ := respond_eq_handled_iff.mp h
    rw [all_minRole hrole, hasMinRole_iff_of_identify hroute hidentify] at h
    obtain ⟨_, _, _, granted', heq, hgrants, hle⟩ := h
    cases heq
    exact ⟨⟨hroute, hbinds⟩, granted, hgrants, hle⟩
  · rintro ⟨⟨hroute, hbinds⟩, granted, hgrants, hle⟩
    obtain ⟨identity, hidentify⟩ := identify_of_grants hroute hgrants
    refine ⟨identity, granted,
      respond_eq_handled_iff.mpr ⟨⟨hroute, hbinds⟩, hidentify, .inr rfl, ?_⟩⟩
    rw [all_minRole hrole]
    exact decide_eq_true hle

/-- **Who reaches an endpoint with a role.** Its handler is called for a principal with this role,
in an organization and for a user for whom the credentials of the request carry it; and it is called
whenever they do and its arguments are bound. -/
theorem handled_iff_exists_grants (hrole : e.minRole = some role) :
    (∀ principal, (respond ctx x q r).1 = .handled e principal →
        ∃ userId orgId identity granted,
          principal = some ⟨some orgId, userId, identity, some granted⟩) ∧
      ∀ userId orgId, HandledFor ctx x q r e userId orgId ↔
        (route q.method q.path = some e ∧ x.binds e) ∧
          ∃ granted, Grants ctx x q r userId orgId granted ∧ roleLevel role ≤ roleLevel granted :=
  ⟨fun _ => exists_eq_of_handled hrole, fun _ _ => handledFor_iff hrole⟩

/-- **What is reached without a bearer token**: the public endpoints and, with a valid API key, the
endpoints that an operator may call, if their arguments are bound. A device token reaches
nothing. -/
theorem exists_handled_iff_of_bearer_eq_none (hbearer : q.bearer = none) :
    (∃ principal, (respond ctx x q r).1 = .handled e principal) ↔
      (route q.method q.path = some e ∧ x.binds e) ∧
        (e.isPublic ∨ (validKey ctx x q r).isSome ∧
          ∀ role ∈ e.minRole, roleLevel role ≤ roleLevel .operator) := by
  have hpublic : e.isPublic → e.minRole = none := by cases e <;> decide
  have hidentify (principal) (hroute : route q.method q.path = some e) :
      (identify ctx x q r).1 = .ok principal ↔
        (validKey ctx x q r).map keyPrincipal = principal := by
    rw [identify_of_route hroute, fst_bearerFilter_eq_ok, apiKeyFilter_fst]
    simp [hbearer]
  have hall (key : ApiKey) : e.minRole.all (hasMinRole (some (keyPrincipal key))) ↔
      ∀ role ∈ e.minRole, roleLevel role ≤ roleLevel .operator := by
    rw [Option.all_eq_true]
    exact forall₂_congr fun role _ => decide_eq_true_iff
  simp only [respond_eq_handled_iff]
  constructor
  · rintro ⟨principal, hbound, hprincipal, hpass, hrole⟩
    obtain rfl := (hidentify principal hbound.1).mp hprincipal
    rcases hkey : validKey ctx x q r with _ | key <;> rw [hkey] at hpass hrole
    · exact ⟨hbound, .inl (hpass.resolve_right Bool.false_ne_true)⟩
    · exact ⟨hbound, .inr ⟨rfl, (hall key).mp hrole⟩⟩
  · rintro ⟨hbound, h⟩
    refine ⟨_, hbound, (hidentify _ hbound.1).mpr rfl, ?_⟩
    rcases hkey : validKey ctx x q r with _ | key
    · have h : e.isPublic := h.resolve_right fun h => by simp [hkey] at h
      exact ⟨.inl h, by rw [hpublic h]; rfl⟩
    · refine ⟨.inr rfl, (hall key).mpr ?_⟩
      rcases h with h | ⟨-, h⟩
      · simp [hpublic h]
      · exact h

end Grants

/-! ### An organization with a member and a key -/

/-- The claims of the bearer token that is valid. -/
def aliceJwt : Jwt := ⟨some "alice", some "alice", none, none, true⟩

def alice : User := ⟨1, "alice", "alice", none, none⟩

/-- Hashes are the texts themselves. -/
def plainContext : SecurityContext :=
  ⟨id, id, fun _ value => if value = "token" then some aliceJwt else none⟩

/-- Memberships come in the order of their numbers, and every argument is bound. -/
def inOrder : Exchange := ⟨10, id, .refl, fun _ => true⟩

/-- An organization with an administrator and an API key. -/
def staffed : Directory where
  organizations := ⟨⟨[⟨1, "Acme", "acme", none⟩], by decide⟩, 2, by decide⟩
  users := ⟨⟨[alice], by decide⟩, 2, by decide⟩
  members := ⟨⟨[⟨1, 1, 1, .admin⟩], by decide⟩, 2, by decide⟩
  invitations := .empty
  apiKeys :=
    ⟨⟨[⟨1, 1, "key", "key", "ci", [], some 20, false, none, none⟩], by decide⟩, 2, by decide⟩

def staffedRecords : Records := ⟨.empty .empty, staffed⟩

/-- A request for the members, with one kind of credentials. -/
def membersRequest (method : Method) (apiKey bearer : Option String) : Request :=
  ⟨method, organizationBase ++ ["members"], apiKey, none, bearer⟩

theorem handledFor_staffed :
    HandledFor plainContext inOrder (membersRequest .post none (some "token")) staffedRecords
      .inviteMember (some 1) 1 := by
  have hsync : (syncFromJwt plainContext.toLowerCase aliceJwt).run staffed =
      .ok (alice, staffed) := rfl
  have hgrants : Grants plainContext inOrder (membersRequest .post none (some "token"))
      staffedRecords (some alice.id) 1 .admin :=
    .member (m := ⟨1, 1, 1, .admin⟩) rfl rfl hsync rfl
  exact ((handled_iff_exists_grants rfl).2 (some 1) 1).mpr
    ⟨⟨by decide +kernel, rfl⟩, .admin, hgrants, le_rfl⟩

theorem exists_handled_staffed :
    ∃ principal, (respond plainContext inOrder (membersRequest .get (some "key") none)
      staffedRecords).1 = .handled .listMembers principal :=
  (exists_handled_iff_of_bearer_eq_none rfl).mpr
    ⟨⟨by decide +kernel, rfl⟩, .inr ⟨by decide +kernel, by decide⟩⟩

end EdgeGuardian.Controller.Http
