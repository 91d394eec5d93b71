import EdgeGuardian.Controller.HttpSecurity

/-!
# The calls of the user interface

The pages call the API through one function for each call, which puts ids into the text of a path.
The API takes the path apart again at its slashes. The ids of records are numbers; the id of a
device is whatever the device has enrolled with, and goes into the path as it is.

The paths here are those that a URL leaves as they are: the ids of devices have unreserved
characters only. The texts behind a `?` and the bodies are not part of the path.

Source: `ui/lib/api/endpoints.ts`, `ui/lib/api/devices.ts`, `ui/lib/api/organizations.ts`,
`ui/lib/api/certificates.ts`, `ui/lib/api/shell.ts`, `ui/lib/api-client.ts`, and the mappings of
`controller/src/main/java/com/edgeguardian/controller/api/`.

## Main definitions

* `ApiCall`, `ApiCall.method`, `ApiCall.path`: the calls, and the requests that they are.
* `ApiCall.endpoint`: the endpoint that a call is for.
* `Plain`: the ids of devices that a URL leaves as they are.
* `captured`: the values of the variables of a mapping.

## Main results

* `eq_of_matchesPath`: which mappings a path can match.
* `routed_iff`: a call reaches its endpoint, with its ids, but for a device named `count`.
* `signedIn_handled_iff`: for whom a call of a signed-in user is handled.
-/

namespace EdgeGuardian.Ui

open Controller Controller.Http

/-! ### Paths -/

/-- `API_PREFIX`. -/
def apiPrefix : String := "/api/v1"

/-- `path`. -/
def path (suffix : String) : String := apiPrefix ++ suffix

/-- The texts between the slashes. -/
def pieces (text : String) : List String := (text.toList.splitOn '/').map String.ofList

/-- The path of a request, which begins with a slash. -/
def segments (text : String) : Path := (pieces text).tail

namespace Endpoints

def me : String := path "/me"
def organization : String := path "/organization"
def auditLog : String := path "/organization/audit-log"
def members : String := path "/organization/members"
def member (memberId : ℕ) : String := path ("/organization/members/" ++ toString memberId)
def invitations : String := path "/organization/invitations"
def invitation (invitationId : ℕ) : String :=
  path ("/organization/invitations/" ++ toString invitationId)
def apiKeys : String := path "/api-keys"
def apiKey (keyId : ℕ) : String := path ("/api-keys/" ++ toString keyId)
def enrollmentTokens : String := path "/enrollment-tokens"
def enrollmentToken (tokenId : ℕ) : String := path ("/enrollment-tokens/" ++ toString tokenId)
def devices : String := path "/devices"
def count : String := path "/devices/count"
def device (deviceId : String) : String := path ("/devices/" ++ deviceId)
def manifest (deviceId : String) : String := path ("/devices/" ++ deviceId ++ "/manifest")
def labels (deviceId : String) : String := path ("/devices/" ++ deviceId ++ "/labels")
def logs (deviceId : String) : String := path ("/devices/" ++ deviceId ++ "/logs")
def telemetry (deviceId : String) : String := path ("/devices/" ++ deviceId ++ "/telemetry")
def telemetryHourly (deviceId : String) : String :=
  path ("/devices/" ++ deviceId ++ "/telemetry/hourly")
def shellSessions (deviceId : String) : String :=
  path ("/devices/" ++ deviceId ++ "/shell/sessions")
def shellWs : String := path "/devices/shell/ws"
def certificates : String := path "/certificates"
def ca : String := path "/certificates/ca"
def revoke (certId : ℕ) : String := path ("/certificates/" ++ toString certId ++ "/revoke")
def requests : String := path "/certificates/requests"
def approve (requestId : ℕ) : String :=
  path ("/certificates/requests/" ++ toString requestId ++ "/approve")
def reject (requestId : ℕ) : String :=
  path ("/certificates/requests/" ++ toString requestId ++ "/reject")
def installer : String := path "/agent/installer"

end Endpoints

/-! ### Calls -/

/-- The calls. -/
inductive ApiCall
  | getMe | getOrganization | updateOrganization | listMembers | inviteMember
  | removeMember (memberId : ℕ)
  | listInvitations
  | revokeInvitation (invitationId : ℕ)
  | updateMemberRole (memberId : ℕ)
  | listEnrollmentTokens | createEnrollmentToken
  | deleteEnrollmentToken (tokenId : ℕ)
  | buildInstallerUrl
  | listApiKeys | createApiKey
  | deleteApiKey (keyId : ℕ)
  | listAuditLog
  | listDevices
  | getDevice (deviceId : String)
  | deleteDevice (deviceId : String)
  | getDeviceCount
  | getDeviceManifest (deviceId : String)
  | getDeviceLogs (deviceId : String)
  | updateDeviceManifest (deviceId : String)
  | updateDeviceLabels (deviceId : String)
  /-- The bucket `hourly` or another one. -/
  | getDeviceTelemetry (deviceId : String) (hourly : Bool)
  | listCertificateRequests | listCertificates
  | approveCertRequest (requestId : ℕ)
  | rejectCertRequest (requestId : ℕ)
  | revokeCertificate (certId : ℕ)
  | getCaCert
  | createShellSession (deviceId : String)
  | shellWebSocketUrl
deriving DecidableEq, Repr

namespace ApiCall

def method : ApiCall → Method
  | inviteMember | createEnrollmentToken | createApiKey | approveCertRequest _
  | rejectCertRequest _ | revokeCertificate _ | createShellSession _ => .post
  | updateOrganization | updateDeviceManifest _ | updateDeviceLabels _ => .put
  | updateMemberRole _ => .patch
  | removeMember _ | revokeInvitation _ | deleteEnrollmentToken _ | deleteApiKey _
  | deleteDevice _ => .delete
  | _ => .get

def path : ApiCall → String
  | getMe => Endpoints.me
  | getOrganization | updateOrganization => Endpoints.organization
  | listMembers | inviteMember => Endpoints.members
  | removeMember memberId | updateMemberRole memberId => Endpoints.member memberId
  | listInvitations => Endpoints.invitations
  | revokeInvitation invitationId => Endpoints.invitation invitationId
  | listEnrollmentTokens | createEnrollmentToken => Endpoints.enrollmentTokens
  | deleteEnrollmentToken tokenId => Endpoints.enrollmentToken tokenId
  | buildInstallerUrl => Endpoints.installer
  | listApiKeys | createApiKey => Endpoints.apiKeys
  | deleteApiKey keyId => Endpoints.apiKey keyId
  | listAuditLog => Endpoints.auditLog
  | listDevices => Endpoints.devices
  | getDevice deviceId | deleteDevice deviceId => Endpoints.device deviceId
  | getDeviceCount => Endpoints.count
  | getDeviceManifest deviceId | updateDeviceManifest deviceId => Endpoints.manifest deviceId
  | getDeviceLogs deviceId => Endpoints.logs deviceId
  | updateDeviceLabels deviceId => Endpoints.labels deviceId
  | getDeviceTelemetry deviceId hourly =>
    if hourly then Endpoints.telemetryHourly deviceId else Endpoints.telemetry deviceId
  | listCertificateRequests => Endpoints.requests
  | listCertificates => Endpoints.certificates
  | approveCertRequest requestId => Endpoints.approve requestId
  | rejectCertRequest requestId => Endpoints.reject requestId
  | revokeCertificate certId => Endpoints.revoke certId
  | getCaCert => Endpoints.ca
  | createShellSession deviceId => Endpoints.shellSessions deviceId
  | shellWebSocketUrl => Endpoints.shellWs

/-- The ids in the path. -/
def ids : ApiCall → List String
  | removeMember id | revokeInvitation id | updateMemberRole id | deleteEnrollmentToken id
  | deleteApiKey id | approveCertRequest id | rejectCertRequest id | revokeCertificate id =>
    [toString id]
  | getDevice deviceId | deleteDevice deviceId | getDeviceManifest deviceId
  | getDeviceLogs deviceId | updateDeviceManifest deviceId | updateDeviceLabels deviceId
  | getDeviceTelemetry deviceId _ | createShellSession deviceId => [deviceId]
  | _ => []

/-- The endpoint that a call is for. The API has none for labels. -/
def endpoint : ApiCall → Option Endpoint
  | getMe => some .me
  | getOrganization => some .getOrganization
  | updateOrganization => some .updateOrganization
  | listMembers => some .listMembers
  | inviteMember => some .inviteMember
  | removeMember _ => some .removeMember
  | listInvitations => some .listInvitations
  | revokeInvitation _ => some .revokeInvitation
  | updateMemberRole _ => some .updateMemberRole
  | listEnrollmentTokens => some .listEnrollmentTokens
  | createEnrollmentToken => some .createEnrollmentToken
  | deleteEnrollmentToken _ => some .revokeEnrollmentToken
  | buildInstallerUrl => some .installer
  | listApiKeys => some .listApiKeys
  | createApiKey => some .createApiKey
  | deleteApiKey _ => some .revokeApiKey
  | listAuditLog => some .listAuditLog
  | listDevices => some .listDevices
  | getDevice _ => some .getDevice
  | deleteDevice _ => some .removeDevice
  | getDeviceCount => some .countDevices
  | getDeviceManifest _ => some .getManifest
  | getDeviceLogs _ => some .getDeviceLogs
  | updateDeviceManifest _ => some .updateManifest
  | updateDeviceLabels _ => none
  | getDeviceTelemetry _ hourly => some (if hourly then .getHourlyTelemetry else .getRawTelemetry)
  | listCertificateRequests => some .listRequests
  | listCertificates => some .listCertificates
  | approveCertRequest _ => some .approve
  | rejectCertRequest _ => some .reject
  | revokeCertificate _ => some .revokeCertificate
  | getCaCert => some .getCaCert
  | createShellSession _ => some .createShellSession
  | shellWebSocketUrl => some .connectShell

/-- The request of a call with a token. -/
def request (c : ApiCall) (token : String) : Request where
  method := c.method
  path := segments c.path
  apiKey := none
  deviceToken := none
  bearer := some token

end ApiCall

/-- A text of unreserved characters, which a URL leaves as it is. -/
structure Plain (id : String) : Prop where
  ne_empty : id ≠ ""
  not_dots : id ≠ "." ∧ id ≠ ".."
  unreserved : id.toList.all fun ch => ch.isAlphanum || ch = '-' || ch = '.' || ch = '_' || ch = '~'

/-- The ids of devices in the path are plain. -/
def ApiCall.Plain : ApiCall → Prop
  | .getDevice deviceId | .deleteDevice deviceId | .getDeviceManifest deviceId
  | .getDeviceLogs deviceId | .updateDeviceManifest deviceId | .updateDeviceLabels deviceId
  | .getDeviceTelemetry deviceId _ | .createShellSession deviceId => Ui.Plain deviceId
  | _ => True

/-! ### Which mappings a path can match -/

/-- The values of the variables. -/
def captured : List PathElement → Path → List String
  | .literal _ :: pattern, _ :: p => captured pattern p
  | .variable :: pattern, segment :: p => segment :: captured pattern p
  | .variableBefore suffix :: pattern, segment :: p =>
    String.ofList (segment.toList.take (segment.length - suffix.length)) :: captured pattern p
  | _, _ => []

/-- Two patterns that differ in no fixed text. -/
def overlap : List PathElement → List PathElement → Bool
  | [], [] => true
  | .literal a :: pattern, .literal b :: pattern' => a = b && overlap pattern pattern'
  | _ :: pattern, _ :: pattern' => overlap pattern pattern'
  | _, _ => false

theorem overlap_of_matchesPath {pattern pattern' : List PathElement} {p : Path}
    (h : matchesPath pattern p) (h' : matchesPath pattern' p) : overlap pattern pattern' := by
  induction pattern generalizing pattern' p with
  | nil =>
    obtain rfl := matchesPath_nil.mp h
    cases pattern' with
    | nil => rfl
    | cons => exact absurd h' Bool.false_ne_true
  | cons element pattern ih =>
    obtain ⟨segment, tail, rfl, haccepts, h⟩ := matchesPath_cons.mp h
    cases pattern' with
    | nil => exact absurd h' Bool.false_ne_true
    | cons element' pattern' =>
      obtain ⟨_, _, heq, haccepts', h'⟩ := matchesPath_cons.mp h'
      cases heq
      have htail := ih h h'
      cases element <;> cases element' <;>
        simp_all [overlap, PathElement.accepts]

/-- No two mappings of one method overlap, but those of a device and of the number of devices. -/
theorem overlap_pattern : ∀ e ∈ Endpoint.all, ∀ e' ∈ Endpoint.all, e.method = e'.method →
    overlap e.pattern e'.pattern →
      e = e' ∨ e = .countDevices ∧ e' = .getDevice ∨ e = .getDevice ∧ e' = .countDevices := by
  decide +kernel

theorem mem_all (e : Endpoint) : e ∈ Endpoint.all := by cases e <;> decide

/-- **Which mappings a path can match**: one of each method, but for the number of devices. -/
theorem eq_of_matchesPath {e e' : Endpoint} {p : Path} (hmethod : e.method = e'.method)
    (h : matchesPath e.pattern p) (h' : matchesPath e'.pattern p) :
    e = e' ∨ e = .countDevices ∧ e' = .getDevice ∨ e = .getDevice ∧ e' = .countDevices :=
  overlap_pattern e (mem_all e) e' (mem_all e') hmethod (overlap_of_matchesPath h h')

theorem matchesPath_countDevices {p : Path} :
    matchesPath Endpoint.countDevices.pattern p ↔ p = devicesBase ++ ["count"] := by
  have hpattern : Endpoint.countDevices.pattern = constant (devicesBase ++ ["count"]) ++ [] := rfl
  rw [hpattern, matchesPath_constant_append]
  simp

theorem route_countDevices : route .get (devicesBase ++ ["count"]) = some .countDevices := by
  decide +kernel

/-- A request is routed to the endpoint whose mapping it matches, but for the number of devices. -/
theorem route_eq_some {e : Endpoint} {p : Path} (h : matchesPath e.pattern p)
    (hcount : e = .getDevice → p ≠ devicesBase ++ ["count"]) : route e.method p = some e := by
  have hsome : (route e.method p).isSome := by
    rw [route, List.find?_isSome]
    exact ⟨e, mem_all e, by simp [h]⟩
  obtain ⟨e', he'⟩ := Option.isSome_iff_exists.mp hsome
  have hmatch := List.find?_some he'
  simp only [Bool.and_eq_true, decide_eq_true_eq] at hmatch
  rw [he']
  rcases eq_of_matchesPath hmatch.1 hmatch.2 h with rfl | ⟨rfl, rfl⟩ | ⟨rfl, rfl⟩
  · rfl
  · exact absurd (matchesPath_countDevices.mp hmatch.2) (hcount rfl)
  · -- the mapping of the number of devices comes first
    rw [matchesPath_countDevices.mp h] at he'
    exact he'.symm.trans route_countDevices

/-! ### The paths of the calls -/

section Segments

variable {text base id last : String}

theorem segments_of_toList {rest : List Char} (h : text.toList = base.toList ++ '/' :: rest) :
    segments text = segments base ++ pieces (String.ofList rest) := by
  have hne : (base.toList.splitOn '/').map String.ofList ≠ [] := by
    simp
  rw [segments, segments, pieces, pieces, pieces, h, List.splitOn_append_cons_self,
    List.map_append, List.tail_append_of_ne_nil hne, String.toList_ofList]

/-- A path that ends with an id. -/
theorem segments_item (hid : '/' ∉ id.toList) (h : text.toList = base.toList ++ '/' :: id.toList) :
    segments text = segments base ++ [id] := by
  rw [segments_of_toList h, pieces, String.toList_ofList, List.splitOn_eq_singleton hid,
    List.map_singleton, String.ofList_toList]

/-- A path that goes on after an id. -/
theorem segments_below (hid : '/' ∉ id.toList)
    (h : text.toList = base.toList ++ '/' :: (id.toList ++ '/' :: last.toList)) :
    segments text = segments base ++ id :: pieces last := by
  rw [segments_of_toList h, pieces, String.toList_ofList,
    List.splitOn_append_cons_self_of_not_mem hid, List.map_cons, String.ofList_toList, pieces]

theorem Plain.slash_not_mem (h : Plain id) : '/' ∉ id.toList := by
  intro hmem
  exact absurd (List.all_eq_true.mp h.unreserved _ hmem) (by decide)

theorem slash_not_mem_toString (n : ℕ) : '/' ∉ (toString n).toList := by
  intro hmem
  rw [Nat.toString_eq_ofList_toDigits, String.toList_ofList] at hmem
  exact absurd (Nat.isDigit_of_mem_toDigits (by decide) (by decide) hmem) (by decide)

theorem toString_ne_empty (n : ℕ) : toString n ≠ "" := by
  intro h
  have hnil := congrArg String.toList h
  rw [Nat.toString_eq_ofList_toDigits, String.toList_ofList] at hnil
  exact Nat.toDigits_ne_nil hnil

theorem captured_constant_append {p q : Path} {pattern : List PathElement} :
    captured (constant p ++ pattern) (p ++ q) = captured pattern q := by
  induction p with
  | nil => rfl
  | cons segment p ih => exact ih

/-- A fixed path matches itself, and has no variables. -/
theorem matches_constant (p : Path) :
    matchesPath (constant p) p ∧ captured (constant p) p = [] := by
  induction p with
  | nil => exact ⟨rfl, rfl⟩
  | cons segment p ih =>
    refine ⟨?_, ih.2⟩
    simpa [constant, matchesPath, PathElement.accepts] using ih.1

/-- An id at the end of a path is the variable. -/
theorem matches_item {e : Endpoint} (base : String) (hne : id ≠ "") (hid : '/' ∉ id.toList)
    (htext : text.toList = base.toList ++ '/' :: id.toList)
    (hpattern : e.pattern = constant (segments base) ++ [.variable]) :
    matchesPath e.pattern (segments text) ∧ captured e.pattern (segments text) = [id] := by
  rw [hpattern, segments_item hid htext, matchesPath_constant_append, captured_constant_append]
  refine ⟨⟨_, rfl, ?_⟩, rfl⟩
  simpa [matchesPath, PathElement.accepts] using hne

/-- An id before the end of a path is the variable. -/
theorem matches_below {e : Endpoint} (base last : String) (hne : id ≠ "") (hid : '/' ∉ id.toList)
    (htext : text.toList = base.toList ++ '/' :: (id.toList ++ '/' :: last.toList))
    (hpattern : e.pattern = constant (segments base) ++ .variable :: constant (pieces last)) :
    matchesPath e.pattern (segments text) ∧ captured e.pattern (segments text) = [id] := by
  obtain ⟨hmatches, hcaptured⟩ := matches_constant (pieces last)
  rw [hpattern, segments_below hid htext, matchesPath_constant_append, captured_constant_append]
  refine ⟨⟨_, rfl, ?_⟩, ?_⟩
  · simpa [matchesPath, PathElement.accepts, hne] using hmatches
  · rw [captured, hcaptured]

end Segments

section Routes

variable {c : ApiCall} {e : Endpoint} {deviceId : String}

theorem matches_device (hid : Plain deviceId)
    (hpattern : e.pattern = constant (segments "/api/v1/devices") ++ [.variable]) :
    matchesPath e.pattern (segments (Endpoints.device deviceId)) ∧
      captured e.pattern (segments (Endpoints.device deviceId)) = [deviceId] := by
  refine matches_item "/api/v1/devices" hid.ne_empty hid.slash_not_mem ?_ hpattern
  simp only [Endpoints.device, path, apiPrefix, String.toList_append]
  rfl

theorem matches_deviceBelow {suffix : String} (last : String) (hid : Plain deviceId)
    (hsuffix : suffix.toList = '/' :: last.toList)
    (hpattern : e.pattern =
      constant (segments "/api/v1/devices") ++ .variable :: constant (pieces last)) :
    matchesPath e.pattern (segments (path ("/devices/" ++ deviceId ++ suffix))) ∧
      captured e.pattern (segments (path ("/devices/" ++ deviceId ++ suffix))) = [deviceId] := by
  refine matches_below "/api/v1/devices" last hid.ne_empty hid.slash_not_mem ?_ hpattern
  simp only [path, apiPrefix, String.toList_append, List.append_assoc, hsuffix]
  rfl

theorem matches_number {n : ℕ} {before : String} (base : String)
    (hbase : apiPrefix.toList ++ before.toList = base.toList ++ ['/'])
    (hpattern : e.pattern = constant (segments base) ++ [.variable]) :
    matchesPath e.pattern (segments (path (before ++ toString n))) ∧
      captured e.pattern (segments (path (before ++ toString n))) = [toString n] := by
  refine matches_item base (toString_ne_empty n) (slash_not_mem_toString n) ?_ hpattern
  rw [path, String.toList_append, String.toList_append, ← List.append_assoc, hbase,
    List.append_assoc]
  rfl

theorem matches_numberBelow {n : ℕ} {before suffix : String} (base last : String)
    (hbase : apiPrefix.toList ++ before.toList = base.toList ++ ['/'])
    (hsuffix : suffix.toList = '/' :: last.toList)
    (hpattern : e.pattern = constant (segments base) ++ .variable :: constant (pieces last)) :
    matchesPath e.pattern (segments (path (before ++ toString n ++ suffix))) ∧
      captured e.pattern (segments (path (before ++ toString n ++ suffix))) = [toString n] := by
  refine matches_below base last (toString_ne_empty n) (slash_not_mem_toString n) ?_ hpattern
  rw [path, String.toList_append, String.toList_append, String.toList_append, List.append_assoc,
    ← List.append_assoc, hbase, hsuffix, List.append_assoc]
  rfl

/-- A call matches the mapping of its endpoint, with its ids for the variables. -/
theorem matches_endpoint (hc : c.Plain) (he : c.endpoint = some e) :
    e.method = c.method ∧ matchesPath e.pattern (segments c.path) ∧
      captured e.pattern (segments c.path) = c.ids := by
  cases c with
  | removeMember id | updateMemberRole id =>
    cases he
    exact ⟨rfl, matches_number "/api/v1/organization/members" (by decide) (by decide +kernel)⟩
  | revokeInvitation id =>
    cases he
    exact ⟨rfl, matches_number "/api/v1/organization/invitations" (by decide) (by decide +kernel)⟩
  | deleteEnrollmentToken id =>
    cases he
    exact ⟨rfl, matches_number "/api/v1/enrollment-tokens" (by decide) (by decide +kernel)⟩
  | deleteApiKey id =>
    cases he
    exact ⟨rfl, matches_number "/api/v1/api-keys" (by decide) (by decide +kernel)⟩
  | approveCertRequest id =>
    cases he
    exact ⟨rfl, matches_numberBelow "/api/v1/certificates/requests" "approve" (by decide) rfl
      (by decide +kernel)⟩
  | rejectCertRequest id =>
    cases he
    exact ⟨rfl, matches_numberBelow "/api/v1/certificates/requests" "reject" (by decide) rfl
      (by decide +kernel)⟩
  | revokeCertificate id =>
    cases he
    exact ⟨rfl, matches_numberBelow "/api/v1/certificates" "revoke" (by decide) rfl
      (by decide +kernel)⟩
  | getDevice deviceId | deleteDevice deviceId =>
    cases he
    exact ⟨rfl, matches_device hc (by decide +kernel)⟩
  | getDeviceManifest deviceId | updateDeviceManifest deviceId =>
    cases he
    exact ⟨rfl, matches_deviceBelow "manifest" hc rfl (by decide +kernel)⟩
  | getDeviceLogs deviceId =>
    cases he
    exact ⟨rfl, matches_deviceBelow "logs" hc rfl (by decide +kernel)⟩
  | createShellSession deviceId =>
    cases he
    exact ⟨rfl, matches_deviceBelow "shell/sessions" hc rfl (by decide +kernel)⟩
  | getDeviceTelemetry deviceId hourly =>
    cases hourly <;> cases he
    · exact ⟨rfl, matches_deviceBelow "telemetry" hc rfl (by decide +kernel)⟩
    · exact ⟨rfl, matches_deviceBelow "telemetry/hourly" hc rfl (by decide +kernel)⟩
  | updateDeviceLabels deviceId => cases he
  | _ =>
    cases he
    exact ⟨rfl, by decide +kernel, by decide +kernel⟩

/-- No endpoint is mapped to the labels of a device. -/
theorem route_labels (hid : Plain deviceId) :
    route .put (segments (Endpoints.labels deviceId)) = none := by
  have hbase : segments "/api/v1/devices" = devicesBase := by decide +kernel
  have htext : (Endpoints.labels deviceId).toList =
      "/api/v1/devices".toList ++ '/' :: (deviceId.toList ++ '/' :: "labels".toList) := by
    simp only [Endpoints.labels, path, apiPrefix, String.toList_append, List.append_assoc]
    rfl
  have hlabels : pieces "labels" = ["labels"] := by decide +kernel
  rw [segments_below hid.slash_not_mem htext, hbase, hlabels, route, List.find?_eq_none]
  intro e _ h
  simp only [Bool.and_eq_true, decide_eq_true_eq] at h
  obtain ⟨hmethod, h⟩ := h
  have hput : e = .updateManifest ∨ e = .updateOrganization := by
    cases e <;> simp_all [Endpoint.method]
  rcases hput with rfl | rfl
  · simp [Endpoint.pattern, Endpoint.base, Endpoint.mapping, constant, devicesBase, apiV1,
      matchesPath, PathElement.accepts] at h
  · simp [Endpoint.pattern, Endpoint.base, Endpoint.mapping, constant, devicesBase, apiV1,
      organizationBase, matchesPath, PathElement.accepts] at h

theorem exists_eq_updateDeviceLabels (h : c.endpoint = none) :
    ∃ deviceId, c = .updateDeviceLabels deviceId := by
  cases c with
  | updateDeviceLabels deviceId => exact ⟨deviceId, rfl⟩
  | _ => cases h

theorem exists_eq_getDevice (h : c.endpoint = some .getDevice) :
    ∃ deviceId, c = .getDevice deviceId := by
  cases c with
  | getDevice deviceId => exact ⟨deviceId, rfl⟩
  | getDeviceTelemetry deviceId hourly => cases hourly <;> cases h
  | _ => cases h

/-- **Where a call goes.** It reaches the endpoint that it is for, with its ids for the variables of
the mapping, or no endpoint where the API has none for it; except that a device named `count` is not
found by its id. -/
theorem routed_iff (hc : c.Plain) :
    (route c.method (segments c.path) = c.endpoint ∧
        ∀ e ∈ c.endpoint, captured e.pattern (segments c.path) = c.ids) ↔
      c ≠ .getDevice "count" := by
  constructor
  · rintro ⟨hroute, -⟩ rfl
    have hcount : segments (ApiCall.getDevice "count").path = devicesBase ++ ["count"] := by
      decide +kernel
    rw [hcount] at hroute
    exact absurd (hroute.symm.trans route_countDevices) (by decide)
  · intro hne
    rcases he : c.endpoint with _ | e
    · refine ⟨?_, nofun⟩
      obtain ⟨deviceId, rfl⟩ := exists_eq_updateDeviceLabels he
      exact route_labels hc
    · obtain ⟨hmethod, hmatches, hcaptured⟩ := matches_endpoint hc he
      refine ⟨?_, ?_⟩
      · rw [← hmethod]
        refine route_eq_some hmatches ?_
        rintro rfl hcount
        obtain ⟨deviceId, rfl⟩ := exists_eq_getDevice he
        rw [hcount] at hcaptured
        exact hne (congrArg ApiCall.getDevice (List.head_eq_of_cons_eq hcaptured).symm)
      · rintro _ ⟨⟩
        exact hcaptured

/-- The logs of a device. -/
theorem routed_logs :
    route .get (segments (Endpoints.logs "rpi-001")) = some .getDeviceLogs ∧
      ∀ e ∈ some Endpoint.getDeviceLogs,
        captured e.pattern (segments (Endpoints.logs "rpi-001")) = ["rpi-001"] := by
  have hplain : (ApiCall.getDeviceLogs "rpi-001").Plain :=
    ⟨by decide, ⟨by decide, by decide⟩, by decide +kernel⟩
  exact (routed_iff hplain).mpr nofun

end Routes

/-! ### The calls of a signed-in user -/

section SignedIn

variable {ctx : SecurityContext} {x : Exchange} {r : Records} {c : ApiCall} {e : Endpoint}
  {role : OrgRole} {token : String} {userId : Option UserId} {orgId : OrganizationId}

/-- The token signs a user in who has a first membership, as the database returns them. -/
def FirstMembership (ctx : SecurityContext) (x : Exchange) (r : Records) (token : String)
    (m : OrganizationMember) : Prop :=
  ∃ jwt user d, ctx.decode x.now token = some jwt ∧
    (syncFromJwt ctx.toLowerCase jwt).run r.directory = .ok (user, d) ∧
    (x.arrange (d.members.rows.filter fun m => m.userId = user.id)).head? = some m

/-- **For whom a call is handled.** A call of a signed-in user to an endpoint with a role is handled
in the organization of the first membership of the user, if its arguments are bound and that
membership has the role, and nowhere else. -/
theorem signedIn_handled_iff (hc : c.Plain) (hne : c ≠ .getDevice "count")
    (he : c.endpoint = some e) (hrole : e.minRole = some role) :
    HandledFor ctx x (c.request token) r e userId orgId ↔ x.binds e ∧
      ∃ m, FirstMembership ctx x r token m ∧ userId = some m.userId ∧ orgId = m.organizationId ∧
        roleLevel role ≤ roleLevel m.orgRole := by
  have hroute : route (c.request token).method (c.request token).path = some e :=
    ((routed_iff hc).mpr hne).1.trans he
  have hkey : (apiKeyFilter ctx x (c.request token) r).2 = r := rfl
  rw [handledFor_iff hrole]
  constructor
  · rintro ⟨⟨-, hbinds⟩, granted, hgrants, hle⟩
    refine ⟨hbinds, ?_⟩
    cases hgrants with
    | apiKey hbearer => cases hbearer
    | member hbearer hdecode hsync hfirst =>
      cases hbearer
      have hmem := List.mem_of_mem_head? hfirst
      rw [hkey] at hsync
      have huser := (List.mem_filter.mp ((x.perm _).mem_iff.mp hmem)).2
      have hsame := congrArg some (of_decide_eq_true huser).symm
      exact ⟨_, ⟨_, _, _, hdecode, hsync, hfirst⟩, hsame, rfl, hle⟩
  · rintro ⟨hbinds, m, ⟨jwt, user, d, hdecode, hsync, hfirst⟩, rfl, rfl, hle⟩
    have hmem := List.mem_of_mem_head? hfirst
    have huser := of_decide_eq_true (List.mem_filter.mp ((x.perm _).mem_iff.mp hmem)).2
    rw [huser]
    exact ⟨⟨hroute, hbinds⟩, m.orgRole, .member rfl hdecode hsync hfirst, hle⟩

end SignedIn

end EdgeGuardian.Ui
