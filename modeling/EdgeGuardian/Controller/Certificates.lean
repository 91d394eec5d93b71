import EdgeGuardian.Controller.Model
import Mathlib.Data.List.Sort

/-!
# Issuing and revoking certificates

The services of the controller that sign certification requests, revoke certificates and publish
the revocation list of an organization. A certificate row belongs to a device and to the
organization for which it was signed. A revocation is found by the device or by the row, and the
list is rebuilt from all revoked rows of an organization that the caller names.

Source: `controller/src/main/java/com/edgeguardian/controller/service/CertificateService.java`,
`CrlService.java`, `CertificateAuthorityService.java`.

## Main definitions

* `signCsr`, `rebuild`, `markRevoked`, `supersedeActiveCerts`, `saveRequest`, `signAndIssue`.
* `processRequest`, `approve`, `reject`, `revoke`, `revokeAllActiveForDevice`,
  `rejectPendingRequestsForDevice`.

## Main results

* `signAndIssue_run_eq_ok`, `saveRequest_run_eq_ok`: what the two writes of an issuance do.
* `processRequest_run_eq_ok`, `approve_cases`, `revoke_cases`: everything that a committed call does
  to the database.
-/

namespace EdgeGuardian.Controller

/-! ### The certificate authority -/

/-- `san.matches("\\d+\\.\\d+\\.\\d+\\.\\d+")`. -/
def matchesIpv4 (san : String) : Bool :=
  let parts := san.toList.splitOn '.'
  parts.length == 4 && parts.all fun p => !p.isEmpty && p.all Char.isDigit

/-- The `GeneralName` that `buildLeaf` makes of a SAN, `none` where the constructor throws. -/
def generalName (pki : PkiContext) (san : String) : Option GeneralName :=
  if matchesIpv4 san then
    if pki.acceptsIpAddress san then some (.ipAddress san) else none
  else some (.dnsName san)

/-- `signCsr` with `buildLeaf`: the leaf for the subject and the key of the request, `none` where
signing throws. -/
def signCsr (pki : PkiContext) (env : Env) (orgId : OrganizationId) (csrPem : String)
    (sans : List String) : Option X509Certificate := do
  let csr ← pki.parseCsr csrPem
  let names ← sans.mapM (generalName pki)
  return {
    issuer := orgId
    serial := env.serial
    notBefore := env.now
    notAfter := env.now + Duration.ofDays pki.certValidityDays
    subject := csr.subject
    publicKey := csr.publicKey
    sans := names
    crlUrl := pki.crlUrlFor orgId }

/-! ### The revocation list -/

/-- `CrlService.mapReason`, with the codes of `CRLReason`. -/
def mapReason : Option RevokeReason → ℕ
  | none => 0
  | some .compromised => 1
  | some .renewed => 4
  | some .superseded => 4
  | some .deviceDeleted => 5
  | some .adminRevoked => 9
  | some .expired => 0

/-- `findByOrganizationIdOrderByCreatedAtDesc`. -/
def findByOrganizationIdOrderByCreatedAtDesc (db : Db) (orgId : OrganizationId) :
    List IssuedCertificate :=
  (db.certificates.rows.filter fun c => c.organizationId = orgId).insertionSort
    fun a b => b.createdAt ≤ a.createdAt

/-- The entries that `rebuild` signs. -/
def crlEntries (env : Env) (orgId : OrganizationId) (db : Db) : List CrlEntry :=
  ((findByOrganizationIdOrderByCreatedAtDesc db orgId).filter
    IssuedCertificate.revoked).map fun c =>
    { serialNumber := c.serialNumber
      revokedAt := c.revokedAt.getD env.now
      reasonCode := mapReason c.revokeReason }

/-- `CrlService.rebuild`. -/
def rebuild (pki : PkiContext) (env : Env) (orgId : OrganizationId) (db : Db) : Db :=
  { db with
    crls := db.crls.save
      { organizationId := orgId
        crlNumber := ((db.crls.find? orgId).map CertificateRevocationList.crlNumber).getD 0 + 1
        crlDer := crlEntries env orgId db
        thisUpdate := env.now
        nextUpdate := env.now + Duration.ofHours pki.crlValidityHours
        revokedCount := (crlEntries env orgId db).length } }

/-! ### Revocation -/

/-- `findByDeviceIdAndNameAndRevokedFalseAndNotAfterAfter`, for a request with that name. -/
def ActiveForName (env : Env) (deviceId : String) (name : Option String) (c : IssuedCertificate) :
    Prop :=
  c.deviceId = deviceId ∧ some c.name = name ∧ c.revoked = false ∧ env.now < c.notAfter

/-- `findByDeviceIdAndRevokedFalseAndNotAfterAfter`. -/
def ActiveForDevice (env : Env) (deviceId : String) (c : IssuedCertificate) : Prop :=
  c.deviceId = deviceId ∧ c.revoked = false ∧ env.now < c.notAfter

instance (env : Env) (deviceId : String) (name : Option String) :
    DecidablePred (ActiveForName env deviceId name) := fun _ => inferInstanceAs (Decidable (_ ∧ _))

instance (env : Env) (deviceId : String) : DecidablePred (ActiveForDevice env deviceId) := fun _ =>
  inferInstanceAs (Decidable (_ ∧ _))

/-- A row as `markRevoked` leaves it. -/
def IssuedCertificate.markedRevoked (env : Env) (reason : RevokeReason) (c : IssuedCertificate) :
    IssuedCertificate :=
  { c with revoked := true, revokedAt := some env.now, revokeReason := some reason }

/-- `markRevoked` of the rows that a query with the condition `p` returned. -/
def markRevoked (env : Env) (p : IssuedCertificate → Prop) [DecidablePred p] (reason : RevokeReason)
    (db : Db) : Db :=
  { db with certificates := db.certificates.modify p (·.markedRevoked env reason) fun _ => rfl }

/-- The serials of the rows that meet `p`, as `markRevoked` returns them. -/
def serialsOf (p : IssuedCertificate → Prop) [DecidablePred p] (db : Db) : List String :=
  (db.certificates.rows.filter fun c => p c).map fun c => serialText c.serialNumber

/-- `supersedeActiveCerts`. -/
def supersedeActiveCerts (pki : PkiContext) (env : Env) (deviceId : String)
    (orgId : OrganizationId) (name : Option String) (type : CertRequestType) (db : Db) : Db :=
  let serials := serialsOf (ActiveForName env deviceId name) db
  if serials = [] then db
  else
    log env orgId none "cert_superseded" "certificate" (",".intercalate serials)
      [("deviceId", .str deviceId), ("name", .str (name.getD "")), ("type", .str type.name),
        ("count", .num serials.length 0)]
      (rebuild pki env orgId (markRevoked env (ActiveForName env deviceId name) .superseded db))

/-! ### Requests -/

/-- The arguments of `processRequest`; `null` is possible where a client supplies the value. -/
structure CertRequestArgs where
  deviceId : String
  orgId : OrganizationId
  name : Option String
  commonName : Option String
  sans : List String
  csrPem : Option String
  type : CertRequestType
  currentSerial : Option String
deriving DecidableEq, Repr

/-- The texts of a request that the schema requires. -/
structure RequestTexts where
  name : String
  commonName : String
  csrPem : String
deriving DecidableEq, Repr

/-- The serial that is stored with a request: a renewal names one. -/
def CertRequestArgs.storedSerial (q : CertRequestArgs) : Option String :=
  match q.type with
  | .initial | .manifest => none
  | .renewal => q.currentSerial

/-- The columns of `certificate_requests` hold the texts. -/
def CertRequestArgs.Fits (q : CertRequestArgs) (t : RequestTexts) : Prop :=
  FitsVarchar 255 t.name ∧ FitsVarchar 255 t.commonName ∧ FitsText t.csrPem ∧
    (∀ san ∈ q.sans, FitsText san) ∧ ∀ serial ∈ q.storedSerial, FitsVarchar 64 serial

instance (q : CertRequestArgs) : DecidablePred q.Fits := fun _ =>
  inferInstanceAs (Decidable (_ ∧ _ ∧ _ ∧ _ ∧ _))

/-- The required texts, where none of them is `null` and the columns hold them. -/
def CertRequestArgs.texts (q : CertRequestArgs) : Option RequestTexts := do
  let texts : RequestTexts := ⟨← q.name, ← q.commonName, ← q.csrPem⟩
  guard (q.Fits texts)
  return texts

/-- The row that `saveRequest` builds. -/
def newRequest (env : Env) (q : CertRequestArgs) (t : RequestTexts) (currentSerial : Option String)
    (id : ℕ) : CertificateRequest where
  id := id
  deviceId := q.deviceId
  organizationId := q.orgId
  name := t.name
  commonName := t.commonName
  sans := q.sans
  csrPem := t.csrPem
  type := q.type
  currentSerial := currentSerial
  state := .pending
  rejectReason := none
  reviewedBy := none
  reviewedAt := none
  createdAt := env.now

/-- The write of `saveRequest`. -/
def insertRequest (env : Env) (q : CertRequestArgs) (t : RequestTexts)
    (currentSerial : Option String) (db : Db) : Db :=
  { db with requests := db.requests.insert (newRequest env q t currentSerial) fun _ => rfl }

/-- `saveRequest`: the columns of a request hold its texts, and its device is registered. -/
def saveRequest (env : Env) (q : CertRequestArgs) (currentSerial : Option String) :
    Service CertificateRequest := do
  let texts ← Tx.orElseThrow q.texts .dataIntegrity
  let db ← get
  Tx.require ((db.devices.find? q.deviceId).isSome) .dataIntegrity
  modify (insertRequest env q texts currentSerial)
  return newRequest env q texts currentSerial db.requests.next

/-- The row that `signAndIssue` builds. -/
def newCertificate (env : Env) (request : CertificateRequest) (leaf : X509Certificate) (id : ℕ) :
    IssuedCertificate where
  id := id
  requestId := some request.id
  deviceId := request.deviceId
  organizationId := request.organizationId
  name := request.name
  commonName := request.commonName
  serialNumber := leaf.serial
  certPem := leaf
  notBefore := leaf.notBefore
  notAfter := leaf.notAfter
  replacedBy := none
  revoked := false
  revokedAt := none
  revokeReason := none
  createdAt := env.now

/-- The writes of `signAndIssue`: the request is approved, and the certificate inserted. -/
def issue (env : Env) (request : CertificateRequest) (leaf : X509Certificate) (db : Db) : Db :=
  { db with
    requests := db.requests.modify (fun r => r.id = request.id) (fun r =>
      { r with state := .approved, reviewedAt := r.reviewedAt.or (some env.now) }) fun _ => rfl
    certificates := db.certificates.insert (newCertificate env request leaf) fun _ => rfl }

/-- No row of `certificates` has the serial number. -/
def SerialUnused (db : Db) (serial : ℕ) : Prop :=
  ∀ c ∈ db.certificates.rows, c.serialNumber ≠ serial

instance (db : Db) (serial : ℕ) : Decidable (SerialUnused db serial) :=
  inferInstanceAs (Decidable (∀ _ ∈ _, _))

/-- `signCsr` for the row of a request. -/
def CertificateRequest.sign (pki : PkiContext) (env : Env) (request : CertificateRequest) :
    Option X509Certificate :=
  signCsr pki env request.organizationId request.csrPem request.sans

/-- `signAndIssue`: every exception is wrapped, also that of a serial number in use. -/
def signAndIssue (pki : PkiContext) (env : Env) (request : CertificateRequest) :
    Service IssuedCertificate := do
  let failed := ServiceError.illegalState ("Failed to sign CSR for device " ++ request.deviceId)
  let leaf ← Tx.orElseThrow (request.sign pki env) failed
  let db ← get
  Tx.require (SerialUnused db leaf.serial) failed
  modify (issue env request leaf)
  return newCertificate env request leaf db.certificates.next

/-- `CertRequestResult`; the flag `blocked` is `false` throughout. -/
structure CertRequestResult where
  request : CertificateRequest
  certificate : Option IssuedCertificate
deriving DecidableEq, Repr

/-- The column `resource_id` holds the serials that the audit entry of `supersedeActiveCerts`
names. -/
def SupersedeLogged (env : Env) (q : CertRequestArgs) (db : Db) : Prop :=
  FitsVarchar 255 (",".intercalate (serialsOf (ActiveForName env q.deviceId q.name) db))

instance (env : Env) (q : CertRequestArgs) : DecidablePred (SupersedeLogged env q) := fun _ =>
  inferInstanceAs (Decidable (FitsVarchar _ _))

/-- `processNonRenewal`. -/
def processNonRenewal (pki : PkiContext) (env : Env) (q : CertRequestArgs) (autoApprove : Bool) :
    Service CertRequestResult := do
  Tx.require (SupersedeLogged env q (← get)) .dataIntegrity
  modify (supersedeActiveCerts pki env q.deviceId q.orgId q.name q.type)
  let request ← saveRequest env q none
  if autoApprove then
    let cert ← signAndIssue pki env request
    return ⟨request, some cert⟩
  else
    return ⟨request, none⟩

/-- `findBySerialNumber`. -/
def findBySerialNumber (db : Db) (serial : String) : Option IssuedCertificate :=
  db.certificates.rows.find? fun c => serialText c.serialNumber = serial

/-- `ownedBy`. -/
def ownedBy (deviceId : String) (name : Option String) (cert : IssuedCertificate) : Prop :=
  cert.revoked = false ∧ cert.deviceId = deviceId ∧ some cert.name = name

instance (deviceId : String) (name : Option String) : DecidablePred (ownedBy deviceId name) :=
  fun _ => inferInstanceAs (Decidable (_ ∧ _))

/-- The certificate with the serial of a renewal request, where the request owns it. -/
def currentCert (db : Db) (q : CertRequestArgs) : Option IssuedCertificate :=
  (q.currentSerial.bind (findBySerialNumber db)).filter fun c => ownedBy q.deviceId q.name c

/-- The write of a renewal whose certificate is not owned by the device. -/
def rejectRequest (requestId : ℕ) (db : Db) : Db :=
  { db with
    requests := db.requests.modify (fun r => r.id = requestId) (fun r =>
      { r with
        state := .rejected
        rejectReason := some "Cannot verify current certificate ownership" }) fun _ => rfl }

/-- The writes of a renewal after signing: the old certificate is revoked and points to the new
one, and the revocation list of `orgId` is rebuilt. -/
def replaceCert (pki : PkiContext) (env : Env) (orgId : OrganizationId) (currentId newId : ℕ)
    (db : Db) : Db :=
  let db := markRevoked env (fun c => c.id = currentId) .renewed db
  rebuild pki env orgId { db with
    certificates := db.certificates.modify (fun c => c.id = currentId) (fun c =>
      { c with replacedBy := some newId }) fun _ => rfl }

/-- `processRenewal`. -/
def processRenewal (pki : PkiContext) (env : Env) (q : CertRequestArgs) :
    Service CertRequestResult := do
  Tx.require (hasText q.currentSerial) (.status 400 "Renewal request must include currentSerial")
  let db ← get
  let request ← saveRequest env q q.currentSerial
  match currentCert db q with
  | none =>
    modify (rejectRequest request.id)
    return ⟨request, none⟩
  | some current =>
    let newCert ← signAndIssue pki env request
    modify (replaceCert pki env q.orgId current.id newCert.id)
    return ⟨request, some newCert⟩

/-- `processRequest`. -/
def processRequest (pki : PkiContext) (env : Env) (q : CertRequestArgs) :
    Service CertRequestResult :=
  match q.type with
  | .initial => processNonRenewal pki env q false
  | .manifest => processNonRenewal pki env q true
  | .renewal => processRenewal pki env q

/-! ### Review and revocation by users -/

/-- `loadPending`. -/
def loadPending (requestId : ℕ) (expectedOrgId : OrganizationId) : Service CertificateRequest := do
  let db ← get
  let request ← Tx.orElseThrow
    ((db.requests.find? requestId).filter fun r => r.organizationId = expectedOrgId)
    (.status 404 "Request not found")
  Tx.require (request.state = .pending)
    (.status 409 ("Request is not pending: " ++ request.state.name))
  return request

/-- The first write of `approve`. -/
def reviewRequest (env : Env) (requestId : ℕ) (reviewerUserId : Option UserId) (db : Db) : Db :=
  { db with
    requests := db.requests.modify (fun r => r.id = requestId) (fun r =>
      { r with reviewedBy := reviewerUserId, reviewedAt := some env.now }) fun _ => rfl }

/-- `approve`. -/
def approve (pki : PkiContext) (env : Env) (requestId : ℕ) (expectedOrgId : OrganizationId)
    (reviewerUserId : Option UserId) : Service IssuedCertificate := do
  let request ← loadPending requestId expectedOrgId
  modify (reviewRequest env requestId reviewerUserId)
  let cert ← signAndIssue pki env request
  modify (log env request.organizationId reviewerUserId "cert_approved" "certificate_request"
    (toString requestId)
    [("deviceId", .str request.deviceId), ("name", .str request.name),
      ("serial", .str (serialText cert.serialNumber))])
  return cert

/-- The write of `reject`. -/
def refuseRequest (env : Env) (requestId : ℕ) (reviewerUserId : Option UserId)
    (reason : Option String) (db : Db) : Db :=
  { db with
    requests := db.requests.modify (fun r => r.id = requestId) (fun r =>
      { r with
        state := .rejected
        rejectReason := reason
        reviewedBy := reviewerUserId
        reviewedAt := some env.now }) fun _ => rfl }

/-- `reject`. -/
def reject (env : Env) (requestId : ℕ) (expectedOrgId : OrganizationId)
    (reviewerUserId : Option UserId) (reason : Option String) : Service Unit := do
  let request ← loadPending requestId expectedOrgId
  Tx.require (∀ text ∈ reason, FitsVarchar 512 text) .dataIntegrity
  modify (refuseRequest env requestId reviewerUserId reason)
  modify (log env request.organizationId reviewerUserId "cert_rejected" "certificate_request"
    (toString requestId)
    [("deviceId", .str request.deviceId), ("reason", .str (reason.getD ""))])

/-- `revoke`. -/
def revoke (pki : PkiContext) (env : Env) (certificateId : ℕ) (expectedOrgId : OrganizationId)
    (userId : Option UserId) : Service Unit := do
  let db ← get
  let cert ← Tx.orElseThrow
    ((db.certificates.find? certificateId).filter fun c => c.organizationId = expectedOrgId)
    (.status 404 "Certificate not found")
  Tx.require (cert.revoked = false) (.status 409 "Certificate already revoked")
  modify (markRevoked env (fun c => c.id = certificateId) .adminRevoked)
  modify (rebuild pki env cert.organizationId)
  modify (log env cert.organizationId userId "cert_revoked" "certificate" (toString certificateId)
    [("deviceId", .str cert.deviceId), ("serial", .str (serialText cert.serialNumber))])

/-- `revokeAllActiveForDevice`: the number of certificates, and the database after. -/
def revokeAllActiveForDevice (pki : PkiContext) (env : Env) (deviceId : String)
    (orgId : OrganizationId) (reason : RevokeReason) (actorUserId : Option UserId) (db : Db) :
    ℕ × Db :=
  let serials := serialsOf (ActiveForDevice env deviceId) db
  if serials = [] then (0, db)
  else
    (serials.length,
      log env orgId actorUserId "certs_revoked_for_device" "device" deviceId
        [("count", .num serials.length 0), ("reason", .str reason.name),
          ("serials", .arr (serials.map Json.str))]
        (rebuild pki env orgId (markRevoked env (ActiveForDevice env deviceId) reason db)))

/-- `rejectPendingRequestsForDevice`: the number of requests, and the database after. -/
def rejectPendingRequestsForDevice (env : Env) (deviceId : String) (orgId : OrganizationId)
    (reason : Option String) (actorUserId : Option UserId) (db : Db) : ℕ × Db :=
  let count := (db.requests.rows.filter fun r => r.deviceId = deviceId ∧ r.state = .pending).length
  if count = 0 then (0, db)
  else
    (count,
      log env orgId actorUserId "cert_requests_rejected_for_device" "device" deviceId
        [("count", .num count 0), ("reason", .str (reason.getD ""))]
        { db with
          requests := db.requests.modify (fun r => r.deviceId = deviceId ∧ r.state = .pending)
            (fun r =>
              { r with
                state := .rejected
                rejectReason := reason
                reviewedBy := actorUserId
                reviewedAt := some env.now }) fun _ => rfl })

/-! ### What committed calls do -/

section Specs

variable {pki : PkiContext} {env : Env} {q : CertRequestArgs} {db db' : Db}

theorem saveRequest_run_eq_ok {currentSerial : Option String} {request : CertificateRequest} :
    (saveRequest env q currentSerial).run db = .ok (request, db') ↔
      ∃ t, q.texts = some t ∧ (db.devices.find? q.deviceId).isSome ∧
        request = newRequest env q t currentSerial db.requests.next ∧
        db' = insertRequest env q t currentSerial db := by
  simp only [saveRequest, Tx.run_orElseThrow_bind_eq_ok, Tx.run_get_bind_eq_ok,
    Tx.run_require_bind_eq_ok, Tx.run_modify_bind_eq_ok, Tx.run_pure_eq_ok, Prod.mk.injEq]
  constructor
  · rintro ⟨t, ht, hdevice, hrequest, hdb⟩
    exact ⟨t, ht, hdevice, hrequest.symm, hdb.symm⟩
  · rintro ⟨t, ht, hdevice, hrequest, hdb⟩
    exact ⟨t, ht, hdevice, hrequest.symm, hdb.symm⟩

theorem signAndIssue_run_eq_ok {request : CertificateRequest} {cert : IssuedCertificate} :
    (signAndIssue pki env request).run db = .ok (cert, db') ↔
      ∃ leaf, request.sign pki env = some leaf ∧ SerialUnused db leaf.serial ∧
        cert = newCertificate env request leaf db.certificates.next ∧
        db' = issue env request leaf db := by
  simp only [signAndIssue, Tx.run_orElseThrow_bind_eq_ok, Tx.run_get_bind_eq_ok,
    Tx.run_require_bind_eq_ok, Tx.run_modify_bind_eq_ok, Tx.run_pure_eq_ok, Prod.mk.injEq]
  constructor
  · rintro ⟨leaf, hleaf, hserial, hcert, hdb⟩
    exact ⟨leaf, hleaf, hserial, hcert.symm, hdb.symm⟩
  · rintro ⟨leaf, hleaf, hserial, hcert, hdb⟩
    exact ⟨leaf, hleaf, hserial, hcert.symm, hdb.symm⟩

theorem csrPem_of_texts {t : RequestTexts} (ht : q.texts = some t) :
    q.name = some t.name ∧ q.csrPem = some t.csrPem := by
  simp only [CertRequestArgs.texts, Option.bind_eq_bind, Option.pure_def] at ht
  obtain ⟨name, hname, ht⟩ := Option.bind_eq_some_iff.mp ht
  obtain ⟨commonName, -, ht⟩ := Option.bind_eq_some_iff.mp ht
  obtain ⟨csrPem, hcsrPem, ht⟩ := Option.bind_eq_some_iff.mp ht
  obtain ⟨-, -, ht⟩ := Option.bind_eq_some_iff.mp ht
  cases ht
  exact ⟨hname, hcsrPem⟩

theorem serial_of_signCsr {orgId : OrganizationId} {csrPem : String} {sans : List String}
    {leaf : X509Certificate} (h : signCsr pki env orgId csrPem sans = some leaf) :
    leaf.serial = env.serial := by
  simp only [signCsr] at h
  obtain ⟨csr, -, h⟩ := Option.bind_eq_some_iff.mp h
  obtain ⟨names, -, h⟩ := Option.bind_eq_some_iff.mp h
  cases h
  rfl

theorem mem_certificates_issue {request : CertificateRequest} {leaf : X509Certificate}
    {c : IssuedCertificate} : c ∈ (issue env request leaf db).certificates.rows ↔
      c ∈ db.certificates.rows ∨ c = newCertificate env request leaf db.certificates.next :=
  SerialTable.mem_insert fun _ => rfl

theorem mem_of_currentCert {q : CertRequestArgs} {current : IssuedCertificate}
    (h : currentCert db q = some current) : current ∈ db.certificates.rows := by
  obtain ⟨hfind, -⟩ := Option.filter_eq_some_iff.mp h
  obtain ⟨serial, -, hfind⟩ := Option.bind_eq_some_iff.mp hfind
  exact List.mem_of_find?_eq_some hfind

theorem eq_of_id_eq {b c : IssuedCertificate} (hb : b ∈ db.certificates.rows)
    (hc : c ∈ db.certificates.rows) (h : b.id = c.id) : b = c :=
  List.inj_on_of_nodup_map db.certificates.nodup hb hc h

theorem deviceId_of_currentCert {q : CertRequestArgs} {current : IssuedCertificate}
    (h : currentCert db q = some current) : current.deviceId = q.deviceId := by
  obtain ⟨-, howned⟩ := Option.filter_eq_some_iff.mp h
  exact (of_decide_eq_true howned).2.1

/-- The database after the first write of a request that is no renewal. -/
def superseded (pki : PkiContext) (env : Env) (q : CertRequestArgs) (db : Db) : Db :=
  supersedeActiveCerts pki env q.deviceId q.orgId q.name q.type db

/-- Everything that a committed `processRequest` does: it saves a request that stays pending,
issues at once, rejects a renewal, or renews. -/
inductive Processed (pki : PkiContext) (env : Env) (q : CertRequestArgs) (db : Db) :
    CertRequestResult → Db → Prop
  | pending {t : RequestTexts} (htype : q.type = .initial) (ht : q.texts = some t)
      (hdevice : (db.devices.find? q.deviceId).isSome) (hlogged : SupersedeLogged env q db) :
      Processed pki env q db
        ⟨newRequest env q t none db.requests.next, none⟩
        (insertRequest env q t none (superseded pki env q db))
  | issued {t : RequestTexts} {leaf : X509Certificate} (htype : q.type = .manifest)
      (ht : q.texts = some t) (hdevice : (db.devices.find? q.deviceId).isSome)
      (hleaf : signCsr pki env q.orgId t.csrPem q.sans = some leaf)
      (hserial : SerialUnused (superseded pki env q db) leaf.serial)
      (hlogged : SupersedeLogged env q db) :
      Processed pki env q db
        ⟨newRequest env q t none db.requests.next,
          newCertificate env (newRequest env q t none db.requests.next) leaf db.certificates.next⟩
        (issue env (newRequest env q t none db.requests.next) leaf
          (insertRequest env q t none (superseded pki env q db)))
  | rejected {t : RequestTexts} (htype : q.type = .renewal) (hcurrent : hasText q.currentSerial)
      (ht : q.texts = some t) (hdevice : (db.devices.find? q.deviceId).isSome)
      (howned : currentCert db q = none) :
      Processed pki env q db
        ⟨newRequest env q t q.currentSerial db.requests.next, none⟩
        (rejectRequest db.requests.next (insertRequest env q t q.currentSerial db))
  | renewed {t : RequestTexts} {leaf : X509Certificate} {current : IssuedCertificate}
      (htype : q.type = .renewal) (hcurrent : hasText q.currentSerial)
      (ht : q.texts = some t) (hdevice : (db.devices.find? q.deviceId).isSome)
      (howned : currentCert db q = some current)
      (hleaf : signCsr pki env q.orgId t.csrPem q.sans = some leaf)
      (hserial : SerialUnused db leaf.serial) :
      Processed pki env q db
        ⟨newRequest env q t q.currentSerial db.requests.next,
          newCertificate env (newRequest env q t q.currentSerial db.requests.next) leaf
            db.certificates.next⟩
        (replaceCert pki env q.orgId current.id db.certificates.next
          (issue env (newRequest env q t q.currentSerial db.requests.next) leaf
            (insertRequest env q t q.currentSerial db)))

@[simp] theorem devices_supersedeActiveCerts (deviceId : String) (orgId : OrganizationId)
    (name : Option String) (type : CertRequestType) :
    (supersedeActiveCerts pki env deviceId orgId name type db).devices = db.devices := by
  simp only [supersedeActiveCerts]
  split_ifs <;> rfl

@[simp] theorem requests_supersedeActiveCerts (deviceId : String) (orgId : OrganizationId)
    (name : Option String) (type : CertRequestType) :
    (supersedeActiveCerts pki env deviceId orgId name type db).requests = db.requests := by
  simp only [supersedeActiveCerts]
  split_ifs <;> rfl

@[simp] theorem next_certificates_supersedeActiveCerts (deviceId : String) (orgId : OrganizationId)
    (name : Option String) (type : CertRequestType) :
    (supersedeActiveCerts pki env deviceId orgId name type db).certificates.next =
      db.certificates.next := by
  simp only [supersedeActiveCerts]
  split_ifs <;> rfl

theorem processNonRenewal_run_eq_ok {autoApprove : Bool} {r : CertRequestResult} :
    (processNonRenewal pki env q autoApprove).run db = .ok (r, db') ↔
      SupersedeLogged env q db ∧ ∃ t, q.texts = some t ∧ (db.devices.find? q.deviceId).isSome ∧
        if autoApprove then
          ∃ leaf, signCsr pki env q.orgId t.csrPem q.sans = some leaf ∧
            SerialUnused (superseded pki env q db) leaf.serial ∧
            r = ⟨newRequest env q t none db.requests.next, newCertificate env
              (newRequest env q t none db.requests.next) leaf db.certificates.next⟩ ∧
            db' = issue env (newRequest env q t none db.requests.next) leaf
              (insertRequest env q t none (superseded pki env q db))
        else
          r = ⟨newRequest env q t none db.requests.next, none⟩ ∧
            db' = insertRequest env q t none (superseded pki env q db) := by
  rw [processNonRenewal, Tx.run_get_bind_eq_ok, Tx.run_require_bind_eq_ok,
    Tx.run_modify_bind_eq_ok, Tx.run_bind_eq_ok]
  simp only [saveRequest_run_eq_ok]
  refine and_congr_right fun _ => ⟨?_, ?_⟩
  · rintro ⟨_, _, ⟨t, ht, hdevice, rfl, rfl⟩, h⟩
    rw [devices_supersedeActiveCerts] at hdevice
    rw [requests_supersedeActiveCerts] at h
    refine ⟨t, ht, hdevice, ?_⟩
    cases autoApprove with
    | true =>
      simp only [if_true, Tx.run_bind_eq_ok, signAndIssue_run_eq_ok] at h ⊢
      obtain ⟨_, _, ⟨leaf, hleaf, hserial, rfl, rfl⟩, h⟩ := h
      obtain ⟨rfl, rfl⟩ := Prod.mk.inj (Tx.run_pure_eq_ok.mp h)
      exact ⟨leaf, hleaf, hserial, by simp [insertRequest], rfl⟩
    | false =>
      obtain ⟨rfl, rfl⟩ := Prod.mk.inj (Tx.run_pure_eq_ok.mp h)
      exact ⟨rfl, rfl⟩
  · rintro ⟨t, ht, hdevice, h⟩
    refine ⟨_, _, ⟨t, ht, ?_, rfl, rfl⟩, ?_⟩
    · rwa [devices_supersedeActiveCerts]
    · rw [requests_supersedeActiveCerts]
      cases autoApprove with
      | true =>
        obtain ⟨leaf, hleaf, hserial, rfl, rfl⟩ := h
        simp only [if_true, Tx.run_bind_eq_ok, signAndIssue_run_eq_ok]
        refine ⟨_, _, ⟨leaf, hleaf, hserial, rfl, rfl⟩, ?_⟩
        rw [Tx.run_pure_eq_ok]
        simp [insertRequest, superseded]
      | false =>
        obtain ⟨rfl, rfl⟩ := h
        exact Tx.run_pure_eq_ok.mpr rfl

theorem processRenewal_run_eq_ok {r : CertRequestResult} :
    (processRenewal pki env q).run db = .ok (r, db') ↔
      hasText q.currentSerial ∧ ∃ t, q.texts = some t ∧ (db.devices.find? q.deviceId).isSome ∧
        match currentCert db q with
        | none =>
          r = ⟨newRequest env q t q.currentSerial db.requests.next, none⟩ ∧
            db' = rejectRequest db.requests.next (insertRequest env q t q.currentSerial db)
        | some current =>
          ∃ leaf, signCsr pki env q.orgId t.csrPem q.sans = some leaf ∧
            SerialUnused db leaf.serial ∧
            r = ⟨newRequest env q t q.currentSerial db.requests.next, newCertificate env
              (newRequest env q t q.currentSerial db.requests.next) leaf db.certificates.next⟩ ∧
            db' = replaceCert pki env q.orgId current.id db.certificates.next
              (issue env (newRequest env q t q.currentSerial db.requests.next) leaf
                (insertRequest env q t q.currentSerial db)) := by
  rw [processRenewal, Tx.run_require_bind_eq_ok, Tx.run_get_bind_eq_ok, Tx.run_bind_eq_ok]
  simp only [saveRequest_run_eq_ok]
  refine and_congr_right fun _ => ⟨?_, ?_⟩
  · rintro ⟨_, _, ⟨t, ht, hdevice, rfl, rfl⟩, h⟩
    refine ⟨t, ht, hdevice, ?_⟩
    rcases howned : currentCert db q with _ | current <;> rw [howned] at h
    · simp only [Tx.run_modify_bind_eq_ok, Tx.run_pure_eq_ok, Prod.mk.injEq] at h
      exact ⟨h.1.symm, h.2.symm⟩
    · simp only [Tx.run_bind_eq_ok, signAndIssue_run_eq_ok] at h
      obtain ⟨_, _, ⟨leaf, hleaf, hserial, rfl, rfl⟩, _, _, hmod, h⟩ := h
      obtain ⟨-, rfl⟩ := Prod.mk.inj (Tx.run_modify_eq_ok.mp hmod)
      obtain ⟨rfl, rfl⟩ := Prod.mk.inj (Tx.run_pure_eq_ok.mp h)
      exact ⟨leaf, hleaf, hserial, rfl, rfl⟩
  · rintro ⟨t, ht, hdevice, h⟩
    refine ⟨_, _, ⟨t, ht, hdevice, rfl, rfl⟩, ?_⟩
    rcases howned : currentCert db q with _ | current <;> rw [howned] at h
    · obtain ⟨rfl, rfl⟩ := h
      exact Tx.run_modify_bind_eq_ok.mpr (Tx.run_pure_eq_ok.mpr rfl)
    · obtain ⟨leaf, hleaf, hserial, rfl, rfl⟩ := h
      simp only [Tx.run_bind_eq_ok, signAndIssue_run_eq_ok]
      exact ⟨_, _, ⟨leaf, hleaf, hserial, rfl, rfl⟩, _, _, Tx.run_modify_eq_ok.mpr rfl,
        Tx.run_pure_eq_ok.mpr rfl⟩

/-- **What `processRequest` does.** It commits with a result and a database exactly in the cases of
`Processed`. -/
theorem processRequest_run_eq_ok {r : CertRequestResult} :
    (processRequest pki env q).run db = .ok (r, db') ↔ Processed pki env q db r db' := by
  rw [processRequest]
  constructor
  · intro h
    rcases htype : q.type with _ | _ | _ <;> rw [htype] at h
    · obtain ⟨hlogged, t, ht, hdevice, rfl, rfl⟩ := processNonRenewal_run_eq_ok.mp h
      exact .pending htype ht hdevice hlogged
    · obtain ⟨hcurrent, t, ht, hdevice, h⟩ := processRenewal_run_eq_ok.mp h
      rcases howned : currentCert db q with _ | current <;> rw [howned] at h
      · obtain ⟨rfl, rfl⟩ := h
        exact .rejected htype hcurrent ht hdevice howned
      · obtain ⟨leaf, hleaf, hserial, rfl, rfl⟩ := h
        exact .renewed htype hcurrent ht hdevice howned hleaf hserial
    · obtain ⟨hlogged, t, ht, hdevice, leaf, hleaf, hserial, rfl, rfl⟩ :=
        processNonRenewal_run_eq_ok.mp h
      exact .issued htype ht hdevice hleaf hserial hlogged
  · intro h
    cases h with
    | pending htype ht hdevice hlogged =>
      rw [htype]
      exact processNonRenewal_run_eq_ok.mpr ⟨hlogged, _, ht, hdevice, rfl, rfl⟩
    | issued htype ht hdevice hleaf hserial hlogged =>
      rw [htype]
      exact processNonRenewal_run_eq_ok.mpr ⟨hlogged, _, ht, hdevice, _, hleaf, hserial, rfl, rfl⟩
    | rejected htype hcurrent ht hdevice howned =>
      rw [htype]
      refine processRenewal_run_eq_ok.mpr ⟨hcurrent, _, ht, hdevice, ?_⟩
      rw [howned]
      exact ⟨rfl, rfl⟩
    | renewed htype hcurrent ht hdevice howned hleaf hserial =>
      rw [htype]
      refine processRenewal_run_eq_ok.mpr ⟨hcurrent, _, ht, hdevice, ?_⟩
      rw [howned]
      exact ⟨_, hleaf, hserial, rfl, rfl⟩

theorem loadPending_run_eq_ok {requestId : ℕ} {expectedOrgId : OrganizationId}
    {request : CertificateRequest} :
    (loadPending requestId expectedOrgId).run db = .ok (request, db') ↔
      db.requests.find? requestId = some request ∧ request.organizationId = expectedOrgId ∧
        request.state = .pending ∧ db' = db := by
  simp only [loadPending, Tx.run_get_bind_eq_ok, Tx.run_orElseThrow_bind_eq_ok,
    Tx.run_require_bind_eq_ok, Tx.run_pure_eq_ok, Prod.mk.injEq, Option.filter_eq_some_iff,
    decide_eq_true_eq]
  constructor
  · rintro ⟨_, ⟨hfind, horg⟩, hstate, rfl, rfl⟩
    exact ⟨hfind, horg, hstate, rfl⟩
  · rintro ⟨hfind, horg, hstate, rfl⟩
    exact ⟨request, ⟨hfind, horg⟩, hstate, rfl, rfl⟩

/-- What a committed `approve` does. -/
theorem approve_cases {requestId : ℕ} {expectedOrgId : OrganizationId}
    {reviewerUserId : Option UserId} {cert : IssuedCertificate}
    (h : (approve pki env requestId expectedOrgId reviewerUserId).run db = .ok (cert, db')) :
    ∃ request leaf details, db.requests.find? requestId = some request ∧
      request.organizationId = expectedOrgId ∧ request.state = .pending ∧
      request.sign pki env = some leaf ∧ SerialUnused db leaf.serial ∧
      cert = newCertificate env request leaf db.certificates.next ∧
      db' = log env request.organizationId reviewerUserId "cert_approved" "certificate_request"
        (toString requestId) details
        (issue env request leaf (reviewRequest env requestId reviewerUserId db)) := by
  rw [approve, Tx.run_bind_eq_ok] at h
  obtain ⟨request, _, hload, h⟩ := h
  obtain ⟨hfind, horg, hstate, rfl⟩ := loadPending_run_eq_ok.mp hload
  rw [Tx.run_modify_bind_eq_ok, Tx.run_bind_eq_ok] at h
  obtain ⟨_, _, hissue, h⟩ := h
  obtain ⟨leaf, hleaf, hserial, rfl, rfl⟩ := signAndIssue_run_eq_ok.mp hissue
  rw [Tx.run_modify_bind_eq_ok, Tx.run_pure_eq_ok, Prod.mk.injEq] at h
  obtain ⟨rfl, rfl⟩ := h
  exact ⟨request, leaf, _, hfind, horg, hstate, hleaf, hserial, rfl, rfl⟩

/-- What a committed `reject` does. -/
theorem reject_cases {requestId : ℕ} {expectedOrgId : OrganizationId}
    {reviewerUserId : Option UserId} {reason : Option String}
    (h : (reject env requestId expectedOrgId reviewerUserId reason).run db = .ok ((), db')) :
    ∃ request details, db.requests.find? requestId = some request ∧
      request.organizationId = expectedOrgId ∧ request.state = .pending ∧
      db' = log env request.organizationId reviewerUserId "cert_rejected" "certificate_request"
        (toString requestId) details (refuseRequest env requestId reviewerUserId reason db) := by
  rw [reject, Tx.run_bind_eq_ok] at h
  obtain ⟨request, _, hload, h⟩ := h
  obtain ⟨hfind, horg, hstate, rfl⟩ := loadPending_run_eq_ok.mp hload
  rw [Tx.run_require_bind_eq_ok, Tx.run_modify_bind_eq_ok, Tx.run_modify_eq_ok,
    Prod.mk.injEq] at h
  obtain ⟨-, -, rfl⟩ := h
  exact ⟨request, _, hfind, horg, hstate, rfl⟩

/-- What a committed `revoke` does. -/
theorem revoke_cases {certificateId : ℕ} {expectedOrgId : OrganizationId} {userId : Option UserId}
    (h : (revoke pki env certificateId expectedOrgId userId).run db = .ok ((), db')) :
    ∃ cert details, db.certificates.find? certificateId = some cert ∧
      cert.organizationId = expectedOrgId ∧ cert.revoked = false ∧
      db' = log env cert.organizationId userId "cert_revoked" "certificate"
        (toString certificateId) details
        (rebuild pki env cert.organizationId
          (markRevoked env (fun c => c.id = certificateId) .adminRevoked db)) := by
  simp only [revoke, Tx.run_get_bind_eq_ok, Tx.run_orElseThrow_bind_eq_ok,
    Tx.run_require_bind_eq_ok, Tx.run_modify_bind_eq_ok, Tx.run_modify_eq_ok, Prod.mk.injEq,
    Option.filter_eq_some_iff, decide_eq_true_eq] at h
  obtain ⟨cert, ⟨hfind, horg⟩, hrevoked, -, rfl⟩ := h
  exact ⟨cert, _, hfind, horg, hrevoked, rfl⟩

end Specs

end EdgeGuardian.Controller
