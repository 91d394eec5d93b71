import EdgeGuardian.Controller.Devices

/-!
# The MQTT listeners of the controller

A device publishes on topics `{root}/device/{deviceId}/...`; a listener reads the JSON body,
calls the services and publishes answers. The bodies carry a `deviceId` of their own. A body that
does not parse is `none`. Every listener catches what its services throw; since each service call
is a transaction, a call that throws changes nothing, and the calls before it stay committed.

Source: `controller/src/main/java/com/edgeguardian/controller/mqtt/EnrollmentListener.java`,
`CertRequestListener.java`, `HeartbeatListener.java`, `TelemetryListener.java`,
`CommandResultListener.java`, `MqttTopics.java` and the records of `payload`.

## Main definitions

* `extractDeviceId`, `Outgoing`: topics and the messages that listeners publish.
* `onEnrollRequest`, `onCertRequest`, `onHeartbeat`, `onTelemetryMessage`, `onCommandResult`.

## Main results

* `onEnrollRequest_cases`, `onCertRequest_fst`: everything that the two listeners do to the
  database.
-/

namespace EdgeGuardian.Controller

/-- A topic, as the levels between its slashes. -/
abbrev Topic := List String

/-- `MqttTopics.extractDeviceId`. -/
def extractDeviceId (topic : Topic) : Option String := topic[2]?

/-! ### Bodies -/

/-- `EnrollRequestPayload`. -/
structure EnrollRequestPayload where
  enrollmentToken : Option String
  deviceId : Option String
  facts : DeviceFacts
  csrPem : Option String
  commonName : Option String
  sans : Option (List String)
deriving DecidableEq, Repr

/-- `CertRequestPayload`. -/
structure CertRequestPayload where
  deviceId : Option String
  name : Option String
  commonName : Option String
  sans : Option (List String)
  csrPem : Option String
  type : Option String
  currentSerial : Option String
deriving DecidableEq, Repr

/-- `DeviceStatusPayload`. -/
structure DeviceStatusPayload where
  cpuUsagePercent : UInt64
  memoryUsedBytes : ℤ
  memoryTotalBytes : ℤ
  diskUsedBytes : ℤ
  diskTotalBytes : ℤ
  uptimeSeconds : ℤ
  lastReconcile : Option String
  reconcileStatus : Option String
deriving DecidableEq, Repr

/-- `DeviceStatusPayload.toEntity`. -/
def DeviceStatusPayload.toEntity (ctx : Context) (p : DeviceStatusPayload) : DeviceStatus where
  cpuUsagePercent := p.cpuUsagePercent
  memoryUsedBytes := p.memoryUsedBytes
  memoryTotalBytes := p.memoryTotalBytes
  diskUsedBytes := p.diskUsedBytes
  diskTotalBytes := p.diskTotalBytes
  uptimeSeconds := p.uptimeSeconds
  lastReconcile := p.lastReconcile.bind ctx.parseInstant
  reconcileStatus := p.reconcileStatus.getD "unknown"

/-- `HeartbeatPayload`. -/
structure HeartbeatPayload where
  deviceId : Option String
  status : Option DeviceStatusPayload
  manifestVersion : ℤ
  autoUpdate : Option Bool
deriving DecidableEq, Repr

/-- `TelemetryPayload`. -/
structure TelemetryPayload where
  deviceId : Option String
  status : Option DeviceStatusPayload
deriving DecidableEq, Repr

/-- `CommandResultPayload`. -/
structure CommandResultPayload where
  commandId : Option String
  deviceId : Option String
  phase : Option String
  status : Option String
  exitCode : ℤ
  stdout : Option String
  stderr : Option String
  errorMessage : Option String
  durationMs : ℤ
deriving DecidableEq, Repr

/-- `AgentRegisterResponse`. -/
structure AgentRegisterResponse where
  accepted : Bool
  message : String
  initialManifest : Option DeviceManifestEntity
  deviceToken : Option String
  caCertPem : Option String
  identityCertPem : Option X509Certificate
  identityCertSerial : Option String
deriving Repr

/-- `AgentRegisterResponse.error`. -/
def AgentRegisterResponse.error (message : String) : AgentRegisterResponse where
  accepted := false
  message := message
  initialManifest := none
  deviceToken := none
  caCertPem := none
  identityCertPem := none
  identityCertSerial := none

/-- `CertResponsePayload`. -/
structure CertResponsePayload where
  name : Option String
  accepted : Bool
  message : String
  certPem : Option X509Certificate
  caCertPem : Option String
deriving DecidableEq, Repr

/-- A message that a listener publishes, with the device of its topic. -/
inductive Outgoing
  /-- On `enroll/response`. -/
  | enrollResponse (deviceId : String) (body : AgentRegisterResponse)
  /-- On `cert/response`. -/
  | certResponse (deviceId : String) (body : CertResponsePayload)
  /-- On `state/desired`. -/
  | desiredState (deviceId : String) (manifest : DeviceManifestEntity)
deriving Repr

/-! ### Enrolment -/

/-- The device that an enrolment request is for. -/
def EnrollRequestPayload.resolvedId (request : EnrollRequestPayload) (topic : Topic) :
    Option String :=
  request.deviceId.or (extractDeviceId topic)

/-- `EnrollmentListener.validate`: the device id and the token of a request that passes. -/
def validateEnroll (resolvedId : Option String) (request : EnrollRequestPayload) :
    Except ServiceError (String × String) :=
  match resolvedId.filter fun d => !isBlank d with
  | none => .error (.illegalArgument "deviceId is required")
  | some deviceId =>
    match request.enrollmentToken.filter fun t => !isBlank t with
    | none => .error (.illegalArgument "enrollmentToken is required")
    | some token => .ok (deviceId, token)

/-- The certificate request that `issueIdentityCertIfRequested` makes of a CSR. -/
def identityRequest (device : Device) (request : EnrollRequestPayload) (csrPem : String) :
    CertRequestArgs where
  deviceId := device.deviceId
  orgId := device.organizationId
  name := some "device-identity"
  commonName := some ((request.commonName.filter fun cn => !isBlank cn).getD device.deviceId)
  sans := request.sans.getD []
  csrPem := some csrPem
  type := .manifest
  currentSerial := none

/-- `issueIdentityCertIfRequested`. -/
def issueIdentityCertIfRequested (pki : PkiContext) (env : Env) (device : Device)
    (request : EnrollRequestPayload) : Service (Option IssuedCertificate) :=
  match request.csrPem.filter fun pem => !isBlank pem with
  | none => pure none
  | some pem => do
    let result ← processRequest pki env (identityRequest device request pem)
    return result.certificate

/-- `String.endsWith("\n")`. -/
def endsWithNewline (s : String) : Bool := s.toList.getLast? == some '\n'

/-- `buildTrustBundle`. -/
def buildTrustBundle (ctx : Context) (orgId : OrganizationId) : String :=
  let orgPem := ctx.caCertPem orgId
  if ctx.brokerPem = "" then orgPem
  else
    orgPem ++ (if endsWithNewline orgPem then "" else "\n") ++ ctx.brokerPem ++
      (if endsWithNewline ctx.brokerPem then "" else "\n")

/-- The response to an enrolment that succeeds. -/
def enrolledResponse (ctx : Context) (result : EnrollmentResult) (cert : Option IssuedCertificate)
    (db : Db) : AgentRegisterResponse where
  accepted := true
  message := "Device enrolled successfully"
  initialManifest := db.manifests.find? result.device.deviceId
  deviceToken := some result.deviceToken
  caCertPem := some (buildTrustBundle ctx result.device.organizationId)
  identityCertPem := cert.map IssuedCertificate.certPem
  identityCertSerial := cert.map fun c => serialText c.serialNumber

/-- The body of `onEnrollRequest` inside its `try`: two transactions, the enrolment and the request
for the identity certificate, with the clock readings and random numbers of each. -/
def tryEnroll (ctx : Context) (env env' : Env) (topic : Topic)
    (payload : Option EnrollRequestPayload) (db : Db) :
    Except ServiceError (String × AgentRegisterResponse) × Db :=
  match payload with
  | none => (.error .json, db)
  | some request =>
    match validateEnroll (request.resolvedId topic) request with
    | .error e => (.error e, db)
    | .ok (deviceId, token) =>
      match (enrollDevice ctx.toPkiContext env token deviceId request.facts).run db with
      | .error e => (.error e, db)
      | .ok (result, db) =>
        match (issueIdentityCertIfRequested ctx.toPkiContext env' result.device request).run db with
        | .error e => (.error e, db)
        | .ok (cert, db) => (.ok (deviceId, enrolledResponse ctx result cert db), db)

/-- `EnrollmentListener.onEnrollRequest`. -/
def onEnrollRequest (ctx : Context) (env env' : Env) (topic : Topic)
    (payload : Option EnrollRequestPayload) (db : Db) : Db × List Outgoing :=
  match tryEnroll ctx env env' topic payload db with
  | (.ok (deviceId, response), db) => (db, [.enrollResponse deviceId response])
  | (.error e, db) =>
    (db, (extractDeviceId topic).toList.map fun deviceId =>
      .enrollResponse deviceId (.error (ctx.getMessage e)))

/-! ### Certificate requests -/

/-- `CertRequestListener.parseType`. -/
def parseType : Option String → CertRequestType
  | none => .initial
  | some type =>
    if type.toLower = "renewal" then .renewal
    else if type.toLower = "manifest" then .manifest
    else .initial

/-- The device that a certificate request is for. -/
def CertRequestPayload.resolvedId (request : CertRequestPayload) (topic : Topic) : Option String :=
  if hasText request.deviceId then request.deviceId else extractDeviceId topic

/-- The call of `processRequest` for a request of a registered device. -/
def CertRequestPayload.args (request : CertRequestPayload) (device : Device) : CertRequestArgs where
  deviceId := device.deviceId
  orgId := device.organizationId
  name := request.name
  commonName := request.commonName
  sans := request.sans.getD []
  csrPem := request.csrPem
  type := parseType request.type
  currentSerial := request.currentSerial

/-- `publishResponse`, which ignores a blank device id. -/
def publishResponse (deviceId : Option String) (body : CertResponsePayload) : List Outgoing :=
  ((deviceId.filter fun d => !isBlank d).map fun d => Outgoing.certResponse d body).toList

/-- `CertRequestListener.onCertRequest`. -/
def onCertRequest (ctx : Context) (env : Env) (topic : Topic) (payload : Option CertRequestPayload)
    (db : Db) : Db × List Outgoing :=
  let failed (e : ServiceError) : Db × List Outgoing :=
    (db, publishResponse (extractDeviceId topic)
      ⟨none, false, "Internal error: " ++ ctx.getMessage e, none, none⟩)
  match payload with
  | none => failed .json
  | some request =>
    match (request.resolvedId topic).filter fun d => !isBlank d with
    | none =>
      (db, publishResponse (extractDeviceId topic)
        ⟨request.name, false, "deviceId is required", none, none⟩)
    | some deviceId =>
      if !hasText request.csrPem then
        (db, publishResponse deviceId ⟨request.name, false, "csrPem is required", none, none⟩)
      else
        match db.devices.find? deviceId with
        | none =>
          (db, publishResponse deviceId ⟨request.name, false, "Device not registered", none, none⟩)
        | some device =>
          match (processRequest ctx.toPkiContext env (request.args device)).run db with
          | .error e => failed e
          | .ok (result, db) =>
            (db, match result.certificate with
              | none => []
              | some cert =>
                publishResponse deviceId ⟨request.name, true, "Certificate issued",
                  some cert.certPem, some (ctx.caCertPem device.organizationId)⟩)

/-! ### Heartbeats, telemetry and command results -/

/-- `HeartbeatListener.onHeartbeat`. -/
def onHeartbeat (ctx : Context) (env : Env) (payload : Option HeartbeatPayload) (db : Db) :
    Db × List Outgoing :=
  match payload with
  | none => (db, [])
  | some payload =>
    match payload.deviceId.filter fun d => !isBlank d with
    | none => (db, [])
    | some deviceId =>
      match (heartbeat env deviceId (payload.status.map (·.toEntity ctx))).run db with
      | .error _ => (db, [])
      | .ok (none, db) => (db, [])
      | .ok (some _, db) =>
        let db :=
          match payload.autoUpdate with
          | none => db
          | some value => recordAutoUpdate deviceId value db
        (db, ((db.manifests.find? deviceId).filter fun m => payload.manifestVersion < m.version
          ).toList.map (Outgoing.desiredState deviceId))

/-- `TelemetryListener.onTelemetryMessage`. -/
def onTelemetryMessage (ctx : Context) (env : Env) (payload : Option TelemetryPayload) (db : Db) :
    Db :=
  match payload with
  | none => db
  | some payload =>
    match payload.deviceId.filter fun d => !isBlank d, payload.status with
    | some deviceId, some status =>
      (heartbeat env deviceId (some (status.toEntity ctx))).commit db
    | _, _ => db

/-- The constraints `chk_exec_phase` and `chk_exec_status`. -/
def executionChecks (phase status : String) : Prop :=
  phase ∈ ["pre_hook", "main", "post_hook"] ∧ status ∈ ["success", "failed", "running", "timeout"]

instance (phase status : String) : Decidable (executionChecks phase status) :=
  inferInstanceAs (Decidable (_ ∧ _))

/-- The columns of a reported result that may not be null. -/
structure ResultTexts where
  commandId : String
  deviceId : String
  phase : String
  status : String
deriving DecidableEq, Repr

/-- The columns of `command_executions` hold the texts of a result. -/
def CommandResultPayload.Fits (p : CommandResultPayload) (t : ResultTexts) : Prop :=
  FitsVarchar 64 t.commandId ∧ FitsVarchar 255 t.deviceId ∧ (∀ s ∈ p.stdout, FitsText s) ∧
    (∀ s ∈ p.stderr, FitsText s) ∧ ∀ s ∈ p.errorMessage, FitsText s

instance (p : CommandResultPayload) : DecidablePred p.Fits := fun _ =>
  inferInstanceAs (Decidable (_ ∧ _ ∧ _ ∧ _ ∧ _))

/-- The required columns of a result that the schema admits. -/
def CommandResultPayload.texts (p : CommandResultPayload) : Option ResultTexts := do
  let texts : ResultTexts := ⟨← p.commandId, ← p.deviceId, ← p.phase, ← p.status⟩
  guard (executionChecks texts.phase texts.status ∧ p.Fits texts)
  return texts

/-- The row that `onCommandResult` builds. -/
def newExecution (env : Env) (p : CommandResultPayload) (t : ResultTexts) (id : ℕ) :
    CommandExecution where
  id := id
  commandId := t.commandId
  deviceId := t.deviceId
  phase := t.phase
  status := t.status
  exitCode := p.exitCode
  stdout := p.stdout
  stderr := p.stderr
  errorMessage := p.errorMessage
  durationMs := p.durationMs
  receivedAt := env.now

/-- `executionRepository.save` of a reported result. -/
def insertExecution (env : Env) (p : CommandResultPayload) (t : ResultTexts) (db : Db) : Db :=
  { db with executions := db.executions.insert (newExecution env p t) fun _ => rfl }

/-- `CommandResultListener.onCommandResult`. -/
def onCommandResult (env : Env) (payload : Option CommandResultPayload) (db : Db) : Db :=
  match payload with
  | none => db
  | some payload =>
    match payload.texts with
    | none => db
    | some texts => insertExecution env payload texts db

/-! ### What the listeners do to the database -/

section Specs

variable {ctx : Context} {env env' : Env} {topic : Topic} {db : Db}

theorem filter_not_isBlank_eq_some {o : Option String} {s : String} :
    (o.filter fun s => !isBlank s) = some s ↔ o = some s ∧ isBlank s = false := by
  simp [Option.filter_eq_some_iff]

theorem validateEnroll_eq_ok {resolvedId : Option String} {request : EnrollRequestPayload}
    {deviceId tokenValue : String} :
    validateEnroll resolvedId request = .ok (deviceId, tokenValue) ↔
      (resolvedId = some deviceId ∧ isBlank deviceId = false) ∧
        request.enrollmentToken = some tokenValue ∧ isBlank tokenValue = false := by
  rw [validateEnroll]
  rcases hid : resolvedId.filter (fun d => !isBlank d) with _ | d
  · rw [← filter_not_isBlank_eq_some, hid]
    simp
  · rcases hvalue : request.enrollmentToken.filter (fun t => !isBlank t) with _ | t
    · rw [← filter_not_isBlank_eq_some, ← filter_not_isBlank_eq_some, hvalue]
      simp
    · rw [← filter_not_isBlank_eq_some, ← filter_not_isBlank_eq_some, hid, hvalue]
      simp

/-- The request passes the checks of the listener, `token` is its token and valid, and the columns
of the schema hold what the enrolment writes. -/
structure EnrollAccepted (pki : PkiContext) (env : Env) (topic : Topic) (db : Db)
    (request : EnrollRequestPayload) (deviceId : String) (token : EnrollmentToken) : Prop where
  resolvedId : request.resolvedId topic = some deviceId
  notBlank : isBlank deviceId = false
  hasToken : hasText request.enrollmentToken
  found : request.enrollmentToken.bind db.enrollmentTokens.find? = some token
  valid : token.isValid env.now
  fits : EnrolFits pki env deviceId request.facts db

theorem enrollAccepted_iff {pki : PkiContext} {request : EnrollRequestPayload} {deviceId : String}
    {token : EnrollmentToken} : EnrollAccepted pki env topic db request deviceId token ↔
      ∃ tokenValue, validateEnroll (request.resolvedId topic) request = .ok (deviceId, tokenValue) ∧
        db.enrollmentTokens.find? tokenValue = some token ∧ token.isValid env.now ∧
        EnrolFits pki env deviceId request.facts db := by
  simp only [validateEnroll_eq_ok]
  constructor
  · rintro ⟨hid, hblank, htext, hfound, hvalid, hfits⟩
    obtain ⟨tokenValue, hvalue, hfind⟩ := Option.bind_eq_some_iff.mp hfound
    rw [hvalue] at htext
    exact ⟨tokenValue, ⟨⟨hid, hblank⟩, hvalue, by simpa [hasText] using htext⟩, hfind, hvalid,
      hfits⟩
  · rintro ⟨tokenValue, ⟨⟨hid, hblank⟩, hvalue, htext⟩, hfind, hvalid, hfits⟩
    exact ⟨hid, hblank, by simp [hvalue, hasText, htext], by rw [hvalue]; exact hfind, hvalid,
      hfits⟩

/-- The row of the device that an accepted request enrols. -/
def EnrollRequestPayload.registered (request : EnrollRequestPayload) (env : Env)
    (token : EnrollmentToken) (deviceId : String) (db : Db) : Device :=
  (register env token.organizationId deviceId request.facts db).1

theorem onEnrollRequest_fst {payload : Option EnrollRequestPayload} :
    (onEnrollRequest ctx env env' topic payload db).1 =
      (tryEnroll ctx env env' topic payload db).2 := by
  rw [onEnrollRequest]
  rcases tryEnroll ctx env env' topic payload db with ⟨_ | _, _⟩ <;> rfl

theorem issueIdentityCertIfRequested_cases {pki : PkiContext} {device : Device} {db' : Db}
    {request : EnrollRequestPayload} {cert : Option IssuedCertificate}
    (h : (issueIdentityCertIfRequested pki env device request).run db = .ok (cert, db')) :
    db' = db ∨ ∃ pem r, request.csrPem = some pem ∧
      Processed pki env (identityRequest device request pem) db r db' := by
  simp only [issueIdentityCertIfRequested] at h
  split at h
  · obtain ⟨-, rfl⟩ := Prod.mk.inj (Tx.run_pure_eq_ok.mp h)
    exact .inl rfl
  · next pem hpem =>
    obtain ⟨result, db₁, hprocess, h⟩ := Tx.run_bind_eq_ok.mp h
    obtain ⟨-, rfl⟩ := Prod.mk.inj (Tx.run_pure_eq_ok.mp h)
    exact .inr ⟨pem, result, (filter_not_isBlank_eq_some.mp hpem).1,
      processRequest_run_eq_ok.mp hprocess⟩

/-- Everything that `onEnrollRequest` does to the database: nothing for a request that is not
accepted; else the enrolment, which may be followed by the request for an identity certificate. -/
theorem onEnrollRequest_cases (ctx : Context) (env env' : Env) (topic : Topic)
    (payload : Option EnrollRequestPayload) (db : Db) :
    (onEnrollRequest ctx env env' topic payload db).1 = db ∧
        (∀ request ∈ payload, ∀ deviceId token,
          ¬ EnrollAccepted ctx.toPkiContext env topic db request deviceId token)
      ∨ ∃ request ∈ payload, ∃ deviceId token,
        EnrollAccepted ctx.toPkiContext env topic db request deviceId token ∧
        ((onEnrollRequest ctx env env' topic payload db).1 =
            enrol ctx.toPkiContext env token deviceId request.facts db ∨
          ∃ pem r, request.csrPem = some pem ∧ Processed ctx.toPkiContext env'
            (identityRequest (request.registered env token deviceId db) request pem)
            (enrol ctx.toPkiContext env token deviceId request.facts db) r
            (onEnrollRequest ctx env env' topic payload db).1) := by
  rw [onEnrollRequest_fst]
  rcases payload with _ | request
  · exact .inl ⟨rfl, fun _ h => nomatch h⟩
  · simp only [tryEnroll, Option.mem_some_iff, forall_eq', exists_eq_left', enrollAccepted_iff]
    rcases hcheck : validateEnroll (request.resolvedId topic) request with
      e | ⟨deviceId, tokenValue⟩
    · exact .inl ⟨rfl, by simp⟩
    · dsimp only
      rcases hrun :
        (enrollDevice ctx.toPkiContext env tokenValue deviceId request.facts).run db with
        e | ⟨result, db₁⟩
      · refine .inl ⟨rfl, ?_⟩
        rintro _ token ⟨_, hok, hfind, hvalid, hfits⟩
        obtain ⟨rfl, rfl⟩ := Prod.mk.inj (Except.ok.inj hok)
        have hcommit :
            (enrollDevice ctx.toPkiContext env tokenValue deviceId request.facts).run db = .ok _ :=
          enrollDevice_run_eq_ok.mpr ⟨token, hfind, hvalid, hfits, rfl, rfl⟩
        exact nomatch hrun.symm.trans hcommit
      · obtain ⟨token, hfind, hvalid, hfits, rfl, rfl⟩ := enrollDevice_run_eq_ok.mp hrun
        refine .inr ⟨deviceId, token, ⟨tokenValue, rfl, hfind, hvalid, hfits⟩, ?_⟩
        dsimp only
        split
        · exact .inl rfl
        · next hissue => exact issueIdentityCertIfRequested_cases hissue

/-- The call of `processRequest` that a message on `cert/request` leads to. -/
def certRequestCall (topic : Topic) (payload : Option CertRequestPayload) (db : Db) :
    Option CertRequestArgs := do
  let request ← payload
  let deviceId ← (request.resolvedId topic).filter fun d => !isBlank d
  guard (hasText request.csrPem)
  let device ← db.devices.find? deviceId
  return request.args device

/-- What `onCertRequest` does to the database is what the call of `processRequest` commits. -/
theorem onCertRequest_fst (ctx : Context) (env : Env) (topic : Topic)
    (payload : Option CertRequestPayload) (db : Db) :
    (onCertRequest ctx env topic payload db).1 =
      ((certRequestCall topic payload db).elim db fun q =>
        (processRequest ctx.toPkiContext env q).commit db) := by
  simp only [onCertRequest, certRequestCall]
  rcases payload with _ | request
  · rfl
  · rcases hid : (request.resolvedId topic).filter (fun d => !isBlank d) with _ | deviceId
    · simp [hid]
    · rcases hcsr : hasText request.csrPem with _ | _
      · simp [hid, hcsr]
      · rcases hdevice : db.devices.find? deviceId with _ | device
        · simp [hid, hcsr, hdevice]
        · simp only [hid, hcsr, hdevice, Bool.not_true, Bool.false_eq_true, if_false,
            Option.bind_eq_bind, Option.bind_some, guard_true, Option.pure_def, Option.elim_some]
          rw [Tx.commit]
          rcases (processRequest ctx.toPkiContext env (request.args device)).run db with
            e | ⟨result, db'⟩ <;> rfl

theorem mem_publishResponse {deviceId : Option String} {body : CertResponsePayload} {o : Outgoing} :
    o ∈ publishResponse deviceId body ↔
      ∃ d, (deviceId = some d ∧ isBlank d = false) ∧ .certResponse d body = o := by
  simp only [publishResponse, Option.mem_toList, Option.map_eq_some_iff, filter_not_isBlank_eq_some]

/-- What `onCertRequest` answers: a refusal with the database as it was, or the certificate that a
committed `processRequest` issues. -/
theorem onCertRequest_cases (ctx : Context) (env : Env) (topic : Topic)
    (payload : Option CertRequestPayload) (db : Db) :
    ((onCertRequest ctx env topic payload db).1 = db ∧
        ∀ o ∈ (onCertRequest ctx env topic payload db).2, ∃ deviceId body,
          o = .certResponse deviceId body ∧ body.accepted = false)
      ∨ ∃ request deviceId device result, payload = some request ∧
        request.resolvedId topic = some deviceId ∧ db.devices.find? deviceId = some device ∧
        Processed ctx.toPkiContext env (request.args device) db result
          (onCertRequest ctx env topic payload db).1 ∧
        ∀ o ∈ (onCertRequest ctx env topic payload db).2, ∃ cert,
          result.certificate = some cert ∧ o = .certResponse deviceId
            ⟨request.name, true, "Certificate issued", some cert.certPem,
              some (ctx.caCertPem device.organizationId)⟩ := by
  have hrefused (deviceId : Option String) (body : CertResponsePayload)
      (hbody : body.accepted = false) : ∀ o ∈ publishResponse deviceId body, ∃ deviceId body,
        o = .certResponse deviceId body ∧ body.accepted = false := by
    intro o ho
    obtain ⟨d, -, rfl⟩ := mem_publishResponse.mp ho
    exact ⟨d, body, rfl, hbody⟩
  simp only [onCertRequest]
  rcases payload with _ | request
  · exact .inl ⟨rfl, hrefused _ _ rfl⟩
  · dsimp only
    split
    · exact .inl ⟨rfl, hrefused _ _ rfl⟩
    · next deviceId hid =>
      obtain ⟨hresolved, hblank⟩ := filter_not_isBlank_eq_some.mp hid
      split_ifs
      · exact .inl ⟨rfl, hrefused _ _ rfl⟩
      · split
        · exact .inl ⟨rfl, hrefused _ _ rfl⟩
        · next device hdevice =>
          split
          · exact .inl ⟨rfl, hrefused _ _ rfl⟩
          · next result db' hrun =>
            refine .inr ⟨request, deviceId, device, result, rfl, hresolved, hdevice,
              processRequest_run_eq_ok.mp hrun, fun o ho => ?_⟩
            split at ho
            · cases ho
            · next cert hcert =>
              obtain ⟨d, ⟨hd, -⟩, rfl⟩ := mem_publishResponse.mp ho
              cases hd
              exact ⟨cert, hcert, rfl⟩

end Specs

end EdgeGuardian.Controller
