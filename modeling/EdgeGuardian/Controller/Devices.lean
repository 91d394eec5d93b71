import EdgeGuardian.Controller.Certificates

/-!
# Devices: registration, enrolment, heartbeats and deletion

The services that write device rows. A device registers under the organization of the enrolment
token; a device that is known already is registered again under the organization of the token at
hand. Deleting a device revokes its certificates and deletes the row, and the foreign keys of the
schema take its manifest, token, certificate requests and certificates along.

Source: `controller/src/main/java/com/edgeguardian/controller/service/DeviceRegistry.java`,
`EnrollmentService.java`, `DeviceLifecycleService.java`,
`controller/src/main/resources/db/migration/V1__core.sql`, `V4__pki.sql`.

## Main definitions

* `register`, `heartbeat`, `recordAutoUpdate`, `removeDevice`.
* `DeviceFacts.Fits`, `StatusFits`, `EnrolFits`: what the columns of the schema hold.
* `enrollDevice`, `revokeToken`, `deleteDevice`.

## Main results

* `heartbeat_commit`: what a heartbeat of a known device does.
* `enrollDevice_run_eq_ok`: when an enrolment commits, and the database then.
* `deleteDevice_cases`: what a committed deletion does.
-/

namespace EdgeGuardian.Controller

/-! ### The device registry -/

/-- What a device reports of itself when it registers. -/
structure DeviceFacts where
  hostname : Option String
  architecture : Option String
  os : Option String
  agentVersion : Option String
  labels : Option (List (String × String))
deriving DecidableEq, Repr

/-- The columns of `devices` hold the id of a device and what it reports. -/
def DeviceFacts.Fits (facts : DeviceFacts) (deviceId : String) : Prop :=
  FitsVarchar 255 deviceId ∧ (∀ s ∈ facts.hostname, FitsVarchar 255 s) ∧
    (∀ s ∈ facts.architecture, FitsVarchar 64 s) ∧ (∀ s ∈ facts.os, FitsVarchar 64 s) ∧
    (∀ s ∈ facts.agentVersion, FitsVarchar 64 s) ∧
    ∀ labels ∈ facts.labels, ∀ l ∈ labels, FitsText l.1 ∧ FitsText l.2

instance (facts : DeviceFacts) : DecidablePred facts.Fits := fun _ =>
  inferInstanceAs (Decidable (_ ∧ _ ∧ _ ∧ _ ∧ _ ∧ _))

/-- `Map.putAll`. -/
def putAll (m labels : List (String × String)) : List (String × String) :=
  labels.foldl (fun m l => m.filter (fun e => e.1 ≠ l.1) ++ [l]) m

/-- The row that `register` saves: the row there is, moved to the organization, or a new one. -/
def registeredDevice (env : Env) (orgId : OrganizationId) (deviceId : String)
    (facts : DeviceFacts) :
    Option Device → Device
  | some device =>
    { device with
      organizationId := orgId
      hostname := facts.hostname
      architecture := facts.architecture
      os := facts.os
      agentVersion := facts.agentVersion
      lastHeartbeat := some env.now
      state := .online
      labels := putAll device.labels (facts.labels.getD []) }
  | none =>
    { deviceId := deviceId
      organizationId := orgId
      hostname := facts.hostname
      architecture := facts.architecture
      os := facts.os
      agentVersion := facts.agentVersion
      state := .online
      labels := putAll [] (facts.labels.getD [])
      registeredAt := env.now
      lastHeartbeat := some env.now
      autoUpdate := none }

/-- `DeviceRegistry.register` of facts that the columns hold: the row saved, and the database
after. -/
def register (env : Env) (orgId : OrganizationId) (deviceId : String) (facts : DeviceFacts)
    (db : Db) : Device × Db :=
  let device := registeredDevice env orgId deviceId facts (db.devices.find? deviceId)
  (device, { db with devices := db.devices.save device })

theorem deviceId_registeredDevice (env : Env) (db : Db) (orgId : OrganizationId)
    (deviceId : String) (facts : DeviceFacts) :
    (registeredDevice env orgId deviceId facts (db.devices.find? deviceId)).deviceId =
      deviceId := by
  rcases hfind : db.devices.find? deviceId with _ | device
  · rfl
  · have hid : device.deviceId = deviceId := Table.key_of_find?_eq_some hfind
    exact hid

/-- The row of a device that was heard of. -/
def Device.heard (env : Env) (device : Device) : Device :=
  { device with lastHeartbeat := some env.now, state := .online }

/-- The columns of `device_telemetry` hold the status. -/
def DeviceStatus.Fits (status : DeviceStatus) : Prop :=
  FitsVarchar 32 status.reconcileStatus ∧ ∀ t ∈ status.lastReconcile, FitsTimestamp t

instance : DecidablePred DeviceStatus.Fits := fun _ => inferInstanceAs (Decidable (_ ∧ _))

/-- The columns of `device_telemetry` hold the status of a heartbeat, if it carries one. -/
def StatusFits (status : Option DeviceStatus) : Prop := ∀ s ∈ status, s.Fits

instance : DecidablePred StatusFits := fun _ => inferInstanceAs (Decidable (∀ _ ∈ _, _))

/-- The writes of a heartbeat of a device that is known. -/
def hear (env : Env) (deviceId : String) (device : Device) (status : Option DeviceStatus)
    (db : Db) : Db :=
  let db := { db with devices := db.devices.save (device.heard env) }
  match status with
  | none => db
  | some status =>
    { db with telemetry := db.telemetry.save ⟨env.now, deviceId, device.organizationId, status⟩ }

/-- `DeviceRegistry.heartbeat`: the row saved, if the device is known. -/
def heartbeat (env : Env) (deviceId : String) (status : Option DeviceStatus) :
    Service (Option Device) := do
  match (← get).devices.find? deviceId with
  | none => return none
  | some device =>
    Tx.require (StatusFits status) .dataIntegrity
    modify (hear env deviceId device status)
    return some (device.heard env)

section Heartbeat

variable {env : Env} {deviceId : String} {status : Option DeviceStatus} {db : Db}

theorem heartbeat_run_of_unknown (h : db.devices.find? deviceId = none) :
    (heartbeat env deviceId status).run db = .ok (none, db) := by
  simp only [heartbeat, Tx.run_get_bind, h]
  rfl

theorem heartbeat_run_of_known {device : Device} (h : db.devices.find? deviceId = some device) :
    (heartbeat env deviceId status).run db =
      if StatusFits status then .ok (some (device.heard env), hear env deviceId device status db)
      else .error .dataIntegrity := by
  simp only [heartbeat, Tx.run_get_bind, h, Tx.require]
  split_ifs <;> rfl

/-- The database after a heartbeat of a device that is known. -/
theorem heartbeat_commit {device : Device} (h : db.devices.find? deviceId = some device) :
    (heartbeat env deviceId status).commit db =
      if StatusFits status then hear env deviceId device status db else db := by
  rw [Tx.commit, heartbeat_run_of_known h]
  split_ifs <;> rfl

end Heartbeat

/-- `DeviceRegistry.recordAutoUpdate`. -/
def recordAutoUpdate (deviceId : String) (value : Bool) (db : Db) : Db :=
  match db.devices.find? deviceId with
  | none => db
  | some device =>
    if device.autoUpdate = some value then db
    else { db with devices := db.devices.save { device with autoUpdate := some value } }

/-- `DELETE FROM devices` with the cascades of the schema. -/
def deleteDeviceRow (deviceId : String) (db : Db) : Db :=
  { db with
    devices := db.devices.delete fun d => d.deviceId = deviceId
    manifests := db.manifests.delete fun m => m.deviceId = deviceId
    deviceTokens := db.deviceTokens.delete fun t => t.deviceId = deviceId
    requests := db.requests.delete fun r => r.deviceId = deviceId
    certificates := db.certificates.delete fun c => c.deviceId = deviceId }

/-- `DeviceRegistry.remove`, for a device that exists. -/
def removeDevice (deviceId : String) (db : Db) : Db :=
  deleteDeviceRow deviceId
    { db with manifests := db.manifests.delete fun m => m.deviceId = deviceId }

/-! ### Enrolment -/

/-- The device token that `enrollDevice` saves: the row there is with a new hash, or a new row. -/
def enrolledToken (pki : PkiContext) (env : Env) (deviceId : String)
    (existing : Option DeviceToken) :
    DeviceToken where
  deviceId := deviceId
  tokenHash := pki.sha256 env.deviceToken
  tokenPrefix := String.ofList (env.deviceToken.toList.take 12)
  issuedAt := (existing.map DeviceToken.issuedAt).getD env.now
  revoked := false

/-- `EnrollmentResult`. -/
structure EnrollmentResult where
  device : Device
  deviceToken : String
deriving DecidableEq, Repr

/-- The columns of the schema hold what an enrolment writes, and no other device has a token with
the hash of the new one. -/
def EnrolFits (pki : PkiContext) (env : Env) (deviceId : String) (facts : DeviceFacts) (db : Db) :
    Prop :=
  facts.Fits deviceId ∧ ∀ t ∈ db.deviceTokens.rows, t.deviceId ≠ deviceId →
    t.tokenHash ≠ pki.sha256 env.deviceToken

instance (pki : PkiContext) (env : Env) (deviceId : String) (facts : DeviceFacts) :
    DecidablePred (EnrolFits pki env deviceId facts) := fun _ =>
  inferInstanceAs (Decidable (_ ∧ _))

/-- The writes of `enrollDevice` with a token that it accepts. -/
def enrol (pki : PkiContext) (env : Env) (token : EnrollmentToken) (deviceId : String)
    (facts : DeviceFacts) (db : Db) : Db :=
  let db := { db with
    enrollmentTokens := db.enrollmentTokens.save { token with useCount := token.useCount + 1 } }
  let db := (register env token.organizationId deviceId facts db).2
  { db with
    deviceTokens := db.deviceTokens.save
      (enrolledToken pki env deviceId (db.deviceTokens.find? deviceId)) }

/-- `EnrollmentService.enrollDevice`. -/
def enrollDevice (pki : PkiContext) (env : Env) (tokenValue deviceId : String)
    (facts : DeviceFacts) : Service EnrollmentResult := do
  let db ← get
  let token ← Tx.orElseThrow (db.enrollmentTokens.find? tokenValue)
    (.status 401 "Invalid enrollment token")
  Tx.require (token.isValid env.now) (.status 401 "Enrollment token expired or revoked")
  Tx.require (EnrolFits pki env deviceId facts db) .dataIntegrity
  modify (enrol pki env token deviceId facts)
  return ⟨(register env token.organizationId deviceId facts db).1, env.deviceToken⟩

/-- `tokenRepository.findById`. -/
def findEnrollmentTokenById (db : Db) (tokenId : ℕ) : Option EnrollmentToken :=
  db.enrollmentTokens.rows.find? fun t => t.id = tokenId

/-- `EnrollmentService.revokeToken`. -/
def revokeToken (tokenId : ℕ) (expectedOrgId : OrganizationId) : Service Unit := do
  let db ← get
  let token ← Tx.orElseThrow
    ((findEnrollmentTokenById db tokenId).filter fun t => t.organizationId = expectedOrgId)
    (.status 404 "Token not found")
  set { db with enrollmentTokens := db.enrollmentTokens.save { token with revoked := true } }

/-! ### Deletion -/

/-- `deviceTokenRepository.deleteByDeviceId`. -/
def deleteDeviceToken (deviceId : String) (db : Db) : Db :=
  { db with deviceTokens := db.deviceTokens.delete fun t => t.deviceId = deviceId }

/-- `DeviceLifecycleService.deleteDevice`. -/
def deleteDevice (pki : PkiContext) (env : Env) (deviceId : String) (actorUserId : Option UserId) :
    Service Unit := do
  let db ← get
  let device ← Tx.orElseThrow (db.devices.find? deviceId)
    (.status 404 ("Device not found: " ++ deviceId))
  let orgId := device.organizationId
  let revoked := revokeAllActiveForDevice pki env deviceId orgId .deviceDeleted actorUserId db
  let rejected := rejectPendingRequestsForDevice env deviceId orgId (some "Device deleted")
    actorUserId revoked.2
  set (deleteDeviceToken deviceId rejected.2)
  modify (removeDevice deviceId)
  modify (log env orgId actorUserId "device_deleted" "device" deviceId
    [("certsRevoked", .num revoked.1 0), ("requestsRejected", .num rejected.1 0)])

/-! ### What committed calls do -/

variable {pki : PkiContext} {env : Env} {db db' : Db} {deviceId : String}

/-- When an enrolment commits, and the database then. -/
theorem enrollDevice_run_eq_ok {tokenValue : String} {facts : DeviceFacts} {r : EnrollmentResult} :
    (enrollDevice pki env tokenValue deviceId facts).run db = .ok (r, db') ↔
      ∃ token, db.enrollmentTokens.find? tokenValue = some token ∧ token.isValid env.now ∧
        EnrolFits pki env deviceId facts db ∧
        r = ⟨(register env token.organizationId deviceId facts db).1, env.deviceToken⟩ ∧
        db' = enrol pki env token deviceId facts db := by
  simp only [enrollDevice, Tx.run_get_bind_eq_ok, Tx.run_orElseThrow_bind_eq_ok,
    Tx.run_require_bind_eq_ok, Tx.run_modify_bind_eq_ok, Tx.run_pure_eq_ok, Prod.mk.injEq]
  constructor
  · rintro ⟨token, hfind, hvalid, hfits, hr, hdb⟩
    exact ⟨token, hfind, hvalid, hfits, hr.symm, hdb.symm⟩
  · rintro ⟨token, hfind, hvalid, hfits, hr, hdb⟩
    exact ⟨token, hfind, hvalid, hfits, hr.symm, hdb.symm⟩

/-- What a committed `deleteDevice` does. -/
theorem deleteDevice_cases {actorUserId : Option UserId}
    (h : (deleteDevice pki env deviceId actorUserId).run db = .ok ((), db')) :
    ∃ device details, db.devices.find? deviceId = some device ∧
      db' = log env device.organizationId actorUserId "device_deleted" "device" deviceId details
        (removeDevice deviceId (deleteDeviceToken deviceId
          (rejectPendingRequestsForDevice env deviceId device.organizationId
            (some "Device deleted") actorUserId
            (revokeAllActiveForDevice pki env deviceId device.organizationId .deviceDeleted
              actorUserId db).2).2)) := by
  simp only [deleteDevice, Tx.run_get_bind_eq_ok, Tx.run_orElseThrow_bind_eq_ok,
    Tx.run_set_bind_eq_ok, Tx.run_modify_bind_eq_ok, Tx.run_modify_eq_ok, Prod.mk.injEq] at h
  obtain ⟨device, hfind, -, rfl⟩ := h
  exact ⟨device, _, hfind, rfl⟩

end EdgeGuardian.Controller
