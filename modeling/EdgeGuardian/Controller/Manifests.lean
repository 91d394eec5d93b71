import EdgeGuardian.Controller.Reads

/-!
# Storing the manifest of a device

The desired state of a device is one row with a version. The first save creates the row with
version 1, every later one counts up. The row is deleted with its device.

Source: `controller/src/main/java/com/edgeguardian/controller/service/DeviceRegistry.java`,
`api/DeviceController.java`, `model/DeviceManifestEntity.java`, `mqtt/HeartbeatListener.java`.

## Main definitions

* `saveManifest`, `updateManifest`.

## Main results

* `updateManifest_cases`, `find?_manifests_deleteDevice`: the manifests after an update and after a
  deletion.
* `snd_onHeartbeat`: what a heartbeat pushes.
-/

namespace EdgeGuardian.Controller

/-- The row that `saveManifest` saves for a device: the row there is with a higher version, or a new
one. -/
def savedManifest (device : Device) (metadata spec : List (String × Json)) :
    Option DeviceManifestEntity → DeviceManifestEntity
  | some m => { m with metadata, spec, version := m.version + 1 }
  | none =>
    { deviceId := device.deviceId
      organizationId := device.organizationId
      apiVersion := "edgeguardian/v1"
      kind := "DeviceManifest"
      metadata := metadata
      spec := spec
      version := 1 }

/-- The columns of `device_manifests` hold the content. -/
def ContentFits (metadata spec : List (String × Json)) : Prop :=
  FitsJsonb (.obj metadata) ∧ FitsJsonb (.obj spec)

instance (metadata spec : List (String × Json)) : Decidable (ContentFits metadata spec) :=
  inferInstanceAs (Decidable (_ ∧ _))

/-- `DeviceRegistry.saveManifest`; a row needs a device. -/
def saveManifest (deviceId : String) (metadata spec : List (String × Json)) :
    Service DeviceManifestEntity := do
  let db ← get
  let device ← Tx.orElseThrow (db.devices.find? deviceId) .dataIntegrity
  Tx.require (ContentFits metadata spec) .dataIntegrity
  let entity := savedManifest device metadata spec (db.manifests.find? deviceId)
  set { db with manifests := db.manifests.save entity }
  return entity

/-- `DeviceController.updateManifest`, after the text was parsed. -/
def updateManifest (principal : TenantPrincipal) (deviceId : String)
    (metadata spec : List (String × Json)) : Service Unit := do
  let db ← get
  let _ ← Tx.orElseThrow (findByIdForOrganization db deviceId principal.organizationId)
    (.status 404 ("Device not found: " ++ deviceId))
  let _ ← saveManifest deviceId metadata spec

/-! ### What the operations do to the manifests -/

variable {pki : PkiContext} {ctx : Context} {env : Env} {db db' : Db} {deviceId d : String}
  {metadata spec : List (String × Json)}

theorem saveManifest_run_eq_ok {entity : DeviceManifestEntity} :
    (saveManifest deviceId metadata spec).run db = .ok (entity, db') ↔
      ∃ device, db.devices.find? deviceId = some device ∧ ContentFits metadata spec ∧
        entity = savedManifest device metadata spec (db.manifests.find? deviceId) ∧
        db' = { db with manifests := db.manifests.save entity } := by
  simp only [saveManifest, Tx.run_get_bind_eq_ok, Tx.run_orElseThrow_bind_eq_ok,
    Tx.run_require_bind_eq_ok, Tx.run_set_bind_eq_ok, Tx.run_pure_eq_ok, Prod.mk.injEq]
  constructor
  · rintro ⟨device, hfind, hfits, rfl, rfl⟩
    exact ⟨device, hfind, hfits, rfl, rfl⟩
  · rintro ⟨device, hfind, hfits, rfl, rfl⟩
    exact ⟨device, hfind, hfits, rfl, rfl⟩

theorem deviceId_savedManifest {device : Device} (hfind : db.devices.find? deviceId = some device) :
    (savedManifest device metadata spec (db.manifests.find? deviceId)).deviceId = deviceId := by
  rcases hm : db.manifests.find? deviceId with _ | m
  · have hid : device.deviceId = deviceId := Table.key_of_find?_eq_some hfind
    exact hid
  · have hid : m.deviceId = deviceId := Table.key_of_find?_eq_some hm
    exact hid

/-- The rows after an update. -/
theorem updateManifest_cases {principal : TenantPrincipal}
    (h : (updateManifest principal deviceId metadata spec).run db = .ok ((), db')) :
    ∃ device, db.devices.find? deviceId = some device ∧ db'.devices = db.devices ∧
      db'.manifests.find? d = if d = deviceId then
        some (savedManifest device metadata spec (db.manifests.find? deviceId))
      else db.manifests.find? d := by
  rw [updateManifest, Tx.run_get_bind_eq_ok, Tx.run_orElseThrow_bind_eq_ok] at h
  obtain ⟨_, -, h⟩ := h
  obtain ⟨entity, _, hsave, h⟩ := Tx.run_bind_eq_ok.mp h
  obtain ⟨device, hfind, -, rfl, rfl⟩ := saveManifest_run_eq_ok.mp hsave
  obtain ⟨-, rfl⟩ := Prod.mk.inj (Tx.run_pure_eq_ok.mp h)
  refine ⟨device, hfind, rfl, ?_⟩
  show (db.manifests.save _).find? d = _
  rw [Table.find?_save, deviceId_savedManifest hfind]

/-- The rows after a deletion. -/
theorem find?_manifests_deleteDevice {actorUserId : Option UserId}
    (h : (deleteDevice pki env deviceId actorUserId).run db = .ok ((), db')) :
    db'.manifests.find? d = (if d = deviceId then none else db.manifests.find? d) ∧
      db'.devices.find? d = if d = deviceId then none else db.devices.find? d := by
  obtain ⟨device, details, -, rfl⟩ := deleteDevice_cases h
  have hrevoked : ∀ reason, (revokeAllActiveForDevice pki env deviceId device.organizationId reason
      actorUserId db).2.manifests = db.manifests ∧ (revokeAllActiveForDevice pki env deviceId
      device.organizationId reason actorUserId db).2.devices = db.devices := by
    intro reason
    rw [revokeAllActiveForDevice]
    split_ifs
    · exact ⟨rfl, rfl⟩
    · exact ⟨rfl, rfl⟩
  have hrejected : ∀ db reason, (rejectPendingRequestsForDevice env deviceId device.organizationId
      reason actorUserId db).2.manifests = db.manifests ∧
      (rejectPendingRequestsForDevice env deviceId device.organizationId
        reason actorUserId db).2.devices = db.devices := by
    intro db reason
    rw [rejectPendingRequestsForDevice]
    split_ifs
    · exact ⟨rfl, rfl⟩
    · exact ⟨rfl, rfl⟩
  constructor
  · show (((Db.manifests _).delete _).delete _).find? d = _
    rw [Table.find?_delete, Table.find?_delete, deleteDeviceToken, (hrejected _ _).1,
      (hrevoked _).1]
    split_ifs <;> rfl
  · show ((Db.devices _).delete _).find? d = _
    rw [Table.find?_delete, deleteDeviceToken, (hrejected _ _).2, (hrevoked _).2]

/-- A heartbeat of a device that is known writes no manifest. -/
theorem manifests_hear (device : Device) (status : Option DeviceStatus) :
    (hear env deviceId device status db).manifests = db.manifests := by
  rcases status with _ | status <;> rfl

theorem manifests_recordAutoUpdate (value : Bool) :
    (recordAutoUpdate deviceId value db).manifests = db.manifests := by
  rw [recordAutoUpdate]
  rcases db.devices.find? deviceId with _ | device
  · rfl
  · dsimp only
    split_ifs <;> rfl

/-- What a heartbeat of a known device pushes, if it is stored. -/
theorem snd_onHeartbeat {payload : HeartbeatPayload} {device : Device}
    (hid : payload.deviceId = some deviceId) (hblank : isBlank deviceId = false)
    (hfind : db.devices.find? deviceId = some device) :
    (onHeartbeat ctx env (some payload) db).2 =
      if StatusFits (payload.status.map (·.toEntity ctx)) then
        ((db.manifests.find? deviceId).filter fun m => payload.manifestVersion < m.version
          ).toList.map (Outgoing.desiredState deviceId)
      else [] := by
  have hfilter : (payload.deviceId.filter fun d => !isBlank d) = some deviceId :=
    filter_not_isBlank_eq_some.mpr ⟨hid, hblank⟩
  have hmanifests : (hear env deviceId device (payload.status.map (·.toEntity ctx)) db).manifests =
      db.manifests := manifests_hear _ _
  rw [onHeartbeat]
  simp only [hfilter, heartbeat_run_of_known hfind]
  by_cases hfits : StatusFits (payload.status.map (·.toEntity ctx))
  · rw [if_pos hfits, if_pos hfits]
    rcases payload.autoUpdate with _ | value
    · rw [← hmanifests]
    · have hrecorded : (recordAutoUpdate deviceId value
          (hear env deviceId device (payload.status.map (·.toEntity ctx)) db)).manifests =
            (hear env deviceId device (payload.status.map (·.toEntity ctx)) db).manifests :=
        manifests_recordAutoUpdate value
      rw [← hmanifests, ← hrecorded]
  · rw [if_neg hfits, if_neg hfits]

end EdgeGuardian.Controller
