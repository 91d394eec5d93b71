import EdgeGuardian.Controller.CrlCompleteness

/-!
# Deleting a device

Deleting a device runs over five tables: its certificates are revoked, its pending requests are
rejected, its token and its manifest are deleted, and the foreign keys of the schema take what is
left with the device row. Two foreign keys do not cascade: a certificate refers to its request and
to its successor, and a row that a certificate of another device refers to cannot be deleted.

Source: `controller/src/main/java/com/edgeguardian/controller/service/DeviceLifecycleService.java`,
`DeviceRegistry.java`, `CertificateService.java`,
`controller/src/main/resources/db/migration/V1__core.sql`, `V4__pki.sql`.

## Main definitions

* `ForeignKeys`: what the foreign keys of the schema require of a database.
* `deleteDeviceRestricted`: `deleteDevice`, where references restrict it.
* `Gone`, `OthersUnchanged`: nothing is left of the device, and all is left of the others.

## Main results

* `rows_of_deleteDevice`: the rows of the five tables after a committed deletion.
* `deleteDevice_complete_and_framed`: when a deletion commits, and what it leaves.
-/

namespace EdgeGuardian.Controller

/-! ### Foreign keys -/

/-- The request and the successor that a certificate refers to are rows: the foreign keys without
cascade. -/
def ReferencesHold (db : Db) : Prop :=
  ∀ c ∈ db.certificates.rows, (∀ i ∈ c.requestId, (db.requests.find? i).isSome) ∧
    ∀ n ∈ c.replacedBy, (db.certificates.find? n).isSome

instance (db : Db) : Decidable (ReferencesHold db) :=
  inferInstanceAs (Decidable (∀ c ∈ db.certificates.rows,
    (∀ i ∈ c.requestId, (db.requests.find? i).isSome) ∧
      ∀ n ∈ c.replacedBy, (db.certificates.find? n).isSome))

/-- The foreign keys between the tables of a database. -/
structure ForeignKeys (db : Db) : Prop where
  manifests : ∀ m ∈ db.manifests.rows, (db.devices.find? m.deviceId).isSome
  deviceTokens : ∀ t ∈ db.deviceTokens.rows, (db.devices.find? t.deviceId).isSome
  requests : ∀ r ∈ db.requests.rows, (db.devices.find? r.deviceId).isSome
  certificates : ∀ c ∈ db.certificates.rows, (db.devices.find? c.deviceId).isSome
  references : ReferencesHold db

/-- `DeviceLifecycleService.deleteDevice`, which fails where rows that are left refer to rows that
are deleted. -/
def deleteDeviceRestricted (pki : PkiContext) (env : Env) (deviceId : String)
    (actorUserId : Option UserId) : Service Unit := do
  deleteDevice pki env deviceId actorUserId
  let db ← get
  Tx.require (ReferencesHold db) .dataIntegrity

/-- A certificate of another device refers to a request or to a certificate of the device. -/
def ReferredToByOthers (deviceId : String) (db : Db) : Prop :=
  ∃ c ∈ db.certificates.rows, c.deviceId ≠ deviceId ∧
    ((∃ i ∈ c.requestId, ∃ r ∈ db.requests.find? i, r.deviceId = deviceId) ∨
      ∃ n ∈ c.replacedBy, ∃ c' ∈ db.certificates.find? n, c'.deviceId = deviceId)

instance (deviceId : String) (db : Db) : Decidable (ReferredToByOthers deviceId db) :=
  inferInstanceAs (Decidable (∃ c ∈ db.certificates.rows, c.deviceId ≠ deviceId ∧
    ((∃ i ∈ c.requestId, ∃ r ∈ db.requests.find? i, r.deviceId = deviceId) ∨
      ∃ n ∈ c.replacedBy, ∃ c' ∈ db.certificates.find? n, c'.deviceId = deviceId)))

/-! ### What is left -/

/-- No row of the device is left: neither the device, its manifest and its token, nor a pending
request or a certificate that is active at some time. -/
structure Gone (deviceId : String) (db : Db) : Prop where
  device : db.devices.find? deviceId = none
  manifest : db.manifests.find? deviceId = none
  deviceToken : db.deviceTokens.find? deviceId = none
  request : ∀ r ∈ db.requests.rows, r.deviceId = deviceId → r.state ≠ .pending
  certificate : ∀ c ∈ db.certificates.rows, ∀ env, ¬ ActiveForDevice env deviceId c

/-- The rows of all other devices are as they were. -/
structure OthersUnchanged (deviceId : String) (db db' : Db) : Prop where
  devices : AgreeOff (fun d => d.deviceId = deviceId) db.devices.rows db'.devices.rows
  manifests : AgreeOff (fun m => m.deviceId = deviceId) db.manifests.rows db'.manifests.rows
  deviceTokens :
    AgreeOff (fun t => t.deviceId = deviceId) db.deviceTokens.rows db'.deviceTokens.rows
  requests : AgreeOff (fun r => r.deviceId = deviceId) db.requests.rows db'.requests.rows
  certificates :
    AgreeOff (fun c => c.deviceId = deviceId) db.certificates.rows db'.certificates.rows

/-- The tables without the rows of the device. -/
structure RowsTaken (deviceId : String) (db db' : Db) : Prop where
  devices : db'.devices.rows = db.devices.rows.filter fun d => ¬ d.deviceId = deviceId
  manifests : db'.manifests.rows = db.manifests.rows.filter fun m => ¬ m.deviceId = deviceId
  deviceTokens :
    db'.deviceTokens.rows = db.deviceTokens.rows.filter fun t => ¬ t.deviceId = deviceId
  requests : db'.requests.rows = db.requests.rows.filter fun r => ¬ r.deviceId = deviceId
  certificates :
    db'.certificates.rows = db.certificates.rows.filter fun c => ¬ c.deviceId = deviceId

section Deletion

variable {pki : PkiContext} {env : Env} {db db' : Db} {deviceId : String}
  {actorUserId : Option UserId}

theorem agreeOff_certificates_revokeAll (pki : PkiContext) (env : Env) (deviceId : String)
    (orgId : OrganizationId) (reason : RevokeReason) (actorUserId : Option UserId) (db : Db) :
    AgreeOff (fun c => c.deviceId = deviceId) db.certificates.rows
      (revokeAllActiveForDevice pki env deviceId orgId reason actorUserId db).2.certificates.rows
      := by
  simp only [revokeAllActiveForDevice]
  split_ifs
  · rfl
  · exact SerialTable.agreeOff_modify fun _ _ hactive => ⟨hactive.1, hactive.1⟩

theorem agreeOff_requests_rejectPending (env : Env) (deviceId : String)
    (orgId : OrganizationId) (reason : Option String) (actorUserId : Option UserId) (db : Db) :
    AgreeOff (fun r => r.deviceId = deviceId) db.requests.rows
      (rejectPendingRequestsForDevice env deviceId orgId reason actorUserId db).2.requests.rows
      := by
  simp only [rejectPendingRequestsForDevice]
  split_ifs
  · rfl
  · exact SerialTable.agreeOff_modify fun _ _ hpending => ⟨hpending.1, hpending.1⟩

/-- Revoking writes certificates and lists. -/
theorem tables_revokeAll (pki : PkiContext) (env : Env) (deviceId : String)
    (orgId : OrganizationId) (reason : RevokeReason) (actorUserId : Option UserId) (db : Db) :
    let db' := (revokeAllActiveForDevice pki env deviceId orgId reason actorUserId db).2
    db'.devices = db.devices ∧ db'.manifests = db.manifests ∧
      db'.deviceTokens = db.deviceTokens ∧ db'.requests = db.requests := by
  simp only [revokeAllActiveForDevice]
  split_ifs
  · exact ⟨rfl, rfl, rfl, rfl⟩
  · exact ⟨rfl, rfl, rfl, rfl⟩

/-- Rejecting writes requests. -/
theorem tables_rejectPending (env : Env) (deviceId : String)
    (orgId : OrganizationId) (reason : Option String) (actorUserId : Option UserId) (db : Db) :
    let db' := (rejectPendingRequestsForDevice env deviceId orgId reason actorUserId db).2
    db'.devices = db.devices ∧ db'.manifests = db.manifests ∧
      db'.deviceTokens = db.deviceTokens ∧ db'.certificates = db.certificates := by
  simp only [rejectPendingRequestsForDevice]
  split_ifs
  · exact ⟨rfl, rfl, rfl, rfl⟩
  · exact ⟨rfl, rfl, rfl, rfl⟩

/-- Deleting rows twice is deleting them once. -/
theorem filter_not_filter_not {α : Type*} (p : α → Prop) [DecidablePred p] (rows : List α) :
    (rows.filter fun a => ¬ p a).filter (fun a => ¬ p a) = rows.filter fun a => ¬ p a := by
  rw [List.filter_filter]
  simp

/-- The five tables after a committed deletion: the rows of the device are taken out. -/
theorem rows_of_deleteDevice
    (h : (deleteDevice pki env deviceId actorUserId).run db = .ok ((), db')) :
    RowsTaken deviceId db db' := by
  obtain ⟨device, details, -, rfl⟩ := deleteDevice_cases h
  obtain ⟨hdevices, hmanifests, htokens, hrequests⟩ :=
    tables_revokeAll pki env deviceId device.organizationId .deviceDeleted actorUserId db
  have hcertificates := agreeOff_certificates_revokeAll pki env deviceId device.organizationId
    .deviceDeleted actorUserId db
  generalize (revokeAllActiveForDevice pki env deviceId device.organizationId .deviceDeleted
    actorUserId db).2 = db₁ at *
  obtain ⟨hdevices', hmanifests', htokens', hcertificates'⟩ :=
    tables_rejectPending env deviceId device.organizationId (some "Device deleted") actorUserId db₁
  have hrequests' := agreeOff_requests_rejectPending env deviceId device.organizationId
    (some "Device deleted") actorUserId db₁
  generalize (rejectPendingRequestsForDevice env deviceId device.organizationId
    (some "Device deleted") actorUserId db₁).2 = db₂ at *
  refine ⟨?_, ?_, ?_, ?_, ?_⟩
  · rw [← hdevices, ← hdevices']
    rfl
  · rw [← hmanifests, ← hmanifests']
    exact filter_not_filter_not _ _
  · rw [← htokens, ← htokens']
    exact filter_not_filter_not _ _
  · rw [← hrequests]
    exact hrequests'
  · rw [← hcertificates'] at hcertificates
    exact hcertificates

theorem RowsTaken.gone (h : RowsTaken deviceId db db') : Gone deviceId db' := by
  refine ⟨?_, ?_, ?_, fun r hr hid => ?_, fun c hc env hactive => ?_⟩
  · rw [Table.find?_eq_none, h.devices]
    intro d hd
    simpa using (List.mem_filter.mp hd).2
  · rw [Table.find?_eq_none, h.manifests]
    intro m hm
    simpa using (List.mem_filter.mp hm).2
  · rw [Table.find?_eq_none, h.deviceTokens]
    intro t ht
    simpa using (List.mem_filter.mp ht).2
  · rw [h.requests] at hr
    exact absurd hid (by simpa using (List.mem_filter.mp hr).2)
  · rw [h.certificates] at hc
    exact absurd hactive.1 (by simpa using (List.mem_filter.mp hc).2)

theorem RowsTaken.othersUnchanged (h : RowsTaken deviceId db db') :
    OthersUnchanged deviceId db db' := by
  refine ⟨?_, ?_, ?_, ?_, ?_⟩
  · rw [AgreeOff, h.devices, filter_not_filter_not]
  · rw [AgreeOff, h.manifests, filter_not_filter_not]
  · rw [AgreeOff, h.deviceTokens, filter_not_filter_not]
  · rw [AgreeOff, h.requests, filter_not_filter_not]
  · rw [AgreeOff, h.certificates, filter_not_filter_not]

/-- A row is found among the rows that are left iff it was found before and is left. -/
theorem isSome_find?_iff_of_filter {α κ : Type*} [DecidableEq κ] {key : α → κ}
    {t t' : Table α key} {p : α → Prop} [DecidablePred p]
    (h : t'.rows = t.rows.filter fun a => ¬ p a) (k : κ) :
    (t'.find? k).isSome ↔ ∃ a ∈ t.find? k, ¬ p a := by
  rw [Table.find?, h, ← Table.filter_find?_eq]
  simp only [Option.isSome_iff_exists, Option.filter_eq_some_iff, decide_eq_true_eq,
    Option.mem_def]

/-- The references hold after the rows of the device are taken out iff no certificate of another
device refers to one of them. -/
theorem RowsTaken.referencesHold_iff (h : RowsTaken deviceId db db') (hdb : ReferencesHold db) :
    ReferencesHold db' ↔ ¬ ReferredToByOthers deviceId db := by
  have hmem : ∀ c, c ∈ db'.certificates.rows ↔
      c ∈ db.certificates.rows ∧ c.deviceId ≠ deviceId := by
    intro c
    rw [h.certificates, List.mem_filter, decide_eq_true_eq]
  constructor
  · rintro hrefs ⟨c, hc, hother, ⟨i, hi, r, hr, hdevice⟩ | ⟨n, hn, c', hc', hdevice⟩⟩
    · have hsome := (hrefs c ((hmem c).mpr ⟨hc, hother⟩)).1 i hi
      obtain ⟨r', hr', hne⟩ := (isSome_find?_iff_of_filter h.requests i).mp hsome
      rw [Option.mem_unique hr hr'] at hdevice
      exact hne hdevice
    · have hsome := (hrefs c ((hmem c).mpr ⟨hc, hother⟩)).2 n hn
      obtain ⟨b, hb, hne⟩ := (isSome_find?_iff_of_filter h.certificates n).mp hsome
      rw [Option.mem_unique hc' hb] at hdevice
      exact hne hdevice
  · intro hothers c hc
    obtain ⟨hc, hother⟩ := (hmem c).mp hc
    refine ⟨fun i hi => ?_, fun n hn => ?_⟩
    · obtain ⟨r, hr⟩ := Option.isSome_iff_exists.mp ((hdb c hc).1 i hi)
      refine (isSome_find?_iff_of_filter h.requests i).mpr ⟨r, hr, fun hdevice => hothers ?_⟩
      exact ⟨c, hc, hother, .inl ⟨i, hi, r, hr, hdevice⟩⟩
    · obtain ⟨b, hb⟩ := Option.isSome_iff_exists.mp ((hdb c hc).2 n hn)
      refine (isSome_find?_iff_of_filter h.certificates n).mpr ⟨b, hb, fun hdevice => hothers ?_⟩
      exact ⟨c, hc, hother, .inr ⟨n, hn, b, hb, hdevice⟩⟩

theorem deleteDeviceRestricted_run_eq_ok :
    (deleteDeviceRestricted pki env deviceId actorUserId).run db = .ok ((), db') ↔
      (deleteDevice pki env deviceId actorUserId).run db = .ok ((), db') ∧
        ReferencesHold db' := by
  rw [deleteDeviceRestricted, Tx.run_bind_eq_ok]
  constructor
  · rintro ⟨_, u, hdelete, h⟩
    rw [Tx.run_get_bind_eq_ok, Tx.run_require_eq_ok] at h
    obtain ⟨hrefs, h⟩ := h
    cases h
    exact ⟨hdelete, hrefs⟩
  · rintro ⟨hdelete, hrefs⟩
    refine ⟨(), db', hdelete, ?_⟩
    rw [Tx.run_get_bind_eq_ok, Tx.run_require_eq_ok]
    exact ⟨hrefs, rfl⟩

/-- A device that there is can be deleted. -/
theorem exists_deleteDevice {device : Device} (hdevice : db.devices.find? deviceId = some device) :
    ∃ db', (deleteDevice pki env deviceId actorUserId).run db = .ok ((), db') := by
  simp only [deleteDevice, Tx.run_get_bind_eq_ok, Tx.run_orElseThrow_bind_eq_ok,
    Tx.run_set_bind_eq_ok, Tx.run_modify_bind_eq_ok, Tx.run_modify_eq_ok, hdevice,
    Option.some.injEq, exists_eq_left', Prod.mk.injEq, true_and]
  exact ⟨_, rfl⟩

/-- A device that there is not cannot be deleted. -/
theorem deleteDeviceRestricted_run_of_find?_eq_none (hdevice : db.devices.find? deviceId = none) :
    (deleteDeviceRestricted pki env deviceId actorUserId).run db =
      .error (.status 404 ("Device not found: " ++ deviceId)) := by
  refine Tx.run_bind_of_run_eq_error ?_
  rw [deleteDevice, Tx.run_get_bind, hdevice]
  rfl

end Deletion

/-- **Deleting a device.** On every database that meets the foreign keys: a device that there is
can be deleted iff no certificate of another device refers to its rows, and then nothing of it is
left, and all rows of other devices are as they were; for a device that there is not the deletion
throws, and nothing changes. -/
theorem deleteDevice_complete_and_framed {pki : PkiContext} {env : Env} {db : Db}
    {deviceId : String} {actorUserId : Option UserId} (hdb : ForeignKeys db) :
    ((∃ db', (deleteDeviceRestricted pki env deviceId actorUserId).run db = .ok ((), db')) ↔
      (db.devices.find? deviceId).isSome ∧ ¬ ReferredToByOthers deviceId db) ∧
    (∀ db', (deleteDeviceRestricted pki env deviceId actorUserId).run db = .ok ((), db') →
      Gone deviceId db' ∧ OthersUnchanged deviceId db db') ∧
    (db.devices.find? deviceId = none →
      (deleteDeviceRestricted pki env deviceId actorUserId).run db =
        .error (.status 404 ("Device not found: " ++ deviceId)) ∧
      (deleteDeviceRestricted pki env deviceId actorUserId).commit db = db) := by
  refine ⟨⟨?_, ?_⟩, ?_, ?_⟩
  · rintro ⟨db', h⟩
    obtain ⟨hdelete, hrefs⟩ := deleteDeviceRestricted_run_eq_ok.mp h
    obtain ⟨device, -, hfind, -⟩ := deleteDevice_cases hdelete
    refine ⟨Option.isSome_iff_exists.mpr ⟨device, hfind⟩, ?_⟩
    exact ((rows_of_deleteDevice hdelete).referencesHold_iff hdb.references).mp hrefs
  · rintro ⟨hdevice, hothers⟩
    obtain ⟨device, hfind⟩ := Option.isSome_iff_exists.mp hdevice
    obtain ⟨db', hdelete⟩ := exists_deleteDevice hfind
    have hrefs := ((rows_of_deleteDevice hdelete).referencesHold_iff hdb.references).mpr hothers
    exact ⟨db', deleteDeviceRestricted_run_eq_ok.mpr ⟨hdelete, hrefs⟩⟩
  · intro db' h
    have htaken := rows_of_deleteDevice (deleteDeviceRestricted_run_eq_ok.mp h).1
    exact ⟨htaken.gone, htaken.othersUnchanged⟩
  · intro hnone
    have hrun : (deleteDeviceRestricted pki env deviceId actorUserId).run db = _ :=
      deleteDeviceRestricted_run_of_find?_eq_none hnone
    exact ⟨hrun, Tx.commit_of_run_eq_error hrun⟩

/-! ### Two devices -/

namespace TwoDevices

/-- The device enrols and asks for its identity certificate. -/
def joins (now : Instant) (deviceId : String) : List (Env × Operation) :=
  [(⟨now, now, deviceId⟩, .enrollDevice "a" deviceId ⟨none, none, none, none, none⟩),
    (⟨now, now, "edt"⟩, .processRequest
      ⟨deviceId, 1, some "device-identity", some deviceId, [], some "csr", .manifest, none⟩)]

/-- The devices `d` and `e`, each with a token, a request and a certificate. -/
def db : Db :=
  (Transition.exec (step Reenrolment.pki) (Db.empty Reenrolment.tokens)
    (joins 1 "d" ++ joins 2 "e")).getD (Db.empty .empty)

theorem foreignKeys_db : ForeignKeys db where
  manifests := by decide +kernel
  deviceTokens := by decide +kernel
  requests := by decide +kernel
  certificates := by decide +kernel
  references := by decide +kernel

end TwoDevices

/-- The device `d` is deleted, and the device `e` stays with its certificate. -/
theorem deleteDevice_of_two_devices :
    ∃ db', (ForeignKeys TwoDevices.db ∧
      (deleteDeviceRestricted Reenrolment.pki ⟨3, 3, ""⟩ "d" none).run TwoDevices.db =
        .ok ((), db')) ∧
      Gone "d" db' ∧ OthersUnchanged "d" TwoDevices.db db' := by
  have hothers : ¬ ReferredToByOthers "d" TwoDevices.db := by decide +kernel
  obtain ⟨hcommits, hcommitted, -⟩ := deleteDevice_complete_and_framed TwoDevices.foreignKeys_db
  obtain ⟨db', h⟩ := hcommits.mpr ⟨by decide +kernel, hothers⟩
  exact ⟨db', ⟨TwoDevices.foreignKeys_db, h⟩, hcommitted db' h⟩

end EdgeGuardian.Controller
