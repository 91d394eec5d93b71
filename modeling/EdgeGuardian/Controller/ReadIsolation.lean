import EdgeGuardian.Controller.Reads
import Mathlib.Data.List.Dedup

/-!
# What the reads of one tenant depend on

A row belongs to an organization if its column `organization_id` says so or, in a table without that
column, if its device does. The endpoints that read a device check that the device belongs to the
organization of the caller. They then query by the device or by the command, so that they also
return rows of another organization: the telemetry and the commands of a device from the time when
it was enrolled elsewhere, and what any device has reported under the id of the command.

This module says exactly when the answer depends on the own rows only: when every row that decides
it is one of them.

Source: `controller/src/main/java/com/edgeguardian/controller/api/DeviceController.java`,
`api/TelemetryController.java`, `repository/DeviceTelemetryRepository.java`,
`repository/CommandExecutionRepository.java`.

## Main definitions

* `OwnRows`, `ownRows`: the rows that belong to an organization.
* `DeviceRead`, `DeviceRead.answer`: the endpoints, and their answers.
* `DeviceRead.DecidedByOwn`: the rows that decide an answer belong to the organization.

## Main results

* `DeviceRead.answer_eq_of_decidedByOwn`: two states with the same own rows give one answer.
* `DeviceRead.answer_ne_altered`: a row of another organization that decides the answer shows in it.
* `reads_isolated_of_decidedByOwn`: both together.
-/

namespace EdgeGuardian.Controller

/-! ### The rows of an organization -/

/-- The device belongs to the organization. -/
def DeviceOf (orgId : OrganizationId) (db : Db) (deviceId : String) : Bool :=
  (findByIdForOrganization db deviceId orgId).isSome

/-- Rows of all tables. -/
structure OwnRows where
  devices : List Device
  deviceTokens : List DeviceToken
  manifests : List DeviceManifestEntity
  enrollmentTokens : List EnrollmentToken
  requests : List CertificateRequest
  certificates : List IssuedCertificate
  crls : List CertificateRevocationList
  telemetry : List DeviceTelemetry
  hourly : List DeviceTelemetryHourly
  commands : List DeviceCommand
  executions : List CommandExecution
  auditLog : List AuditLog

/-- The rows that belong to the organization; a row of hourly telemetry belongs to it if all rows do
that it was made of. -/
def ownRows (orgId : OrganizationId) (db : Db) : OwnRows where
  devices := db.devices.rows.filter fun d => d.organizationId = orgId
  deviceTokens := db.deviceTokens.rows.filter fun t => DeviceOf orgId db t.deviceId
  manifests := db.manifests.rows.filter fun m => m.organizationId = orgId
  enrollmentTokens := db.enrollmentTokens.rows.filter fun t => t.organizationId = orgId
  requests := db.requests.rows.filter fun r => r.organizationId = orgId
  certificates := db.certificates.rows.filter fun c => c.organizationId = orgId
  crls := db.crls.rows.filter fun l => l.organizationId = orgId
  telemetry := db.telemetry.rows.filter fun t => t.organizationId = orgId
  hourly := db.hourly.rows.filter fun h => ∀ t ∈ h.samples, t.organizationId = orgId
  commands := db.commands.rows.filter fun c => c.organizationId = orgId
  executions := db.executions.rows.filter fun e => DeviceOf orgId db e.deviceId
  auditLog := db.auditLog.filter fun a => a.organizationId = some orgId

section OwnRows

variable {orgId : OrganizationId} {db db' : Db}

/-- A device is looked up for an organization among the own rows. -/
theorem findByIdForOrganization_congr (h : ownRows orgId db = ownRows orgId db')
    (deviceId : String) :
    findByIdForOrganization db deviceId orgId = findByIdForOrganization db' deviceId orgId := by
  have hdevices := congrArg OwnRows.devices h
  simp only [ownRows] at hdevices
  rw [findByIdForOrganization, findByIdForOrganization, Table.filter_find?_eq,
    Table.filter_find?_eq, hdevices]

theorem deviceOf_congr (h : ownRows orgId db = ownRows orgId db') :
    DeviceOf orgId db = DeviceOf orgId db' := by
  funext deviceId
  rw [DeviceOf, DeviceOf, findByIdForOrganization_congr h]

theorem mem_telemetry_congr (h : ownRows orgId db = ownRows orgId db') {t : DeviceTelemetry}
    (ht : t ∈ db.telemetry.rows) (howner : t.organizationId = orgId) : t ∈ db'.telemetry.rows := by
  have htelemetry := congrArg OwnRows.telemetry h
  have hmem : t ∈ (ownRows orgId db).telemetry :=
    List.mem_filter.mpr ⟨ht, decide_eq_true howner⟩
  rw [htelemetry] at hmem
  exact List.mem_of_mem_filter hmem

end OwnRows

/-! ### The endpoints -/

/-- The endpoints that read a device. -/
inductive DeviceRead
  | getDevice
  | getRawTelemetry (start stop : Option Instant)
  | getHourlyTelemetry (start stop : Option Instant)
  | listCommands
  | getCommandResults (commandId : String)
deriving DecidableEq, Repr

/-- The body of an answer. -/
inductive ReadResult
  | device (dto : DeviceDto)
  | telemetry (points : List TelemetryDataPoint)
  | commands (commands : List DeviceCommand)
  | executions (executions : List CommandExecution)

/-- What a read takes from outside: the hourly view and the clock. -/
structure ReadEnv where
  view : HourlyView
  /-- The clock where a missing start is filled in. -/
  now : Instant
  /-- The clock where a missing end is filled in. -/
  now' : Instant

namespace DeviceRead

/-- The answer of an endpoint. -/
def answer (env : ReadEnv) (principal : TenantPrincipal) (deviceId : String) (db : Db) :
    DeviceRead → Except ServiceError ReadResult
  | getDevice => (Controller.getDevice deviceId principal db).map .device
  | getRawTelemetry start stop =>
    (Controller.getRawTelemetry env.now env.now' deviceId start stop principal db).map .telemetry
  | getHourlyTelemetry start stop =>
    (Controller.getHourlyTelemetry env.view env.now env.now' deviceId start stop principal db).map
      .telemetry
  | listCommands => (Controller.listCommands deviceId principal db).map .commands
  | getCommandResults commandId =>
    (Controller.getCommandResults principal deviceId commandId db).map .executions

/-- The body that the queries of an endpoint give for a device that was loaded. -/
def body (env : ReadEnv) (deviceId : String) (db : Db) (device : Device) :
    DeviceRead → ReadResult
  | getDevice => .device
    (.from device ((findLatestByDeviceId db.telemetry.rows deviceId).map DeviceTelemetry.status))
  | getRawTelemetry start stop => .telemetry
    ((findByDeviceIdAndTimeRange db.telemetry.rows deviceId
      (start.getD (env.now - Duration.ofHours 1)) (stop.getD env.now')).map .from)
  | getHourlyTelemetry start stop => .telemetry
    (findHourlyByDeviceIdAndTimeRange env.view db deviceId
      (start.getD (env.now - Duration.ofHours 24)) (stop.getD env.now'))
  | listCommands => .commands (findByDeviceIdOrderByCreatedAtDesc db.commands.rows deviceId)
  | getCommandResults commandId => .executions (findByCommandIdOrderByReceivedAtAsc db commandId)

/-- Every row that decides the answer for a device of the organization belongs to it. -/
def DecidedByOwn (env : ReadEnv) (orgId : OrganizationId) (deviceId : String) (db : Db) :
    DeviceRead → Prop
  | getDevice => ∀ t ∈ db.telemetry.rows, t.deviceId = deviceId → t.organizationId ≠ orgId →
    ∃ t' ∈ db.telemetry.rows, t'.deviceId = deviceId ∧ t'.organizationId = orgId ∧ t.time < t'.time
  | getRawTelemetry start stop => ∀ t ∈ db.telemetry.rows,
    InRange deviceId (start.getD (env.now - Duration.ofHours 1)) (stop.getD env.now') t →
      t.organizationId = orgId
  | getHourlyTelemetry start stop => ∀ row ∈ hourlyRows env.view db deviceId
    (start.getD (env.now - Duration.ofHours 24)) (stop.getD env.now'),
      ∀ t ∈ row.2, t.organizationId = orgId
  | listCommands => ∀ c ∈ db.commands.rows, c.deviceId = deviceId → c.organizationId = orgId
  | getCommandResults commandId =>
    ∀ e ∈ db.executions.rows, e.commandId = commandId → DeviceOf orgId db e.deviceId

variable {env : ReadEnv} {principal : TenantPrincipal} {deviceId : String} {db db' : Db}

/-- An endpoint loads the device and then answers with the result of its queries. -/
theorem answer_eq (r : DeviceRead) : r.answer env principal deviceId db =
    match findByIdForOrganization db deviceId principal.organizationId with
    | none => .error (.status 404 ("Device not found: " ++ deviceId))
    | some device => .ok (r.body env deviceId db device) := by
  cases r <;>
    simp only [answer, body, Controller.getDevice, Controller.getRawTelemetry,
      Controller.getHourlyTelemetry, Controller.listCommands, Controller.getCommandResults,
      loadForTenant] <;>
    rcases findByIdForOrganization db deviceId principal.organizationId with _ | device <;> rfl

/-! ### Own rows decide the answer -/

/-- The latest row of a device is the same where the own rows are, if it is one of them. -/
theorem findLatestByDeviceId_congr {orgId : OrganizationId}
    (h : ownRows orgId db = ownRows orgId db')
    (hdb : DecidedByOwn env orgId deviceId db .getDevice)
    (hdb' : DecidedByOwn env orgId deviceId db' .getDevice) :
    findLatestByDeviceId db.telemetry.rows deviceId =
      findLatestByDeviceId db'.telemetry.rows deviceId := by
  -- The latest row of one state is the latest row of the other one.
  have htransfer : ∀ {db db' : Db}, ownRows orgId db = ownRows orgId db' →
      DecidedByOwn env orgId deviceId db .getDevice →
      DecidedByOwn env orgId deviceId db' .getDevice → ∀ t,
      findLatestByDeviceId db.telemetry.rows deviceId = some t →
      findLatestByDeviceId db'.telemetry.rows deviceId = some t := by
    intro db db' h hdb hdb' t ht
    obtain ⟨ht, hdevice, hlast⟩ := (findLatestByDeviceId_eq_some db.telemetry.nodup).mp ht
    have howner : t.organizationId = orgId := by
      by_contra hforeign
      obtain ⟨t', ht', hdevice', -, hlt⟩ := hdb t ht hdevice hforeign
      exact absurd (hlast t' ht' hdevice') (Nat.not_le.mpr hlt)
    refine (findLatestByDeviceId_eq_some db'.telemetry.nodup).mpr
      ⟨mem_telemetry_congr h ht howner, hdevice, fun t' ht' hdevice' => ?_⟩
    by_cases howner' : t'.organizationId = orgId
    · exact hlast t' (mem_telemetry_congr h.symm ht' howner') hdevice'
    · obtain ⟨t'', ht'', hdevice'', howner'', hlt⟩ := hdb' t' ht' hdevice' howner'
      have hle := hlast t'' (mem_telemetry_congr h.symm ht'' howner'') hdevice''
      exact (Nat.le_of_lt hlt).trans hle
  rcases hlatest : findLatestByDeviceId db.telemetry.rows deviceId with _ | t
  · rcases hlatest' : findLatestByDeviceId db'.telemetry.rows deviceId with _ | t'
    · rfl
    · rw [htransfer h.symm hdb' hdb t' hlatest'] at hlatest
      exact nomatch hlatest
  · exact (htransfer h hdb hdb' t hlatest).symm

/-- The rows that a query on the telemetry matches are the same where the own rows are. -/
theorem filter_telemetry_congr {orgId : OrganizationId} {q : DeviceTelemetry → Prop}
    [DecidablePred q] (h : ownRows orgId db = ownRows orgId db')
    (hdb : ∀ t ∈ db.telemetry.rows, q t → t.organizationId = orgId)
    (hdb' : ∀ t ∈ db'.telemetry.rows, q t → t.organizationId = orgId) :
    (db.telemetry.rows.filter fun t => q t) = db'.telemetry.rows.filter fun t => q t :=
  Table.filter_eq_of_filter_eq (congrArg OwnRows.telemetry h)
    (fun t ht hq => decide_eq_true (hdb t ht (of_decide_eq_true hq)))
    fun t ht hq => decide_eq_true (hdb' t ht (of_decide_eq_true hq))

theorem mem_groupByHour {rows : List DeviceTelemetry} {t : DeviceTelemetry} (ht : t ∈ rows) :
    ∃ row ∈ groupByHour rows, t ∈ row.2 := by
  refine ⟨_, List.mem_map_of_mem (List.mem_dedup.mpr (List.mem_map_of_mem ht)), ?_⟩
  exact List.mem_filter.mpr ⟨ht, decide_eq_true rfl⟩

/-- The rows of the hourly view are the same where the own rows are, if they are made of such. -/
theorem hourlyRows_congr {orgId : OrganizationId} {view : HourlyView} {start stop : Instant}
    (h : ownRows orgId db = ownRows orgId db')
    (hdb : ∀ row ∈ hourlyRows view db deviceId start stop, ∀ t ∈ row.2, t.organizationId = orgId)
    (hdb' : ∀ row ∈ hourlyRows view db' deviceId start stop, ∀ t ∈ row.2,
      t.organizationId = orgId) :
    hourlyRows view db deviceId start stop = hourlyRows view db' deviceId start stop := by
  have hmaterialized : ∀ {db : Db}, (∀ row ∈ hourlyRows view db deviceId start stop, ∀ t ∈ row.2,
      t.organizationId = orgId) → ∀ a ∈ db.hourly.rows,
      decide (InHourlyRange view deviceId start stop a) →
        decide (∀ t ∈ a.samples, t.organizationId = orgId) := by
    intro db hdb a ha hrange
    refine decide_eq_true (hdb (a.bucket, a.samples) (List.mem_append_left _ ?_))
    exact List.mem_map_of_mem (List.mem_filter.mpr ⟨ha, hrange⟩)
  have hrealTime : ∀ {db : Db}, (∀ row ∈ hourlyRows view db deviceId start stop, ∀ t ∈ row.2,
      t.organizationId = orgId) → ∀ t ∈ db.telemetry.rows,
      InRealTimeRange view deviceId start stop t → t.organizationId = orgId := by
    intro db hdb t ht hrange
    have hlive : t ∈ db.telemetry.rows.filter fun t => InRealTimeRange view deviceId start stop t :=
      List.mem_filter.mpr ⟨ht, decide_eq_true hrange⟩
    obtain ⟨row, hrow, hmem⟩ := mem_groupByHour hlive
    exact hdb row (List.mem_append_right _ hrow) t hmem
  rw [hourlyRows, hourlyRows, filter_telemetry_congr h (hrealTime hdb) (hrealTime hdb'),
    Table.filter_eq_of_filter_eq (congrArg OwnRows.hourly h) (hmaterialized hdb)
      (hmaterialized hdb')]

theorem body_congr {orgId : OrganizationId} {r : DeviceRead}
    (h : ownRows orgId db = ownRows orgId db') (hdb : r.DecidedByOwn env orgId deviceId db)
    (hdb' : r.DecidedByOwn env orgId deviceId db') (device : Device) :
    r.body env deviceId db device = r.body env deviceId db' device := by
  cases r with
  | getDevice => rw [body, body, findLatestByDeviceId_congr h hdb hdb']
  | getRawTelemetry start stop =>
    rw [body, body, findByDeviceIdAndTimeRange, findByDeviceIdAndTimeRange,
      filter_telemetry_congr h hdb hdb']
  | getHourlyTelemetry start stop =>
    rw [body, body, findHourlyByDeviceIdAndTimeRange, findHourlyByDeviceIdAndTimeRange,
      hourlyRows_congr h hdb hdb']
  | listCommands =>
    have hrows : (db.commands.rows.filter fun c => c.deviceId = deviceId) =
        db'.commands.rows.filter fun c => c.deviceId = deviceId :=
      Table.filter_eq_of_filter_eq (congrArg OwnRows.commands h)
        (fun c hc hq => decide_eq_true (hdb c hc (of_decide_eq_true hq)))
        fun c hc hq => decide_eq_true (hdb' c hc (of_decide_eq_true hq))
    rw [body, body, findByDeviceIdOrderByCreatedAtDesc, findByDeviceIdOrderByCreatedAtDesc, hrows]
  | getCommandResults commandId =>
    have hexecutions := congrArg OwnRows.executions h
    simp only [ownRows, ← deviceOf_congr h] at hexecutions
    have hrows : (db.executions.rows.filter fun e => e.commandId = commandId) =
        db'.executions.rows.filter fun e => e.commandId = commandId := by
      refine Table.filter_eq_of_filter_eq hexecutions
        (fun e he hq => hdb e he (of_decide_eq_true hq)) fun e he hq => ?_
      rw [deviceOf_congr h]
      exact hdb' e he (of_decide_eq_true hq)
    rw [body, body, findByCommandIdOrderByReceivedAtAsc, findByCommandIdOrderByReceivedAtAsc, hrows]

/-- Two states with the same own rows give the same answer, where own rows decide it. -/
theorem answer_eq_of_decidedByOwn {r : DeviceRead}
    (h : ownRows principal.organizationId db = ownRows principal.organizationId db')
    (hdb : DeviceOf principal.organizationId db deviceId →
      r.DecidedByOwn env principal.organizationId deviceId db)
    (hdb' : DeviceOf principal.organizationId db' deviceId →
      r.DecidedByOwn env principal.organizationId deviceId db') :
    r.answer env principal deviceId db = r.answer env principal deviceId db' := by
  have hfind := findByIdForOrganization_congr h deviceId
  rw [answer_eq, answer_eq, ← hfind]
  rcases hdevice : findByIdForOrganization db deviceId principal.organizationId with _ | device
  · rfl
  · have hown : DeviceOf principal.organizationId db deviceId := by
      rw [DeviceOf, hdevice, Option.isSome_some]
    have hown' : DeviceOf principal.organizationId db' deviceId := by
      rwa [deviceOf_congr h] at hown
    show Except.ok _ = Except.ok _
    rw [body_congr h (hdb hown) (hdb' hown') device]

end DeviceRead

/-! ### Other rows show in the answer -/

/-- Both states have the same rows up to what the rows record: they have the same keys, and belong
to the same devices, commands and organizations. -/
structure SameKeys (db db' : Db) : Prop where
  telemetry : db'.telemetry.rows.map (fun t => (t.time, t.deviceId, t.organizationId)) =
    db.telemetry.rows.map fun t => (t.time, t.deviceId, t.organizationId)
  hourly : db'.hourly.rows.map (fun h => (h.bucket, h.deviceId,
      h.samples.map fun t => (t.time, t.deviceId, t.organizationId))) =
    db.hourly.rows.map fun h => (h.bucket, h.deviceId,
      h.samples.map fun t => (t.time, t.deviceId, t.organizationId))
  commands : db'.commands.rows.map (fun c => (c.id, c.commandId, c.deviceId, c.organizationId)) =
    db.commands.rows.map fun c => (c.id, c.commandId, c.deviceId, c.organizationId)
  executions : db'.executions.rows.map (fun e => (e.id, e.commandId, e.deviceId)) =
    db.executions.rows.map fun e => (e.id, e.commandId, e.deviceId)

/-- The greatest uptime that was recorded. -/
def maxUptime (rows : List DeviceTelemetry) : ℤ := (rows.map (·.status.uptimeSeconds)).max?.getD 0

/-- A row of telemetry with another uptime. -/
def DeviceTelemetry.withUptime (uptimeSeconds : ℤ) (t : DeviceTelemetry) : DeviceTelemetry :=
  { t with status := { t.status with uptimeSeconds } }

/-- The rows with another uptime in those of the other organizations. -/
def raised (orgId : OrganizationId) (uptimeSeconds : ℤ) (rows : List DeviceTelemetry) :
    List DeviceTelemetry :=
  Table.modifyRows (fun t => t.organizationId ≠ orgId) (·.withUptime uptimeSeconds) rows

/-- An hour that was made of such rows. -/
def DeviceTelemetryHourly.raised (orgId : OrganizationId) (uptimeSeconds : ℤ)
    (h : DeviceTelemetryHourly) : DeviceTelemetryHourly where
  bucket := h.bucket
  deviceId := h.deviceId
  samples := Controller.raised orgId uptimeSeconds h.samples
  nonempty := mt List.map_eq_nil_iff.mp h.nonempty
  grouped t ht := by
    rcases Table.mem_modifyRows.mp ht with ⟨u, hu, -, rfl⟩ | ⟨ht, -⟩
    · exact h.grouped u hu
    · exact h.grouped t ht

/-- All rows of telemetry, also those that only the hourly figures were made of. -/
def allSamples (db : Db) : List DeviceTelemetry :=
  db.telemetry.rows ++ db.hourly.rows.flatMap DeviceTelemetryHourly.samples

/-- An uptime that no row has. -/
def unseenUptime (db : Db) : ℤ := maxUptime (allSamples db) + 1

/-- A command with a longer timeout. -/
def DeviceCommand.prolonged (c : DeviceCommand) : DeviceCommand :=
  { c with timeoutSeconds := c.timeoutSeconds + 1 }

/-- An execution that took longer. -/
def CommandExecution.prolonged (e : CommandExecution) : CommandExecution :=
  { e with durationMs := e.durationMs + 1 }

/-- The database with other records in all rows of telemetry, commands and executions that do not
belong to the organization. -/
def altered (orgId : OrganizationId) (db : Db) : Db :=
  { db with
    telemetry := db.telemetry.modify (fun t => t.organizationId ≠ orgId)
      (·.withUptime (unseenUptime db)) fun _ => rfl
    hourly := db.hourly.modify (fun _ => True) (·.raised orgId (unseenUptime db)) fun _ => rfl
    commands := db.commands.modify (fun c => c.organizationId ≠ orgId) (·.prolonged) fun _ => rfl
    executions := db.executions.modify (fun e => DeviceOf orgId db e.deviceId = false)
      (·.prolonged) fun _ => rfl }

section Altered

variable {orgId : OrganizationId} {db : Db}

theorem sameKeys_altered : SameKeys db (altered orgId db) where
  telemetry := Table.map_modifyRows _ (f := DeviceTelemetry.withUptime _) (fun _ => rfl) _
  hourly := by
    refine Table.map_modifyRows (fun _ => True)
      (f := DeviceTelemetryHourly.raised orgId (unseenUptime db)) (fun h => ?_) _
    exact congrArg (h.bucket, h.deviceId, ·)
      (Table.map_modifyRows _ (f := DeviceTelemetry.withUptime _) (fun _ => rfl) _)
  commands := Table.map_modifyRows _ (f := DeviceCommand.prolonged) (fun _ => rfl) _
  executions := Table.map_modifyRows (fun e => DeviceOf orgId db e.deviceId = false)
    (f := CommandExecution.prolonged) (fun _ => rfl) _

/-- The own rows are not among those altered. -/
theorem filter_modifyRows_of_disjoint {α : Type} {c : α → Prop} [DecidablePred c] {f : α → α}
    {q : α → Bool} (hf : ∀ a, q (f a) = q a) (hc : ∀ a, q a → ¬ c a) (rows : List α) :
    (Table.modifyRows c f rows).filter q = rows.filter q := by
  rw [Table.filter_modifyRows hf, Table.modifyRows]
  refine (List.map_congr_left fun a ha => ?_).trans (List.map_id _)
  exact if_neg (hc a (List.mem_filter.mp ha).2)

theorem raised_eq_self {uptime : ℤ} {rows : List DeviceTelemetry}
    (h : ∀ t ∈ rows, t.organizationId = orgId) : raised orgId uptime rows = rows :=
  (List.map_congr_left fun t ht => if_neg (not_not.mpr (h t ht))).trans (List.map_id _)

/-- Own hours are not altered, and no hour becomes one. -/
theorem filter_hourly_altered :
    ((altered orgId db).hourly.rows.filter fun h => ∀ t ∈ h.samples, t.organizationId = orgId) =
      db.hourly.rows.filter fun h => ∀ t ∈ h.samples, t.organizationId = orgId := by
  have hown : ∀ h : DeviceTelemetryHourly,
      (∀ t ∈ (h.raised orgId (unseenUptime db)).samples, t.organizationId = orgId) ↔
        ∀ t ∈ h.samples, t.organizationId = orgId := by
    intro h
    have howners : (raised orgId (unseenUptime db) h.samples).map (·.organizationId) =
        h.samples.map (·.organizationId) :=
      Table.map_modifyRows _ (f := DeviceTelemetry.withUptime _) (fun _ => rfl) _
    rw [← List.forall_mem_map (f := DeviceTelemetry.organizationId) (P := (· = orgId)),
      ← List.forall_mem_map (f := DeviceTelemetry.organizationId) (P := (· = orgId))]
    exact Iff.of_eq (congrArg (∀ o ∈ ·, o = orgId) howners)
  refine (Table.filter_modifyRows (f := DeviceTelemetryHourly.raised orgId (unseenUptime db))
    (fun h => decide_eq_decide.mpr (hown h)) _).trans ?_
  refine (List.map_congr_left fun h hh => ?_).trans (List.map_id _)
  have hsamples : raised orgId (unseenUptime db) h.samples = h.samples :=
    raised_eq_self (of_decide_eq_true (List.mem_filter.mp hh).2)
  rw [if_pos trivial]
  cases h
  simp only [DeviceTelemetryHourly.raised, hsamples, id]

theorem ownRows_altered : ownRows orgId db = ownRows orgId (altered orgId db) := by
  have htelemetry := filter_modifyRows_of_disjoint (c := fun t => t.organizationId ≠ orgId)
    (f := (·.withUptime (unseenUptime db)))
    (q := fun t => t.organizationId = orgId) (fun _ => rfl) (by simp) db.telemetry.rows
  have hcommands := filter_modifyRows_of_disjoint (c := fun c => c.organizationId ≠ orgId)
    (f := DeviceCommand.prolonged) (q := fun c => c.organizationId = orgId) (fun _ => rfl)
    (by simp) db.commands.rows
  have hexecutions := filter_modifyRows_of_disjoint
    (c := fun e => DeviceOf orgId db e.deviceId = false) (f := CommandExecution.prolonged)
    (q := fun e => DeviceOf orgId db e.deviceId) (fun _ => rfl) (by simp) db.executions.rows
  rw [ownRows, ownRows]
  congr 1
  · exact htelemetry.symm
  · exact filter_hourly_altered.symm
  · exact hcommands.symm
  · exact hexecutions.symm

/-- A list of integers has a maximum in it, if it has an element. -/
theorem mem_max?_getD {l : List ℤ} {x : ℤ} (hx : x ∈ l) :
    l.max?.getD 0 ∈ l ∧ x ≤ l.max?.getD 0 := by
  rcases hm : l.max? with _ | m
  · rw [List.max?_eq_none_iff.mp hm] at hx
    exact absurd hx List.not_mem_nil
  · obtain ⟨hmem, hle⟩ := List.max?_eq_some_iff.mp hm
    exact ⟨hmem, hle x hx⟩

theorem uptime_le_maxUptime {rows : List DeviceTelemetry} {t : DeviceTelemetry} (ht : t ∈ rows) :
    t.status.uptimeSeconds ≤ maxUptime rows :=
  (mem_max?_getD (List.mem_map_of_mem ht)).2

/-- The rows that a query by other columns than the status matches in the altered database. -/
theorem filter_telemetry_altered {q : DeviceTelemetry → Bool}
    (hq : ∀ t uptime, q (t.withUptime uptime) = q t) :
    (altered orgId db).telemetry.rows.filter q =
      Table.modifyRows (fun t => t.organizationId ≠ orgId)
        (·.withUptime (unseenUptime db)) (db.telemetry.rows.filter q) :=
  Table.filter_modifyRows (fun t => hq t _) db.telemetry.rows

theorem findLatestByDeviceId_altered (deviceId : String) :
    findLatestByDeviceId (altered orgId db).telemetry.rows deviceId =
      (findLatestByDeviceId db.telemetry.rows deviceId).map fun t =>
        if t.organizationId ≠ orgId then t.withUptime (unseenUptime db) else t := by
  have hquery := Table.query_modifyRows (c := fun t => t.organizationId ≠ orgId)
    (f := (·.withUptime (unseenUptime db))) (q := fun t => t.deviceId = deviceId)
    (r := fun a b => b.time ≤ a.time) (fun _ => rfl) (fun _ _ => Iff.rfl) (fun _ _ => Iff.rfl)
    db.telemetry.rows
  rw [findLatestByDeviceId, findLatestByDeviceId, ← List.head?_map]
  exact congrArg List.head? hquery

theorem findByDeviceIdAndTimeRange_altered (deviceId : String) (start stop : Instant) :
    findByDeviceIdAndTimeRange (altered orgId db).telemetry.rows deviceId start stop =
      Table.modifyRows (fun t => t.organizationId ≠ orgId)
        (·.withUptime (unseenUptime db))
        (findByDeviceIdAndTimeRange db.telemetry.rows deviceId start stop) := by
  exact Table.query_modifyRows (f := DeviceTelemetry.withUptime _) (fun _ => rfl)
    (fun _ _ => Iff.rfl) (fun _ _ => Iff.rfl) db.telemetry.rows

theorem groupByHour_raised (uptime : ℤ) (rows : List DeviceTelemetry) :
    groupByHour (raised orgId uptime rows) =
      (groupByHour rows).map fun row => (row.1, raised orgId uptime row.2) := by
  have hbuckets : (raised orgId uptime rows).map (fun t => timeBucket t.time) =
      rows.map fun t => timeBucket t.time :=
    Table.map_modifyRows _ (f := DeviceTelemetry.withUptime _) (fun _ => rfl) rows
  rw [groupByHour, groupByHour, hbuckets, List.map_map]
  refine List.map_congr_left fun bucket _ => ?_
  rw [raised, Table.filter_modifyRows (f := DeviceTelemetry.withUptime _) (fun _ => rfl)]
  rfl

/-- The view shows the same hours in the altered database, of samples with another uptime. -/
theorem hourlyRows_altered (view : HourlyView) (deviceId : String) (start stop : Instant) :
    hourlyRows view (altered orgId db) deviceId start stop =
      (hourlyRows view db deviceId start stop).map fun row =>
        (row.1, raised orgId (unseenUptime db) row.2) := by
  have hmaterialized : (altered orgId db).hourly.rows.filter
      (fun h => InHourlyRange view deviceId start stop h) =
      Table.modifyRows (fun _ => True) (·.raised orgId (unseenUptime db))
        (db.hourly.rows.filter fun h => InHourlyRange view deviceId start stop h) :=
    Table.filter_modifyRows (f := DeviceTelemetryHourly.raised orgId (unseenUptime db))
      (fun _ => rfl) _
  rw [hourlyRows, hourlyRows, hmaterialized, filter_telemetry_altered fun _ _ => rfl,
    List.map_append]
  congr 1
  · rw [Table.modifyRows, List.map_map, List.map_map]
    rfl
  · exact groupByHour_raised _ _

/-- A sample of another organization raises the greatest uptime of its hour. -/
theorem maxUptime_lt_raised {uptime : ℤ} {rows : List DeviceTelemetry}
    (huptime : maxUptime rows < uptime) {t : DeviceTelemetry} (ht : t ∈ rows)
    (hforeign : t.organizationId ≠ orgId) :
    maxUptime rows < maxUptime (raised orgId uptime rows) := by
  have hmem : t.withUptime uptime ∈ raised orgId uptime rows :=
    Table.mem_modifyRows.mpr (.inl ⟨t, ht, hforeign, rfl⟩)
  exact huptime.trans_le (uptime_le_maxUptime hmem)

/-- The samples of the hours that the view shows. -/
theorem mem_allSamples {view : HourlyView} {deviceId : String} {start stop : Instant}
    {row : HourlyRow} (hrow : row ∈ hourlyRows view db deviceId start stop) {t : DeviceTelemetry}
    (ht : t ∈ row.2) : t ∈ allSamples db := by
  rcases List.mem_append.mp hrow with hrow | hrow
  · obtain ⟨h, hh, rfl⟩ := List.mem_map.mp hrow
    exact List.mem_append_right _ (List.mem_flatMap.mpr ⟨h, List.mem_of_mem_filter hh, ht⟩)
  · obtain ⟨bucket, -, rfl⟩ := List.mem_map.mp hrow
    exact List.mem_append_left _ (List.mem_of_mem_filter (List.mem_of_mem_filter ht))

theorem maxUptime_lt_unseenUptime {rows : List DeviceTelemetry} {t : DeviceTelemetry}
    (ht : t ∈ rows) (hrows : ∀ t ∈ rows, t ∈ allSamples db) :
    maxUptime rows < unseenUptime db := by
  obtain ⟨u, hu, hmax⟩ := List.mem_map.mp
    (mem_max?_getD (List.mem_map_of_mem (f := (·.status.uptimeSeconds)) ht)).1
  rw [maxUptime, ← hmax]
  exact Int.lt_add_one_of_le (uptime_le_maxUptime (hrows u hu))

/-- An ordered query by columns that `f` keeps matches none of the rows that `f` changes if it
returns the same rows as before. -/
theorem not_of_query_eq {α : Type} {c : α → Prop} [DecidablePred c] {f : α → α}
    (hf : ∀ a, f a ≠ a) {q : α → Bool} (hq : ∀ a, q (f a) = q a) {r : α → α → Prop}
    [DecidableRel r] (hl : ∀ a b, r (f a) b ↔ r a b) (hr : ∀ a b, r a (f b) ↔ r a b)
    {rows : List α}
    (h : ((Table.modifyRows c f rows).filter q).insertionSort r = (rows.filter q).insertionSort r)
    {a : α} (ha : a ∈ rows) (hqa : q a) : ¬ c a := by
  intro hc
  rw [Table.query_modifyRows hq hl hr] at h
  have hmap := h.trans (List.map_id _).symm
  have heq := List.map_inj_left.mp hmap a (Table.mem_query.mpr ⟨ha, hqa⟩)
  rw [if_pos hc] at heq
  exact hf a heq

theorem DeviceCommand.prolonged_ne (c : DeviceCommand) : c.prolonged ≠ c := by
  intro h
  have htimeout : c.timeoutSeconds + 1 = c.timeoutSeconds := congrArg DeviceCommand.timeoutSeconds h
  omega

theorem CommandExecution.prolonged_ne (e : CommandExecution) : e.prolonged ≠ e := by
  intro h
  have hduration : e.durationMs + 1 = e.durationMs := congrArg CommandExecution.durationMs h
  omega

/-- Where no own row is later than a row of another organization, the latest row is such a row. -/
theorem findLatestByDeviceId_foreign {deviceId : String} {t : DeviceTelemetry}
    (ht : t ∈ db.telemetry.rows) (hdevice : t.deviceId = deviceId)
    (hforeign : t.organizationId ≠ orgId)
    (hlater : ¬ ∃ t' ∈ db.telemetry.rows, t'.deviceId = deviceId ∧ t'.organizationId = orgId ∧
      t.time < t'.time) :
    ∃ u, findLatestByDeviceId db.telemetry.rows deviceId = some u ∧ u.organizationId ≠ orgId := by
  obtain ⟨u, hlatest⟩ : ∃ u, findLatestByDeviceId db.telemetry.rows deviceId = some u :=
    Table.exists_head?_query ht (decide_eq_true hdevice)
  refine ⟨u, hlatest, fun howner => ?_⟩
  obtain ⟨hu, hudevice, hlast⟩ := (findLatestByDeviceId_eq_some db.telemetry.nodup).mp hlatest
  -- An own row is not later than `t` and not earlier, so that it is `t` by the key of the table.
  have htime : t.time = u.time := by
    refine le_antisymm (hlast t ht hdevice) (Nat.le_of_not_lt fun hlt => hlater ?_)
    exact ⟨u, hu, hudevice, howner, hlt⟩
  have hid : t.id = u.id := by
    rw [DeviceTelemetry.id, DeviceTelemetry.id, htime, hdevice, hudevice]
  rw [List.inj_on_of_nodup_map db.telemetry.nodup ht hu hid] at hforeign
  exact hforeign howner

theorem unseenUptime_ne {t : DeviceTelemetry} (ht : t ∈ db.telemetry.rows) :
    unseenUptime db ≠ t.status.uptimeSeconds := by
  have hle := uptime_le_maxUptime (List.mem_append_left
    (db.hourly.rows.flatMap DeviceTelemetryHourly.samples) ht)
  rw [unseenUptime, allSamples]
  omega

/-- The status of the latest row shows whose row it is. -/
theorem decidedByOwn_getDevice {env : ReadEnv} {deviceId : String} {device : Device}
    (h : DeviceRead.getDevice.body env deviceId (altered orgId db) device =
      DeviceRead.getDevice.body env deviceId db device) :
    DeviceRead.getDevice.DecidedByOwn env orgId deviceId db := by
  intro t ht hdevice hforeign
  by_contra hlater
  obtain ⟨u, hlatest, howner⟩ := findLatestByDeviceId_foreign ht hdevice hforeign hlater
  simp only [DeviceRead.body, ReadResult.device.injEq, findLatestByDeviceId_altered] at h
  have hstatus := congrArg DeviceDto.status h
  simp only [DeviceDto.from] at hstatus
  rw [hlatest, Option.map_some, Option.map_some, Option.map_some, if_pos howner] at hstatus
  have huptime : unseenUptime db = u.status.uptimeSeconds :=
    congrArg DeviceStatus.uptimeSeconds (Option.some.inj hstatus)
  have hu := ((findLatestByDeviceId_eq_some db.telemetry.nodup).mp hlatest).1
  exact unseenUptime_ne hu huptime

/-- Every row in the range is a point of its own. -/
theorem decidedByOwn_getRawTelemetry {env : ReadEnv} {deviceId : String} {device : Device}
    {start stop : Option Instant}
    (h : (DeviceRead.getRawTelemetry start stop).body env deviceId (altered orgId db) device =
      (DeviceRead.getRawTelemetry start stop).body env deviceId db device) :
    (DeviceRead.getRawTelemetry start stop).DecidedByOwn env orgId deviceId db := by
  intro t ht hrange
  by_contra hforeign
  simp only [DeviceRead.body, ReadResult.telemetry.injEq, findByDeviceIdAndTimeRange_altered,
    Table.modifyRows, List.map_map, List.map_inj_left, Function.comp_apply] at h
  have hpoint := h t (Table.mem_query.mpr ⟨ht, decide_eq_true hrange⟩)
  rw [if_pos hforeign] at hpoint
  exact unseenUptime_ne ht (congrArg TelemetryDataPoint.uptimeSeconds hpoint)

/-- Every sample counts in the greatest uptime of its hour. -/
theorem decidedByOwn_getHourlyTelemetry {env : ReadEnv} {deviceId : String} {device : Device}
    {start stop : Option Instant}
    (h : (DeviceRead.getHourlyTelemetry start stop).body env deviceId (altered orgId db) device =
      (DeviceRead.getHourlyTelemetry start stop).body env deviceId db device) :
    (DeviceRead.getHourlyTelemetry start stop).DecidedByOwn env orgId deviceId db := by
  intro row hrow t ht
  by_contra hforeign
  simp only [DeviceRead.body, ReadResult.telemetry.injEq, findHourlyByDeviceIdAndTimeRange,
    hourlyRows_altered] at h
  rw [← List.map_insertionSort (fun a b => a.1 ≤ b.1) (fun a b => a.1 ≤ b.1)
    (fun row : HourlyRow => (row.1, raised orgId (unseenUptime db) row.2)) _
    (fun _ _ _ _ => Iff.rfl), List.map_map, List.map_inj_left] at h
  have huptime : maxUptime (raised orgId (unseenUptime db) row.2) = maxUptime row.2 :=
    congrArg TelemetryDataPoint.uptimeSeconds (h row ((List.mem_insertionSort _).mpr hrow))
  have hunseen := maxUptime_lt_unseenUptime ht fun u hu => mem_allSamples hrow hu
  exact absurd huptime (maxUptime_lt_raised hunseen ht hforeign).ne'

/-- An answer that does not show the alteration is decided by own rows. -/
theorem DeviceRead.decidedByOwn_of_body_eq {env : ReadEnv} {deviceId : String} {device : Device}
    {r : DeviceRead}
    (h : r.body env deviceId (altered orgId db) device = r.body env deviceId db device) :
    r.DecidedByOwn env orgId deviceId db := by
  cases r with
  | getDevice => exact decidedByOwn_getDevice h
  | getRawTelemetry start stop => exact decidedByOwn_getRawTelemetry h
  | getHourlyTelemetry start stop => exact decidedByOwn_getHourlyTelemetry h
  | listCommands =>
    intro c hc hdevice
    by_contra hforeign
    simp only [body, ReadResult.commands.injEq, findByDeviceIdOrderByCreatedAtDesc] at h
    exact not_of_query_eq DeviceCommand.prolonged_ne (fun _ => rfl) (fun _ _ => Iff.rfl)
      (fun _ _ => Iff.rfl) h hc (decide_eq_true hdevice) hforeign
  | getCommandResults commandId =>
    intro e he hcommand
    by_contra hforeign
    simp only [body, ReadResult.executions.injEq, findByCommandIdOrderByReceivedAtAsc] at h
    exact not_of_query_eq CommandExecution.prolonged_ne (fun _ => rfl) (fun _ _ => Iff.rfl)
      (fun _ _ => Iff.rfl) h he (decide_eq_true hcommand) (Bool.not_eq_true _ ▸ hforeign)

/-- A row of another organization that decides the answer shows in it. -/
theorem DeviceRead.answer_ne_altered {env : ReadEnv} {principal : TenantPrincipal}
    {deviceId : String} {r : DeviceRead} (hown : DeviceOf principal.organizationId db deviceId)
    (h : ¬ r.DecidedByOwn env principal.organizationId deviceId db) :
    r.answer env principal deviceId db ≠
      r.answer env principal deviceId (altered principal.organizationId db) := by
  intro heq
  rw [answer_eq, answer_eq, ← findByIdForOrganization_congr ownRows_altered] at heq
  obtain ⟨device, hdevice⟩ := Option.isSome_iff_exists.mp hown
  rw [hdevice] at heq
  exact h (decidedByOwn_of_body_eq (Except.ok.inj heq).symm)

end Altered

/-- **Read isolation.** Two states with the same rows of the caller's organization give the same
answer if in both of them the rows that decide it are own rows. This is needed: where another row
decides the answer, there is a state with the same own rows and the same keys that gives another
answer. -/
theorem reads_isolated_of_decidedByOwn (env : ReadEnv) (principal : TenantPrincipal)
    (deviceId : String) (r : DeviceRead) :
    (∀ db db', ownRows principal.organizationId db = ownRows principal.organizationId db' →
      (DeviceOf principal.organizationId db deviceId →
        r.DecidedByOwn env principal.organizationId deviceId db) →
      (DeviceOf principal.organizationId db' deviceId →
        r.DecidedByOwn env principal.organizationId deviceId db') →
      r.answer env principal deviceId db = r.answer env principal deviceId db') ∧
    ∀ db, DeviceOf principal.organizationId db deviceId →
      ¬ r.DecidedByOwn env principal.organizationId deviceId db →
      ∃ db', ownRows principal.organizationId db = ownRows principal.organizationId db' ∧
        SameKeys db db' ∧
        r.answer env principal deviceId db ≠ r.answer env principal deviceId db' := by
  refine ⟨fun db db' h hdb hdb' => DeviceRead.answer_eq_of_decidedByOwn h hdb hdb', ?_⟩
  intro db hown h
  exact ⟨altered principal.organizationId db, ownRows_altered, sameKeys_altered,
    DeviceRead.answer_ne_altered hown h⟩

/-! ### A device that moved to another organization -/

namespace Moved

/-- One enrolment token for each of the organizations 1 and 2. -/
def tokenRows : List EnrollmentToken :=
  [{ id := 1, organizationId := 1, token := "a", name := "a", expiresAt := none, maxUses := none,
     useCount := 0, revoked := false },
   { id := 2, organizationId := 2, token := "b", name := "b", expiresAt := none, maxUses := none,
     useCount := 0, revoked := false }]

/-- The table of the two tokens. -/
def tokens : Table EnrollmentToken EnrollmentToken.token where
  rows := tokenRows
  nodup := by decide

/-- The device enrols with the token of organization 2, sends a heartbeat with a status or without
one, and enrols again with the token of organization 1. -/
def run (status : Option DeviceStatus) : Db :=
  let facts : DeviceFacts := ⟨none, none, none, none, none⟩
  let db := (enrollDevice default ⟨1, 0, "edt-1"⟩ "b" "d" facts).commit (Db.empty tokens)
  let db := (heartbeat ⟨2, 0, ""⟩ "d" status).commit db
  (enrollDevice default ⟨3, 0, "edt-3"⟩ "a" "d" facts).commit db

/-- A status. -/
def status : DeviceStatus := ⟨0, 1, 2, 3, 4, 5, none, "converged"⟩

/-- The status that an answer shows. -/
def shownStatus : Except ServiceError ReadResult → Option DeviceStatus
  | .ok (.device dto) => dto.status
  | _ => none

end Moved

/-- A member of organization 1 sees the status that the device reported as one of organization 2:
the two states differ in one row of telemetry, which belongs to organization 2. -/
theorem getDevice_shows_foreign_status :
    ¬ ∀ (env : ReadEnv) (principal : TenantPrincipal) (deviceId : String) (r : DeviceRead)
      (db db' : Db), ownRows principal.organizationId db = ownRows principal.organizationId db' →
        r.answer env principal deviceId db = r.answer env principal deviceId db' := by
  intro h
  have hrows : ownRows 1 (Moved.run (some Moved.status)) = ownRows 1 (Moved.run none) := rfl
  have heq := h ⟨⟨fun _ => 0, fun _ => 0, none⟩, 4, 4⟩ ⟨1, 7⟩ "d" .getDevice _ _ hrows
  have hshown := congrArg Moved.shownStatus heq
  exact absurd hshown (by decide +kernel)

end EdgeGuardian.Controller
