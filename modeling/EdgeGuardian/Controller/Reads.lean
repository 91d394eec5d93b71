import EdgeGuardian.Controller.Commands

/-!
# Reading what a device has recorded

The endpoints that show one device: its row with the latest status, its telemetry, raw and by the
hour, its commands and the results of a command. Each of them loads the device for the organization
of the caller and then queries a table by the device or by the command alone.

The hourly figures come from a continuous aggregate, which groups the raw telemetry by the hour and
the device and keeps what it has computed. Whether the view adds the hours that are not computed
yet, from the raw telemetry, is a setting of the view.

Source: `controller/src/main/java/com/edgeguardian/controller/api/DeviceController.java`,
`api/TelemetryController.java`, `service/TelemetryService.java`, `service/DeviceRegistry.java`,
`repository/DeviceTelemetryRepository.java`, `repository/DeviceCommandRepository.java`,
`dto/DeviceDto.java`, `dto/TelemetryDataPoint.java`,
`controller/src/main/resources/db/migration/V5__telemetry.sql`.

## Main definitions

* `findLatestByDeviceId`, `findByDeviceIdAndTimeRange`, `findHourlyByDeviceIdAndTimeRange`,
  `findByDeviceIdOrderByCreatedAtDesc`: the queries.
* `HourlyView`, `hourlyRows`: the view `device_telemetry_hourly`.
* `getDevice`, `getRawTelemetry`, `getHourlyTelemetry`, `listCommands`: the endpoints.

## Main results

* `findLatestByDeviceId_eq_some`: the latest row is the one that no other row of the device is
  later than.
-/

namespace EdgeGuardian.Controller

/-! ### Answers -/

/-- `DeviceState.name`. -/
def DeviceState.name : DeviceState → String
  | online => "ONLINE"
  | degraded => "DEGRADED"
  | offline => "OFFLINE"
  | suspended => "SUSPENDED"

/-- `DeviceDto`. -/
structure DeviceDto where
  deviceId : String
  hostname : Option String
  architecture : Option String
  os : Option String
  agentVersion : Option String
  labels : List (String × String)
  state : String
  registeredAt : Instant
  lastHeartbeat : Option Instant
  autoUpdate : Option Bool
  status : Option DeviceStatus
deriving DecidableEq, Repr

/-- `DeviceDto.from`. -/
def DeviceDto.from (device : Device) (status : Option DeviceStatus) : DeviceDto where
  deviceId := device.deviceId
  hostname := device.hostname
  architecture := device.architecture
  os := device.os
  agentVersion := device.agentVersion
  labels := device.labels
  state := device.state.name
  registeredAt := device.registeredAt
  lastHeartbeat := device.lastHeartbeat
  autoUpdate := device.autoUpdate
  status := status

/-- `TelemetryDataPoint`; an hourly point has no status. -/
structure TelemetryDataPoint where
  time : Instant
  cpuUsagePercent : UInt64
  memoryUsedBytes : ℤ
  memoryTotalBytes : ℤ
  diskUsedBytes : ℤ
  diskTotalBytes : ℤ
  uptimeSeconds : ℤ
  reconcileStatus : Option String
deriving DecidableEq, Repr

/-- `TelemetryDataPoint.from`. -/
def TelemetryDataPoint.from (t : DeviceTelemetry) : TelemetryDataPoint where
  time := t.time
  cpuUsagePercent := t.status.cpuUsagePercent
  memoryUsedBytes := t.status.memoryUsedBytes
  memoryTotalBytes := t.status.memoryTotalBytes
  diskUsedBytes := t.status.diskUsedBytes
  diskTotalBytes := t.status.diskTotalBytes
  uptimeSeconds := t.status.uptimeSeconds
  reconcileStatus := some t.status.reconcileStatus

/-! ### Queries -/

/-- `findLatestByDeviceId`: `ORDER BY time DESC LIMIT 1`. -/
def findLatestByDeviceId (rows : List DeviceTelemetry) (deviceId : String) :
    Option DeviceTelemetry :=
  ((rows.filter fun t => t.deviceId = deviceId).insertionSort fun a b => b.time ≤ a.time).head?

/-- The condition of `findByDeviceIdAndTimeRange`. -/
def InRange (deviceId : String) (start stop : Instant) (t : DeviceTelemetry) : Prop :=
  t.deviceId = deviceId ∧ start ≤ t.time ∧ t.time ≤ stop

instance (deviceId : String) (start stop : Instant) : DecidablePred (InRange deviceId start stop) :=
  fun _ => inferInstanceAs (Decidable (_ ∧ _))

/-- `findByDeviceIdAndTimeRange`. -/
def findByDeviceIdAndTimeRange (rows : List DeviceTelemetry) (deviceId : String)
    (start stop : Instant) : List DeviceTelemetry :=
  (rows.filter fun t => InRange deviceId start stop t).insertionSort fun a b => a.time ≤ b.time

/-- What the database and its driver contribute to the view `device_telemetry_hourly`. -/
structure HourlyView where
  /-- `AVG` of a `DOUBLE PRECISION` column. -/
  avgDouble : List UInt64 → UInt64
  /-- `AVG` of a `BIGINT` column, as the driver reads it into a `long`. -/
  avgLong : List ℤ → ℤ
  /-- Where the view computes hours from the raw rows, the first of them. -/
  realTimeFrom : Option Instant

/-- The view computes the hour from the raw rows. -/
def HourlyView.RealTime (view : HourlyView) (bucket : Instant) : Prop :=
  ∃ watermark ∈ view.realTimeFrom, watermark ≤ bucket

instance (view : HourlyView) : DecidablePred view.RealTime := fun _ =>
  inferInstanceAs (Decidable (∃ _ ∈ _, _))

/-- The samples of a row of the view, with its hour. -/
abbrev HourlyRow := Instant × List DeviceTelemetry

/-- The condition on materialized rows in `findHourlyByDeviceIdAndTimeRange`. -/
def InHourlyRange (view : HourlyView) (deviceId : String) (start stop : Instant)
    (h : DeviceTelemetryHourly) : Prop :=
  h.deviceId = deviceId ∧ ¬ view.RealTime h.bucket ∧ start ≤ h.bucket ∧ h.bucket ≤ stop

/-- The condition on the raw rows behind `findHourlyByDeviceIdAndTimeRange`. -/
def InRealTimeRange (view : HourlyView) (deviceId : String) (start stop : Instant)
    (t : DeviceTelemetry) : Prop :=
  t.deviceId = deviceId ∧ view.RealTime (timeBucket t.time) ∧ start ≤ timeBucket t.time ∧
    timeBucket t.time ≤ stop

instance (view : HourlyView) (deviceId : String) (start stop : Instant) :
    DecidablePred (InHourlyRange view deviceId start stop) :=
  fun _ => inferInstanceAs (Decidable (_ ∧ _))

instance (view : HourlyView) (deviceId : String) (start stop : Instant) :
    DecidablePred (InRealTimeRange view deviceId start stop) :=
  fun _ => inferInstanceAs (Decidable (_ ∧ _))

/-- The raw rows, grouped by their hours. -/
def groupByHour (rows : List DeviceTelemetry) : List HourlyRow :=
  (rows.map fun t => timeBucket t.time).dedup.map fun bucket =>
    (bucket, rows.filter fun t => timeBucket t.time = bucket)

/-- The rows of the view for a device in a range. -/
def hourlyRows (view : HourlyView) (db : Db) (deviceId : String) (start stop : Instant) :
    List HourlyRow :=
  ((db.hourly.rows.filter fun h => InHourlyRange view deviceId start stop h).map
      fun h => (h.bucket, h.samples)) ++
    groupByHour (db.telemetry.rows.filter fun t => InRealTimeRange view deviceId start stop t)

/-- A row of the view, as a data point. -/
def hourlyPoint (view : HourlyView) (row : HourlyRow) : TelemetryDataPoint where
  time := row.1
  cpuUsagePercent := view.avgDouble (row.2.map (·.status.cpuUsagePercent))
  memoryUsedBytes := view.avgLong (row.2.map (·.status.memoryUsedBytes))
  memoryTotalBytes := view.avgLong (row.2.map (·.status.memoryTotalBytes))
  diskUsedBytes := view.avgLong (row.2.map (·.status.diskUsedBytes))
  diskTotalBytes := view.avgLong (row.2.map (·.status.diskTotalBytes))
  uptimeSeconds := (row.2.map (·.status.uptimeSeconds)).max?.getD 0
  reconcileStatus := none

/-- `findHourlyByDeviceIdAndTimeRange`, mapped to data points. -/
def findHourlyByDeviceIdAndTimeRange (view : HourlyView) (db : Db) (deviceId : String)
    (start stop : Instant) : List TelemetryDataPoint :=
  ((hourlyRows view db deviceId start stop).insertionSort fun a b => a.1 ≤ b.1).map
    (hourlyPoint view)

/-- `findByDeviceIdOrderByCreatedAtDesc`. -/
def findByDeviceIdOrderByCreatedAtDesc (rows : List DeviceCommand) (deviceId : String) :
    List DeviceCommand :=
  (rows.filter fun c => c.deviceId = deviceId).insertionSort fun a b => b.createdAt ≤ a.createdAt

/-- The latest row of a device is the row that no other row of the device is later than. -/
theorem findLatestByDeviceId_eq_some {rows : List DeviceTelemetry} {deviceId : String}
    {t : DeviceTelemetry} (hrows : (rows.map DeviceTelemetry.id).Nodup) :
    findLatestByDeviceId rows deviceId = some t ↔
      t ∈ rows ∧ t.deviceId = deviceId ∧
        ∀ t' ∈ rows, t'.deviceId = deviceId → t'.time ≤ t.time := by
  rw [findLatestByDeviceId]
  constructor
  · intro h
    obtain ⟨ht, hdevice, hlast⟩ := Table.head?_query h
    exact ⟨ht, of_decide_eq_true hdevice, fun t' ht' hdevice' =>
      hlast t' ht' (decide_eq_true hdevice')⟩
  · rintro ⟨ht, hdevice, hlast⟩
    obtain ⟨u, hu⟩ := Table.exists_head?_query (r := fun a b : DeviceTelemetry => b.time ≤ a.time)
      (q := fun t => t.deviceId = deviceId) ht (decide_eq_true hdevice)
    obtain ⟨hmem, hudevice, hulast⟩ := Table.head?_query hu
    have hudevice : u.deviceId = deviceId := of_decide_eq_true hudevice
    -- Two rows of the device that are not earlier than one another have the same key.
    have hid : u.id = t.id := by
      rw [DeviceTelemetry.id, DeviceTelemetry.id, hudevice, hdevice,
        le_antisymm (hlast u hmem hudevice) (hulast t ht (decide_eq_true hdevice))]
    rw [hu, List.inj_on_of_nodup_map hrows hmem ht hid]

/-! ### The endpoints -/

/-- `loadForTenant`, and `assertOwnership` of the telemetry endpoints. -/
def loadForTenant (deviceId : String) (principal : TenantPrincipal) (db : Db) :
    Except ServiceError Device :=
  match findByIdForOrganization db deviceId principal.organizationId with
  | none => .error (.status 404 ("Device not found: " ++ deviceId))
  | some device => .ok device

/-- `DeviceController.getDevice`. -/
def getDevice (deviceId : String) (principal : TenantPrincipal) (db : Db) :
    Except ServiceError DeviceDto := do
  let device ← loadForTenant deviceId principal db
  return .from device
    ((findLatestByDeviceId db.telemetry.rows deviceId).map DeviceTelemetry.status)

/-- `TelemetryController.getRawTelemetry`; `now` and `now'` are the times at which a missing start
and a missing end are filled in. -/
def getRawTelemetry (now now' : Instant) (deviceId : String) (start stop : Option Instant)
    (principal : TenantPrincipal) (db : Db) : Except ServiceError (List TelemetryDataPoint) := do
  let _ ← loadForTenant deviceId principal db
  return (findByDeviceIdAndTimeRange db.telemetry.rows deviceId
    (start.getD (now - Duration.ofHours 1)) (stop.getD now')).map .from

/-- `TelemetryController.getHourlyTelemetry`. -/
def getHourlyTelemetry (view : HourlyView) (now now' : Instant) (deviceId : String)
    (start stop : Option Instant) (principal : TenantPrincipal) (db : Db) :
    Except ServiceError (List TelemetryDataPoint) := do
  let _ ← loadForTenant deviceId principal db
  return findHourlyByDeviceIdAndTimeRange view db deviceId
    (start.getD (now - Duration.ofHours 24)) (stop.getD now')

/-- `DeviceController.listCommands`. -/
def listCommands (deviceId : String) (principal : TenantPrincipal) (db : Db) :
    Except ServiceError (List DeviceCommand) := do
  let _ ← loadForTenant deviceId principal db
  return findByDeviceIdOrderByCreatedAtDesc db.commands.rows deviceId

end EdgeGuardian.Controller
