import EdgeGuardian.Controller.DeviceConfinement
import EdgeGuardian.Controller.Reads
import EdgeGuardian.Lib.LastWriter

/-!
# The latest status of a device

An agent stamps each heartbeat and each telemetry message with the time at which it has taken the
status. Messages that it stores while it is offline are published when it is back, after and
between fresh ones, so that the controller receives messages in another order than that of their
timestamps. The listeners parse the timestamp and do not use it: a row of `device_telemetry` bears
the time at which the controller has received the status, and the latest row is the one that was
received last.

Arrivals are any messages of one device in any order, each with the clock reading of the controller.
Nothing is asked of the clock: it may stand still or go back. Two rows that bear the same time have
the same key, and the second one replaces the first.

Source: `mqtt/HeartbeatListener.java`, `mqtt/TelemetryListener.java`,
`mqtt/payload/HeartbeatPayload.java`, `mqtt/payload/TelemetryPayload.java`,
`service/DeviceRegistry.java`, `model/DeviceTelemetry.java`,
`repository/DeviceTelemetryRepository.java` under
`controller/src/main/java/com/edgeguardian/controller/`; `agent/internal/model/manifest.go`, lines
147–162.

## Main definitions

* `LatestStatus.StatusMessage`, `LatestStatus.Arrival`: a message with its timestamp, and its
  arrival at the controller.
* `LatestStatus.receiveAll`: the database after some arrivals.
* `LatestStatus.getLatestStatus`.
* `LatestStatus.NewestShown`: the latest status is that of a message with the greatest timestamp.

## Main results

* `LatestStatus.getLatestStatus_receiveAll`: the latest status is the one that was stored last.
* `LatestStatus.newestShown_iff`: when it is the status with the greatest timestamp.
* `LatestStatus.newestShown_of_in_order`: it is when messages arrive in the order of their
  timestamps.
-/

namespace EdgeGuardian.Controller.LatestStatus

open LastWriter

/-! ### Messages and their arrival -/

/-- A heartbeat or a telemetry message, with the timestamp that the agent has put into it. -/
inductive StatusMessage
  | heartbeat (timestamp : Instant) (payload : HeartbeatPayload)
  | telemetry (timestamp : Instant) (payload : TelemetryPayload)
deriving DecidableEq, Repr

namespace StatusMessage

/-- The field `timestamp`. -/
def timestamp : StatusMessage → Instant
  | heartbeat timestamp _ => timestamp
  | telemetry timestamp _ => timestamp

/-- The field `deviceId`. -/
def deviceId : StatusMessage → Option String
  | heartbeat _ payload => payload.deviceId
  | telemetry _ payload => payload.deviceId

/-- The field `status`. -/
def status : StatusMessage → Option DeviceStatusPayload
  | heartbeat _ payload => payload.status
  | telemetry _ payload => payload.status

end StatusMessage

/-- A message that the controller receives, with the clock reading at which it does. -/
structure Arrival where
  env : Env
  message : StatusMessage

/-- The listener of the message. -/
def receive (ctx : Context) (db : Db) (a : Arrival) : Db :=
  match a.message with
  | .heartbeat _ payload => (onHeartbeat ctx a.env (some payload) db).1
  | .telemetry _ payload => onTelemetryMessage ctx a.env (some payload) db

/-- The database after some arrivals. -/
def receiveAll (ctx : Context) (db : Db) (arrivals : List Arrival) : Db :=
  arrivals.foldl (receive ctx) db

/-- `DeviceRegistry.getLatestStatus`. -/
def getLatestStatus (deviceId : String) (db : Db) : Option DeviceStatus :=
  (findLatestByDeviceId db.telemetry.rows deviceId).map DeviceTelemetry.status

/-! ### The property -/

/-- A status that was reported, with the time of the agent and the time of the controller. -/
structure Report where
  timestamp : Instant
  received : Instant
  status : DeviceStatus
deriving DecidableEq, Repr

/-- The status that an arrival reports, if it carries one. -/
def Arrival.report (ctx : Context) (a : Arrival) : Option Report :=
  a.message.status.map fun status => ⟨a.message.timestamp, a.env.now, status.toEntity ctx⟩

/-- The status that an arrival reports, if the columns of `device_telemetry` hold it. -/
def Arrival.stored (ctx : Context) (a : Arrival) : Option Report :=
  (a.report ctx).filter fun r => r.status.Fits

/-- The statuses that arrivals report, in the order of the arrivals. -/
def reports (ctx : Context) (arrivals : List Arrival) : List Report :=
  arrivals.filterMap (Arrival.report ctx)

/-- No status was taken later than this one. -/
def IsNewest (rs : List Report) (r : Report) : Prop :=
  ∀ r' ∈ rs, r'.timestamp ≤ r.timestamp

instance (rs : List Report) (r : Report) : Decidable (IsNewest rs r) :=
  inferInstanceAs (Decidable (∀ r' ∈ rs, _))

/-- When a status was reported, the latest status of the device is that of a message with the
greatest timestamp. -/
def NewestShown (ctx : Context) (deviceId : String) (db : Db) (arrivals : List Arrival) : Prop :=
  reports ctx arrivals ≠ [] → ∃ r ∈ reports ctx arrivals, IsNewest (reports ctx arrivals) r ∧
    getLatestStatus deviceId (receiveAll ctx db arrivals) = some r.status

instance (ctx : Context) (deviceId : String) (db : Db) (arrivals : List Arrival) :
    Decidable (NewestShown ctx deviceId db arrivals) :=
  inferInstanceAs (Decidable (reports ctx arrivals ≠ [] → _))

/-- The reports that are stored: the columns of `device_telemetry` hold the status. -/
def stored (rs : List Report) : List Report := rs.filter fun r => r.status.Fits

/-- When a status was reported, the one that was stored last was taken last, or is the same as one
that was. -/
def LastIsNewest (rs : List Report) : Prop :=
  rs ≠ [] → ∃ last ∈ latest Report.received (stored rs), ∃ r ∈ rs, IsNewest rs r ∧
    r.status = last.status

instance (rs : List Report) : Decidable (LastIsNewest rs) :=
  inferInstanceAs (Decidable (rs ≠ [] → ∃ last ∈ latest Report.received (stored rs), _))

/-- The device is registered and has not reported yet, and the arrivals are messages of it. -/
structure FirstReports (deviceId : String) (db : Db) (arrivals : List Arrival) : Prop where
  notBlank : isBlank deviceId = false
  known : ∃ device, db.devices.find? deviceId = some device
  rows : ∀ t ∈ db.telemetry.rows, t.deviceId ≠ deviceId
  own : ∀ a ∈ arrivals, a.message.deviceId = some deviceId

/-! ### The rows of the device -/

theorem findLatestByDeviceId_eq_none {rows : List DeviceTelemetry} {deviceId : String}
    (h : findLatestByDeviceId rows deviceId = none) : ∀ t ∈ rows, t.deviceId ≠ deviceId := by
  intro t ht hdevice
  obtain ⟨u, hu⟩ := Table.exists_head?_query (r := fun a b : DeviceTelemetry => b.time ≤ a.time)
    (q := fun t => t.deviceId = deviceId) ht (decide_eq_true hdevice)
  exact Option.some_ne_none u (hu.symm.trans h)

/-- A row that is saved is the latest one, unless there is a row with a later time. -/
theorem findLatestByDeviceId_save {t : Table DeviceTelemetry DeviceTelemetry.id}
    {deviceId : String} {row : DeviceTelemetry} (hrow : row.deviceId = deviceId) :
    findLatestByDeviceId (t.save row).rows deviceId =
      write DeviceTelemetry.time (findLatestByDeviceId t.rows deviceId) row := by
  rcases hlatest : findLatestByDeviceId t.rows deviceId with _ | old
  · have hnone := findLatestByDeviceId_eq_none hlatest
    refine (findLatestByDeviceId_eq_some (t.save row).nodup).mpr
      ⟨Table.mem_save.mpr (.inl rfl), hrow, fun u hu hdevice => ?_⟩
    rcases Table.mem_save.mp hu with rfl | ⟨hu, -⟩
    · exact le_rfl
    · exact absurd hdevice (hnone u hu)
  · obtain ⟨hold, holdDevice, hlast⟩ := (findLatestByDeviceId_eq_some t.nodup).mp hlatest
    rw [write]
    split_ifs with hle
    · refine (findLatestByDeviceId_eq_some (t.save row).nodup).mpr
        ⟨Table.mem_save.mpr (.inl rfl), hrow, fun u hu hdevice => ?_⟩
      rcases Table.mem_save.mp hu with rfl | ⟨hu, -⟩
      · exact le_rfl
      · exact (hlast u hu hdevice).trans hle
    · -- The old row has another time, so that it is not replaced.
      have hkey : old.id ≠ row.id := fun h => hle (congrArg Prod.fst h).le
      refine (findLatestByDeviceId_eq_some (t.save row).nodup).mpr
        ⟨Table.mem_save.mpr (.inr ⟨hold, hkey⟩), holdDevice, fun u hu hdevice => ?_⟩
      rcases Table.mem_save.mp hu with rfl | ⟨hu, -⟩
      · exact (not_le.mp hle).le
      · exact hlast u hu hdevice

/-! ### What an arrival does -/

section Receive

variable {ctx : Context} {db : Db} {deviceId : String} {a : Arrival}

/-- The time and the status of the latest row. -/
def latestRow (deviceId : String) (db : Db) : Option (Instant × DeviceStatus) :=
  (findLatestByDeviceId db.telemetry.rows deviceId).map fun t => (t.time, t.status)

theorem latestRow_hear (env : Env) (device : Device) (status : Option DeviceStatus) :
    latestRow deviceId (hear env deviceId device status db) =
      status.elim (latestRow deviceId db) fun status =>
        write Prod.fst (latestRow deviceId db) (env.now, status) := by
  rcases status with _ | status
  · rfl
  · have hstamp : ∀ t : DeviceTelemetry, (t.time, t.status).fst = t.time := fun _ => rfl
    simp only [latestRow, hear, Option.elim_some]
    rw [findLatestByDeviceId_save rfl, map_write hstamp]

theorem telemetry_recordAutoUpdate (value : Bool) :
    (recordAutoUpdate deviceId value db).telemetry = db.telemetry := by
  rw [recordAutoUpdate]
  split
  · rfl
  · split_ifs <;> rfl

/-- The heartbeat listener stores what `DeviceRegistry.heartbeat` stores. -/
theorem telemetry_onHeartbeat {payload : HeartbeatPayload} {env : Env} {device : Device}
    (hblank : isBlank deviceId = false) (hdevice : db.devices.find? deviceId = some device)
    (hid : payload.deviceId = some deviceId) :
    (∃ device', (onHeartbeat ctx env (some payload) db).1.devices.find? deviceId = some device') ∧
      (onHeartbeat ctx env (some payload) db).1.telemetry =
        ((heartbeat env deviceId (payload.status.map (·.toEntity ctx))).commit db).telemetry := by
  have hheard : (hear env deviceId device (payload.status.map (·.toEntity ctx)) db).devices.find?
      deviceId = some (device.heard env) := find?_devices_hear hdevice
  rw [onHeartbeat_fst hid hblank hdevice, heartbeat_commit hdevice]
  split_ifs
  · rcases payload.autoUpdate with _ | value
    · exact ⟨⟨_, hheard⟩, rfl⟩
    · obtain ⟨device', hfind, -⟩ := find?_devices_recordAutoUpdate hheard
      exact ⟨⟨device', hfind⟩, telemetry_recordAutoUpdate value⟩
  · exact ⟨⟨device, hdevice⟩, rfl⟩

/-- The telemetry listener does what `DeviceRegistry.heartbeat` does, if there is a status. -/
theorem onTelemetryMessage_eq {payload : TelemetryPayload} {env : Env}
    (hblank : isBlank deviceId = false) (hid : payload.deviceId = some deviceId) :
    onTelemetryMessage ctx env (some payload) db =
      payload.status.elim db fun status =>
        (heartbeat env deviceId (some (status.toEntity ctx))).commit db := by
  have hfilter : (payload.deviceId.filter fun d => !isBlank d) = some deviceId :=
    filter_not_isBlank_eq_some.mpr ⟨hid, hblank⟩
  simp only [onTelemetryMessage, hfilter]
  rcases payload.status with _ | status <;> rfl

/-- A heartbeat of a known device writes the status that it carries, if the columns hold it. -/
theorem latestRow_heartbeat (env : Env) {device : Device}
    (hdevice : db.devices.find? deviceId = some device) (status : Option DeviceStatus) :
    latestRow deviceId ((heartbeat env deviceId status).commit db) =
      (status.filter fun s => s.Fits).elim (latestRow deviceId db) fun status =>
        write Prod.fst (latestRow deviceId db) (env.now, status) := by
  rw [heartbeat_commit hdevice]
  rcases status with _ | status
  · exact latestRow_hear env device none
  · by_cases hfits : status.Fits
    · have hstored : StatusFits (some status) := fun s hs => Option.some.inj hs ▸ hfits
      have hkept : (some status).filter (fun s => s.Fits) = some status :=
        Option.filter_some_pos (decide_eq_true hfits)
      rw [if_pos hstored, hkept]
      exact latestRow_hear env device (some status)
    · have hrefused : ¬ StatusFits (some status) := fun h => hfits (h status rfl)
      have hdropped : (some status).filter (fun s => s.Fits) = none :=
        Option.filter_some_neg (decide_eq_false hfits)
      rw [if_neg hrefused, hdropped]
      rfl

/-- The time and the status of the row that a report becomes. -/
def Report.row (r : Report) : Instant × DeviceStatus := (r.received, r.status)

variable (ctx) in
/-- An arrival writes the status that it reports, with the time of the controller, if the columns
hold it. -/
theorem latestRow_receive (hblank : isBlank deviceId = false) {device : Device}
    (hdevice : db.devices.find? deviceId = some device)
    (hid : a.message.deviceId = some deviceId) :
    (∃ device', (receive ctx db a).devices.find? deviceId = some device') ∧
      latestRow deviceId (receive ctx db a) =
        (a.stored ctx).elim (latestRow deviceId db) fun r =>
          write Prod.fst (latestRow deviceId db) r.row := by
  obtain ⟨env, message⟩ := a
  cases message with
  | heartbeat timestamp payload =>
    obtain ⟨hknown, htelemetry⟩ := telemetry_onHeartbeat hblank hdevice hid
    refine ⟨hknown, ?_⟩
    have hrow := latestRow_heartbeat env hdevice (payload.status.map (·.toEntity ctx))
    rw [latestRow, ← htelemetry] at hrow
    refine hrow.trans ?_
    rw [Arrival.stored, Arrival.report, StatusMessage.status]
    rcases payload.status with _ | status
    · rfl
    · by_cases hfits : (status.toEntity ctx).Fits <;> simp [Option.filter, hfits, Report.row]
  | telemetry timestamp payload =>
    rw [receive, Arrival.stored, Arrival.report, StatusMessage.status]
    dsimp only
    rw [onTelemetryMessage_eq hblank hid]
    rcases payload.status with _ | status
    · exact ⟨⟨device, hdevice⟩, rfl⟩
    · have hrow := latestRow_heartbeat env hdevice (some (status.toEntity ctx))
      constructor
      · rw [Option.elim_some, heartbeat_commit hdevice]
        split_ifs
        · exact ⟨_, find?_devices_hear hdevice⟩
        · exact ⟨device, hdevice⟩
      · refine hrow.trans ?_
        by_cases hfits : (status.toEntity ctx).Fits <;> simp [Option.filter, hfits, Report.row]

theorem stored_reports_concat (arrivals : List Arrival) (a : Arrival) :
    stored (reports ctx (arrivals ++ [a])) =
      stored (reports ctx arrivals) ++ (a.stored ctx).toList := by
  rw [reports, List.filterMap_append, stored, List.filter_append, Arrival.stored,
    Option.toList_filter]
  refine congrArg (List.filter _ _ ++ ·) ?_
  rw [List.filterMap_cons]
  rcases a.report ctx with _ | r <;> rfl

/-- The latest row of the device is the report that was stored last. -/
theorem latestRow_receiveAll {arrivals : List Arrival} (h : FirstReports deviceId db arrivals) :
    (∃ device, (receiveAll ctx db arrivals).devices.find? deviceId = some device) ∧
      latestRow deviceId (receiveAll ctx db arrivals) =
        (latest Report.received (stored (reports ctx arrivals))).map Report.row := by
  induction arrivals using List.reverseRecOn with
  | nil =>
    refine ⟨h.known, ?_⟩
    rcases hlatest : findLatestByDeviceId db.telemetry.rows deviceId with _ | t
    · rw [latestRow, receiveAll, List.foldl_nil, hlatest]
      rfl
    · obtain ⟨ht, htd, -⟩ := (findLatestByDeviceId_eq_some db.telemetry.nodup).mp hlatest
      exact absurd htd (h.rows t ht)
  | append_singleton arrivals a ih =>
    have hstamp : ∀ r : Report, r.row.fst = r.received := fun _ => rfl
    obtain ⟨⟨device, hknown⟩, hlatest⟩ :=
      ih ⟨h.notBlank, h.known, h.rows, fun a ha => h.own a (List.mem_append_left _ ha)⟩
    have ha : a.message.deviceId = some deviceId :=
      h.own a (List.mem_append_right _ List.mem_cons_self)
    obtain ⟨hknown', hlatest'⟩ := latestRow_receive ctx h.notBlank hknown ha
    have hfold : receiveAll ctx db (arrivals ++ [a]) = receive ctx (receiveAll ctx db arrivals) a :=
      List.foldl_append
    rw [hfold]
    refine ⟨hknown', ?_⟩
    rw [hlatest', hlatest, stored_reports_concat]
    rcases a.stored ctx with _ | r
    · rw [Option.toList_none, List.append_nil]
      rfl
    · rw [Option.toList_some, latest_concat, map_write hstamp]
      rfl

end Receive

section Newest

variable {ctx : Context} {db : Db} {deviceId : String} {arrivals : List Arrival}

/-- **The latest status is the one that was stored last.** It is chosen by the clock of the
controller alone. -/
theorem getLatestStatus_receiveAll (h : FirstReports deviceId db arrivals) :
    getLatestStatus deviceId (receiveAll ctx db arrivals) =
      (latest Report.received (stored (reports ctx arrivals))).map Report.status := by
  have hrow : latestRow deviceId (receiveAll ctx db arrivals) =
      (latest Report.received (stored (reports ctx arrivals))).map Report.row :=
    (latestRow_receiveAll h).2
  have hstatus := congrArg (Option.map Prod.snd) hrow
  rw [latestRow, Option.map_map, Option.map_map] at hstatus
  exact hstatus

/-- **When the latest status is the latest.** Whatever messages of a device arrive, and in whatever
order: the latest status is that of a message with the greatest timestamp iff the status that was
stored last, by the clock of the controller, has the greatest timestamp or is that of a message that
has. -/
theorem newestShown_iff (h : FirstReports deviceId db arrivals) :
    NewestShown ctx deviceId db arrivals ↔ LastIsNewest (reports ctx arrivals) := by
  rw [NewestShown, getLatestStatus_receiveAll h, LastIsNewest]
  refine forall_congr' fun _ => ⟨?_, ?_⟩
  · rintro ⟨r, hr, hnewest, hstatus⟩
    obtain ⟨last, hlast, hsame⟩ := Option.map_eq_some_iff.mp hstatus
    exact ⟨last, hlast, r, hr, hnewest, hsame.symm⟩
  · rintro ⟨last, hlast, r, hr, hnewest, hstatus⟩
    exact ⟨r, hr, hnewest, Option.map_eq_some_iff.mpr ⟨last, hlast, hstatus.symm⟩⟩

/-- Messages with statuses that are stored, in the order of their timestamps while the clock of the
controller does not go back, leave the newest status. -/
theorem newestShown_of_in_order (h : FirstReports deviceId db arrivals)
    (hfits : ∀ r ∈ reports ctx arrivals, r.status.Fits)
    (hclock : (reports ctx arrivals).Pairwise fun r r' => r.received ≤ r'.received)
    (horder : (reports ctx arrivals).Pairwise fun r r' => r.timestamp ≤ r'.timestamp) :
    NewestShown ctx deviceId db arrivals := by
  refine (newestShown_iff h).mpr fun hne => ?_
  have hstored : stored (reports ctx arrivals) = reports ctx arrivals :=
    List.filter_eq_self.mpr fun r hr => decide_eq_true (hfits r hr)
  rw [hstored]
  obtain ⟨rs, r, hrs⟩ := (List.eq_nil_or_concat' _).resolve_left hne
  rw [hrs] at hclock horder ⊢
  have hbefore := (List.pairwise_append.mp hclock).2.2
  refine ⟨r, latest_concat_of_le fun r' hr' => hbefore r' hr' r List.mem_cons_self, r,
    List.mem_append_right _ List.mem_cons_self, fun r' hr' => ?_, rfl⟩
  rcases List.mem_append.mp hr' with hr' | hr'
  · exact (List.pairwise_append.mp horder).2.2 r' hr' r List.mem_cons_self
  · rw [List.mem_singleton.mp hr']

end Newest

/-! ### A message from the offline queue -/

namespace Reconnect

/-- A registered device. -/
def db : Db :=
  (register { (default : Env) with now := 1 } 1 "d" ⟨some "d", none, none, none, none⟩
    (.empty .empty)).2

/-- A status of the device. -/
def usage (bytes : ℤ) : DeviceStatusPayload := ⟨0, bytes, 1024, 0, 1024, 60, none, some "converged"⟩

/-- A heartbeat that is published at once, at the time 20. -/
def live (now : Instant) : Arrival where
  env := { (default : Env) with now }
  message := .heartbeat 20 ⟨some "d", some (usage 900), 0, some true⟩

/-- Telemetry that was stored while the agent was offline, at the time 10. -/
def drained (now : Instant) : Arrival where
  env := { (default : Env) with now }
  message := .telemetry 10 ⟨some "d", some (usage 100)⟩

theorem firstReports {arrivals : List Arrival}
    (h : ∀ a ∈ arrivals, a.message.deviceId = some "d") : FirstReports "d" db arrivals where
  notBlank := by decide
  known := ⟨_, rfl⟩
  rows := fun _ ht => absurd ht List.not_mem_nil
  own := h

end Reconnect

open Reconnect in
/-- The drained message arrives before the live one. -/
theorem newestShown_of_drained_first :
    FirstReports "d" db [drained 21, live 22] ∧
      NewestShown default "d" db [drained 21, live 22] := by
  have hfirst : FirstReports "d" db [drained 21, live 22] := firstReports (by decide)
  exact ⟨hfirst, (newestShown_iff hfirst).mpr (by decide)⟩

open Reconnect in
/-- The agent is back, publishes a heartbeat at the time 20 and drains telemetry of the time 10. The
controller shows the telemetry. -/
theorem drained_status_shown :
    FirstReports "d" db [live 21, drained 22] ∧
      ¬ NewestShown default "d" db [live 21, drained 22] :=
  ⟨firstReports (by decide), by decide +kernel⟩

end EdgeGuardian.Controller.LatestStatus
