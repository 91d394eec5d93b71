import EdgeGuardian.Controller.Devices
import EdgeGuardian.Lib.SharedRow

/-!
# Whether a device is alive, when its row is saved from several sides

A heartbeat notes the time in the row of its device and sets it online, a registration does the same
and inserts the row of a new device, an agent's setting for automatic updates is recorded in the
row, and the health scheduler sets a device offline that was not seen for some time. All of them
read the row, change their own columns and save the whole row; none checks that the row is still as
it was read. A transaction that overlaps with a heartbeat can therefore take it back: the time of
the last heartbeat returns to the one that was read, and the scheduler sets a device offline that
has just been heard of.

Source: `service/DeviceHealthScheduler.java`, `service/DeviceRegistry.java`, `model/Device.java`,
`model/AbstractCreatedEntity.java` under `controller/src/main/java/com/edgeguardian/controller/`.

## Main definitions

* `DeviceRow`, `lastSeen`: a row of `devices` as the scheduler reads it.
* `LivenessTx`: the transactions on the row of one device.
* `LivenessKept`: heartbeats do not go back, and a device that was heard of is not offline.

## Main results

* `map_heartbeat`, `map_register`, `find?_recordAutoUpdate`: a transaction saves the row that the
  sequential model saves.
* `liveness_kept`: when the bookkeeping holds, in every interleaving.
-/

namespace EdgeGuardian.Controller

open Transition SharedRow

/-! ### The transactions on the row of a device -/

/-- A row of `devices`, with the time at which it was inserted. -/
structure DeviceRow extends Device where
  createdAt : Option Instant
deriving DecidableEq, Repr

/-- `DeviceHealthScheduler.lastSeen`. -/
def lastSeen (device : DeviceRow) : Instant :=
  match device.lastHeartbeat, device.createdAt with
  | some t, _ => t
  | none, some t => t
  | none, none => 0

/-- The transactions on the row of one device. -/
inductive LivenessTx
  | heartbeat
  | recordAutoUpdate (value : Bool)
  | register (orgId : OrganizationId) (facts : DeviceFacts)
  | markOfflineDevices
deriving DecidableEq, Repr

/-- What a transaction takes from outside, if it only reads the clock. -/
def clockReading (now : Instant) : Env := { (default : Env) with now }

/-- What a transaction saves. The scheduler reads the clock before it reads the rows, and looks only
at the rows that are online; the others read the clock after the row. -/
def LivenessTx.program (threshold : ℕ) (deviceId : String) : LivenessTx → Program DeviceRow
  | .heartbeat => fun _ now existing =>
    existing.map fun device => { device with toDevice := device.heard (clockReading now) }
  | .recordAutoUpdate value => fun _ _ existing =>
    existing.bind fun device =>
      if device.autoUpdate = some value then none
      else some { device with autoUpdate := some value }
  | .register orgId facts => fun _ now existing =>
    some ⟨registeredDevice (clockReading now) orgId deviceId facts
        (existing.map DeviceRow.toDevice),
      existing.elim (some now) DeviceRow.createdAt⟩
  | .markOfflineDevices => fun began _ existing =>
    existing.bind fun device =>
      if device.state = .online ∧ lastSeen device + threshold < began then
        some { device with state := .offline }
      else none

/-- The transaction is a heartbeat. -/
def LivenessTx.isHeartbeat : LivenessTx → Bool
  | .heartbeat => true
  | .recordAutoUpdate _ | .register _ _ | .markOfflineDevices => false

/-- The transaction notes that the device was heard of. -/
def LivenessTx.hears : LivenessTx → Bool
  | .heartbeat | .register _ _ => true
  | .recordAutoUpdate _ | .markOfflineDevices => false

/-! ### The rows of the sequential model -/

section Sequential

variable {env : Env} {db : Db} {deviceId : String} {row : Option DeviceRow} {threshold began : ℕ}

/-- A heartbeat that commits saves the row that the sequential model saves. -/
theorem map_heartbeat {status : Option DeviceStatus} {saved : Option Device} {db' : Db}
    (hrow : db.devices.find? deviceId = row.map DeviceRow.toDevice)
    (h : (heartbeat env deviceId status).run db = .ok (saved, db')) :
    (LivenessTx.heartbeat.program threshold deviceId began env.now row).map DeviceRow.toDevice =
      saved := by
  rcases row with _ | row
  · cases (heartbeat_run_of_unknown hrow).symm.trans h
    rfl
  · rw [heartbeat_run_of_known hrow] at h
    split_ifs at h
    cases h
    rfl

/-- A registration saves the row that the sequential model saves. -/
theorem map_register {orgId : OrganizationId} {facts : DeviceFacts}
    (hrow : db.devices.find? deviceId = row.map DeviceRow.toDevice) :
    ((LivenessTx.register orgId facts).program threshold deviceId began env.now row).map
      DeviceRow.toDevice = some (register env orgId deviceId facts db).1 := by
  rw [register, hrow]
  cases row <;> rfl

/-- The setting for automatic updates is recorded in the row as in the sequential model. -/
theorem find?_recordAutoUpdate {value : Bool} {now : Instant}
    (hrow : db.devices.find? deviceId = row.map DeviceRow.toDevice) :
    (recordAutoUpdate deviceId value db).devices.find? deviceId =
      (((LivenessTx.recordAutoUpdate value).program threshold deviceId began now row).or row).map
        DeviceRow.toDevice := by
  rcases row with _ | device
  · rw [recordAutoUpdate, hrow]
    exact hrow
  · have hid : device.deviceId = deviceId := Table.key_of_find?_eq_some hrow
    rw [recordAutoUpdate, hrow]
    simp only [Option.map_some, LivenessTx.program, Option.bind_some]
    split_ifs with hsame
    · exact hrow
    · show (db.devices.save _).find? deviceId = _
      rw [Table.find?_save, if_pos hid.symm]
      rfl

end Sequential

/-! ### The bookkeeping -/

/-- The bookkeeping of a device: the committed time of its last heartbeat never decreases, and when
its row is offline, every heartbeat that was committed is longer ago than the threshold. -/
structure LivenessKept {ι : Type*} (threshold : ℕ) (tx : ι → LivenessTx)
    (s₀ s : State ι DeviceRow) : Prop where
  lastHeartbeat : (history s₀.row s.log).Pairwise fun r r' =>
    (r.bind fun d => d.lastHeartbeat) ≤ r'.bind fun d => d.lastHeartbeat
  offline : ∀ device ∈ s.row, device.state = .offline →
    ∀ e ∈ s.log, (tx e.1).isHeartbeat → e.2.now + threshold < s.clock

section Liveness

variable {ι : Type*} {threshold : ℕ} {deviceId : String} {tx : ι → LivenessTx}

/-- **What a transaction saves.** It notes that the device was heard of, or it keeps the time of the
last heartbeat and sets at most a device offline that was not seen for the threshold. -/
theorem LivenessTx.program_cases {call : LivenessTx} {began now : ℕ} {copy : Option DeviceRow}
    {row : DeviceRow} (h : call.program threshold deviceId began now copy = some row) :
    call.hears = true ∧ row.state = .online ∧ row.lastHeartbeat = some now ∨
      call.hears = false ∧ ∃ device, copy = some device ∧
        row.lastHeartbeat = device.lastHeartbeat ∧
        (row.state = device.state ∨ lastSeen device + threshold < began) := by
  cases call with
  | heartbeat =>
    obtain ⟨device, -, rfl⟩ := Option.map_eq_some_iff.mp h
    exact .inl ⟨rfl, rfl, rfl⟩
  | recordAutoUpdate value =>
    obtain ⟨device, rfl, hsaved⟩ := Option.bind_eq_some_iff.mp h
    split_ifs at hsaved
    cases hsaved
    exact .inr ⟨rfl, device, rfl, rfl, .inl rfl⟩
  | register orgId facts =>
    cases h
    cases copy <;> exact .inl ⟨rfl, rfl, rfl⟩
  | markOfflineDevices =>
    obtain ⟨device, rfl, hsaved⟩ := Option.bind_eq_some_iff.mp h
    split_ifs at hsaved with hseen
    cases hsaved
    exact .inr ⟨rfl, device, rfl, rfl, .inr hseen.2⟩

/-- Heartbeats and registrations renew the time of the last heartbeat. -/
theorem LivenessTx.stamping (threshold : ℕ) (deviceId : String) (tx : ι → LivenessTx) :
    Stamping (fun i => (tx i).program threshold deviceId) (fun d => d.lastHeartbeat)
      fun i => (tx i).hears := by
  refine ⟨fun {i began now copy row} hhears h => ?_, fun {i began now copy row} hkeeps h => ?_⟩
  · rcases LivenessTx.program_cases h with ⟨-, -, hstamp⟩ | ⟨hkeeps, -⟩
    · exact hstamp
    · exact absurd (hhears.symm.trans hkeeps) (by decide)
  · rcases LivenessTx.program_cases h with ⟨hhears, -⟩ | ⟨-, device, rfl, hstamp, -⟩
    · exact absurd (hhears.symm.trans hkeeps) (by decide)
    · exact hstamp

/-- All times at which the device was heard of in these commits are longer ago than the
threshold. -/
def LongAgo (threshold : ℕ) (tx : ι → LivenessTx) (clock : ℕ) (log : List (ι × Draft DeviceRow)) :
    Prop :=
  ∀ e ∈ log, (tx e.1).hears → e.2.now + threshold < clock

/-- The invariant: the time stamps are as they should be, and a row that is stored offline, or was
read offline, was heard of long before. -/
structure LivenessInv (threshold : ℕ) (deviceId : String) (tx : ι → LivenessTx)
    (first : Option DeviceRow) (s : State ι DeviceRow) : Prop where
  stamps : StampInv (fun i => (tx i).program threshold deviceId) (fun d => d.lastHeartbeat)
    (fun i => (tx i).hears) first s
  stored : ∀ device ∈ s.row, device.state = .offline → LongAgo threshold tx s.clock s.log
  viewed : ∀ {i v}, s.Views i v → ∀ device ∈ v.copy, device.state = .offline →
    LongAgo threshold tx s.clock (s.log.take v.seen)

variable {first : Option DeviceRow} {s₀ s t : State ι DeviceRow} {a : Action ι}

theorem LongAgo.mono {clock clock' : ℕ} {log : List (ι × Draft DeviceRow)}
    (h : LongAgo threshold tx clock log) (hle : clock ≤ clock') : LongAgo threshold tx clock' log :=
  fun e he hhears => Nat.lt_of_lt_of_le (h e he hhears) hle

theorem LongAgo.append {clock : ℕ} {log : List (ι × Draft DeviceRow)} {i : ι} {d : Draft DeviceRow}
    (h : LongAgo threshold tx clock log) (hkeeps : (tx i).hears = false) :
    LongAgo threshold tx clock (log ++ [(i, d)]) := by
  intro e he hhears
  rcases List.mem_append.mp he with he | he
  · exact h e he hhears
  · rw [List.mem_singleton.mp he] at hhears
    exact absurd (hhears.symm.trans hkeeps) (by decide)

/-- A device that was last seen long before the scheduler began was heard of long before. -/
theorem LivenessInv.longAgo_of_lastSeen (hs : LivenessInv threshold deviceId tx first s)
    {device : DeviceRow} {began : ℕ}
    (hrow : stampOf (fun d : DeviceRow => d.lastHeartbeat) s.row = device.lastHeartbeat)
    (hseen : lastSeen device + threshold < began) (hbegan : began ≤ s.clock) :
    LongAgo threshold tx s.clock s.log := by
  intro e he hhears
  have hle := hs.stamps.renewed_le_row (LivenessTx.stamping threshold deviceId tx) he hhears
  rw [hrow] at hle
  rcases hlast : device.lastHeartbeat with _ | last
  · rw [hlast] at hle
    exact absurd hle Option.not_some_le_none
  · rw [hlast, Option.some_le_some] at hle
    have hlastSeen : lastSeen device = last := by
      simp only [lastSeen, hlast]
    calc e.2.now + threshold ≤ last + threshold := Nat.add_le_add_right hle _
      _ = lastSeen device + threshold := by rw [hlastSeen]
      _ < began := hseen
      _ ≤ s.clock := hbegan

/-- A commit that overlooks nothing sets a device offline only if it was heard of long before. -/
theorem LivenessInv.longAgo_of_commit (hs : LivenessInv threshold deviceId tx first s) {i : ι}
    {d : Draft DeviceRow} (hpc : s.pc i = .written d)
    (hok : overlooks (fun i => (tx i).hears) s (.commit i) = false)
    (hoffline : d.row.state = .offline) :
    (tx i).hears = false ∧ LongAgo threshold tx s.clock s.log := by
  have hvalid := hs.stamps.sound.drafted (.inr hpc)
  have hview : s.Views i d.toView := .inr ⟨d, rfl, .inr hpc⟩
  rcases LivenessTx.program_cases hvalid.prog with
    ⟨-, honline, -⟩ | ⟨hkeeps, device, hcopy, -, hstate⟩
  · rw [honline] at hoffline
    exact absurd hoffline (by decide)
  · refine ⟨hkeeps, ?_⟩
    -- Nothing was heard of the device since the row was read.
    have hsince : (∀ e ∈ s.log.drop d.seen, (tx e.1).hears = false) ∧
        stampOf (fun d : DeviceRow => d.lastHeartbeat) s.row = device.lastHeartbeat := by
      simp only [overlooks, hpc, List.any_eq_false, hkeeps, Bool.not_false, Bool.true_or,
        Bool.and_true, Bool.not_eq_true] at hok
      refine ⟨hok, ?_⟩
      rcases hs.stamps.since hview with ⟨-, hrow⟩ | ⟨e, he, hhears, -⟩
      · rw [hrow, hcopy]
        rfl
      · exact absurd (hhears.symm.trans (hok e he)) (by decide)
    rcases hstate with hstate | hseen
    · have hbefore := hs.viewed hview device hcopy (hstate.symm.trans hoffline)
      intro e he hhears
      rw [← List.take_append_drop d.seen s.log] at he
      rcases List.mem_append.mp he with he | he
      · exact hbefore e he hhears
      · exact absurd (hhears.symm.trans (hsince.1 e he)) (by decide)
    · exact hs.longAgo_of_lastSeen hsince.2 hseen (hvalid.began.trans hvalid.now)

/-- The invariant is kept by every step that overlooks nothing. -/
theorem LivenessInv.step [DecidableEq ι] (hs : LivenessInv threshold deviceId tx first s)
    (hok : overlooks (fun i => (tx i).hears) s a = false)
    (h : SharedRow.step (fun i => (tx i).program threshold deviceId) s a = some t) :
    LivenessInv threshold deviceId tx first t := by
  have hstamps := hs.stamps.step (LivenessTx.stamping threshold deviceId tx) hok h
  rcases step_cases h with ⟨i, d, rfl, hpc, rfl⟩ | ⟨-, hquiet⟩
  · refine ⟨hstamps, fun device hdevice hoffline => ?_, fun {j v} hv device hdevice hoffline => ?_⟩
    · rw [← Option.some.inj hdevice] at hoffline
      obtain ⟨hkeeps, hlong⟩ := hs.longAgo_of_commit hpc hok hoffline
      exact hlong.append hkeeps
    · have hv := State.views_of_publish hv
      have htake : (s.publish i d).log.take v.seen = s.log.take v.seen :=
        List.take_append_of_le_length (hs.stamps.seen_le hv)
      rw [htake]
      exact hs.viewed hv device hdevice hoffline
  · refine ⟨hstamps, fun device hdevice hoffline => ?_, fun {j v} hv device hdevice hoffline => ?_⟩
    · rw [hquiet.row] at hdevice
      rw [hquiet.log]
      exact (hs.stored device hdevice hoffline).mono hquiet.clock
    · rw [hquiet.log]
      rcases hquiet.views j v hv with hv | ⟨-, hseen, hcopy⟩
      · exact (hs.viewed hv device hdevice hoffline).mono hquiet.clock
      · rw [hcopy] at hdevice
        rw [hseen, List.take_length]
        exact (hs.stored device hdevice hoffline).mono hquiet.clock

end Liveness

/-- **The bookkeeping of a device is kept.** In every interleaving of any number of heartbeats,
registrations, recorded settings and passes of the scheduler in which no transaction commits over a
heartbeat or a registration that it has not read (a heartbeat or a registration may, if its own
clock reading is not earlier), the committed time of the last heartbeat never decreases, and no
committed row is offline while a committed heartbeat is within the threshold. -/
theorem liveness_kept {ι : Type*} [DecidableEq ι] {threshold : ℕ} {deviceId : String}
    {tx : ι → LivenessTx} {s₀ s : State ι DeviceRow} (h₀ : Starting s₀)
    (hclock : ∀ device ∈ s₀.row, ∀ last ∈ device.lastHeartbeat, last ≤ s₀.clock)
    (h : Reaches (SharedRow.step fun i => (tx i).program threshold deviceId)
      (fun s a => overlooks (fun i => (tx i).hears) s a = false) s₀ s) :
    LivenessKept threshold tx s₀ s := by
  have hstamp : stampOf (fun d : DeviceRow => d.lastHeartbeat) s₀.row ≤ some s₀.clock := by
    rcases hlast : stampOf (fun d : DeviceRow => d.lastHeartbeat) s₀.row with _ | last
    · exact Option.none_le
    · obtain ⟨device, hdevice, hlast⟩ := Option.bind_eq_some_iff.mp hlast
      exact Option.some_le_some.mpr (hclock device hdevice last hlast)
  have hs₀ : LivenessInv threshold deviceId tx s₀.row s₀ := by
    refine ⟨h₀.stampInv hstamp, fun device _ _ => ?_, fun hv => absurd hv (h₀.not_views _ _)⟩
    rw [h₀.log]
    exact fun e he => absurd he List.not_mem_nil
  have hs : LivenessInv threshold deviceId tx s₀.row s :=
    h.invariant (LivenessInv threshold deviceId tx s₀.row)
      (fun hu hok hstep => hu.step hok hstep) hs₀
  refine ⟨hs.stamps.stamped, fun device hdevice hoffline e he hheartbeat => ?_⟩
  refine hs.stored device hdevice hoffline e he ?_
  rcases htx : tx e.1 with _ | _ | _ | _
  all_goals simp [htx, LivenessTx.isHeartbeat, LivenessTx.hears] at hheartbeat ⊢

/-! ### A scheduler and a heartbeat -/

namespace LateScheduler

/-- A device registers, and later a heartbeat arrives while the scheduler is at work. -/
def calls : ℕ → LivenessTx
  | 0 => .register 1 ⟨some "rpi", some "arm64", some "linux", some "1.4.0", none⟩
  | 1 => .heartbeat
  | _ => .markOfflineDevices

/-- A transaction from its first statement to its commit. -/
def inOneGo (i : ℕ) : List (Action ℕ) :=
  [.start i, .read i, .compute i, .write i, .commit i]

/-- The scheduler has read the row before the heartbeat. -/
def overlapping : List (Action ℕ) :=
  inOneGo 0 ++ [.tick 400, .start 2, .read 2] ++ inOneGo 1 ++ [.compute 2, .write 2, .commit 2]

end LateScheduler

open LateScheduler in
/-- The heartbeat is long ago when the scheduler sets the device offline. -/
theorem liveness_kept_of_late_scheduler :
    ∃ s, (Reaches (SharedRow.step fun i => (calls i).program 300 "rpi-1")
        (fun s a => overlooks (fun i => (calls i).hears) s a = false) (.start 5 none) s ∧
          s.row.any (fun device => device.state = .offline) ∧ s.log.length = 3) ∧
      LivenessKept 300 calls (.start 5 none) s := by
  obtain ⟨s, hs⟩ : ∃ s, Reaches (SharedRow.step fun i => (calls i).program 300 "rpi-1")
      (fun s a => overlooks (fun i => (calls i).hears) s a = false) (.start 5 none) s ∧
        s.row.any (fun device => device.state = .offline) ∧ s.log.length = 3 :=
    exists_reaches_of_execBy (inOneGo 0 ++ [.tick 10] ++ inOneGo 1 ++ [.tick 400] ++ inOneGo 2)
      (by decide +kernel)
  exact ⟨s, hs, liveness_kept (starting_start 5 none) (fun _ h => absurd h.symm
    (Option.some_ne_none _)) hs.1⟩

open LateScheduler in
/-- The scheduler takes a heartbeat back that has committed after it has read the row: the time of
the last heartbeat goes back, and the device is offline at the instant of its heartbeat. -/
theorem scheduler_takes_heartbeat_back :
    ¬ ∀ s, Reachable (SharedRow.step fun i => (calls i).program 300 "rpi-1") (.start 5 none) s →
      LivenessKept 300 calls (.start 5 none) s := by
  intro hall
  obtain ⟨s, hreach, hclock, device, hdevice, hoffline, e, he, hheartbeat, hnow⟩ :
      ∃ s, Reachable (SharedRow.step fun i => (calls i).program 300 "rpi-1") (.start 5 none) s ∧
        s.clock = 405 ∧ ∃ device ∈ s.row, device.state = .offline ∧
          ∃ e ∈ s.log, (calls e.1).isHeartbeat ∧ e.2.now = 405 :=
    exists_reaches_of_execBy overlapping (by decide +kernel)
  have hlate := (hall s hreach).offline device hdevice hoffline e he hheartbeat
  omega

end EdgeGuardian.Controller
