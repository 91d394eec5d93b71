import EdgeGuardian.Controller.Manifests
import EdgeGuardian.Controller.DeviceConfinement
import EdgeGuardian.Lib.Transition

/-!
# The manifest that a device holds and the one that is stored

A heartbeat carries the version of the manifest that the agent holds, and the controller pushes the
stored manifest when its version is higher. Copies of earlier pushes live in four other places: in
the memory of the agent and in its cache on disk, with the broker as the retained message and on the
way, and as the version in heartbeats that were sent and not yet processed. The version of the
stored row starts again at 1 when the device is deleted and enrolled again, while the copies keep
the versions that they have.

The agent's struct is what `json.Unmarshal` makes of a push; the model keeps the push.

Source: `controller/src/main/java/com/edgeguardian/controller/mqtt/HeartbeatListener.java`,
`service/DeviceRegistry.java`, `agent/cmd/agent/main.go`, `agent/internal/reconciler/reconciler.go`,
`agent/internal/comms/mqtt_client.go`, `agent/internal/storage/store.go`.

## Main definitions

* `DesiredState`, `Heartbeat`, `System`: pushes, heartbeats, and the controller with the agent of
  one device.
* `System.step`: the steps of the controller, the broker and the agent.
* `System.Agrees`: a heartbeat that pushes nothing was sent with the stored manifest.
* `CreatesFresh`: a manifest row is created when no copy of another manifest is left.

## Main results

* `Tracked.step`: every copy is older than the stored manifest or the same.
* `agrees_of_createsFresh`: agreement in every run whose manifests are created fresh.
-/

namespace EdgeGuardian

open Controller

/-- The body of a message on `state/desired`. -/
structure DesiredState where
  metadata : List (String × Json)
  spec : List (String × Json)
  version : ℕ
deriving DecidableEq, Repr

/-- What `pushDesiredState` sends of a row. -/
def desiredStateOf (m : DeviceManifestEntity) : DesiredState := ⟨m.metadata, m.spec, m.version⟩

/-- A heartbeat, with the manifest that the agent held when it sent it. -/
structure Heartbeat where
  held : Option DesiredState
  status : Option DeviceStatusPayload
  autoUpdate : Option Bool
deriving DecidableEq, Repr

/-- `Reconciler.ManifestVersion`. -/
def manifestVersion (held : Option DesiredState) : ℕ := (held.map DesiredState.version).getD 0

/-- The body of a heartbeat. -/
def Heartbeat.payload (deviceId : String) (hb : Heartbeat) : HeartbeatPayload where
  deviceId := some deviceId
  status := hb.status
  manifestVersion := manifestVersion hb.held
  autoUpdate := hb.autoUpdate

/-- The controller, the broker and the agent of one device. -/
structure System where
  db : Db
  /-- The retained message on the topic of the device. -/
  retained : Option DesiredState
  /-- The messages on their way to the agent, in order. -/
  pushes : List DesiredState
  /-- `Reconciler.desiredState`. -/
  held : Option DesiredState
  /-- The manifest under `current` in the agent's database. -/
  cached : Option DesiredState
  /-- The heartbeats sent so far. -/
  heartbeats : List Heartbeat

/-- A controller without rows and an agent on its first start. -/
def System.start (tokens : Table EnrollmentToken EnrollmentToken.token) : System where
  db := .empty tokens
  retained := none
  pushes := []
  held := none
  cached := none
  heartbeats := []

/-- The steps. -/
inductive System.Action
  /-- A user updates the manifest of a device. -/
  | updateManifest (principal : TenantPrincipal) (deviceId : String)
      (metadata spec : List (String × Json))
  /-- A user deletes a device. -/
  | deleteDevice (env : Env) (deviceId : String) (actorUserId : Option UserId)
  /-- A device enrols. -/
  | enrollDevice (env : Env) (token deviceId : String) (facts : DeviceFacts)
  /-- The agent sends a heartbeat; its status is a word of at most nine letters, and its times are
  those of the agent's clock. -/
  | sendHeartbeat (status : Option DeviceStatusPayload) (autoUpdate : Option Bool)
  /-- The controller processes a heartbeat that was sent. -/
  | onHeartbeat (env : Env) (hb : Heartbeat)
  /-- The first message on its way reaches the agent; `saved` if the cache could be written. -/
  | deliver (saved : Bool)
  /-- The first message on its way is lost. -/
  | lose
  /-- The agent subscribes, and the broker sends the retained message. -/
  | subscribe
  /-- The agent restarts; `loaded` if the cache could be read. -/
  | restart (loaded : Bool)
deriving DecidableEq

/-- The pushes to the device among the messages of a listener. -/
def pushesTo (deviceId : String) (out : List Outgoing) : List DesiredState :=
  out.filterMap fun
    | .desiredState d m => if d = deviceId then some (desiredStateOf m) else none
    | _ => none

/-- The database after a committed transaction. -/
def committed {α : Type} (x : Service α) (db : Db) : Option Db :=
  match x.run db with
  | .ok (_, db') => some db'
  | .error _ => none

theorem committed_eq_some {α : Type} {x : Service α} {db db' : Db} :
    committed x db = some db' ↔ ∃ a, x.run db = .ok (a, db') := by
  rw [committed]
  rcases x.run db with e | ⟨a, u⟩ <;> simp

/-- The system after a listener of the controller ran: its pushes are on their way, and the broker
retains the last one. -/
def System.after (deviceId : String) (s : System) (result : Db × List Outgoing) : System :=
  { s with
    db := result.1
    pushes := s.pushes ++ pushesTo deviceId result.2
    retained := (pushesTo deviceId result.2).getLast?.or s.retained }

/-- One step of the system of the device `deviceId`; `decodes` says which pushes the agent can
decode. -/
def System.step (ctx : Context) (decodes : DesiredState → Bool) (deviceId : String) (s : System) :
    System.Action → Option System
  | .updateManifest principal d metadata spec =>
    (committed (Controller.updateManifest principal d metadata spec) s.db).map fun db =>
      { s with db }
  | .deleteDevice env d actorUserId =>
    (committed (Controller.deleteDevice ctx.toPkiContext env d actorUserId) s.db).map fun db =>
      { s with db }
  | .enrollDevice env token d facts =>
    (committed (Controller.enrollDevice ctx.toPkiContext env token d facts) s.db).map fun db =>
      { s with db }
  | .sendHeartbeat status autoUpdate =>
    if StatusFits (status.map (·.toEntity ctx)) then
      some { s with heartbeats := s.heartbeats ++ [⟨s.held, status, autoUpdate⟩] }
    else none
  | .onHeartbeat env hb =>
    if hb ∈ s.heartbeats then
      some (s.after deviceId (Controller.onHeartbeat ctx env (some (hb.payload deviceId)) s.db))
    else none
  | .deliver saved =>
    match s.pushes with
    | [] => none
    | m :: pushes =>
      if decodes m then
        some { s with pushes, held := some m, cached := if saved then some m else s.cached }
      else some { s with pushes }
  | .lose => some { s with pushes := s.pushes.tail }
  | .subscribe => some { s with pushes := s.pushes ++ s.retained.toList }
  | .restart loaded => some { s with held := if loaded then s.cached else none }

/-- A heartbeat that pushes nothing for a device with a stored manifest was sent with a manifest of
the same metadata and spec. -/
def System.Agrees (ctx : Context) (deviceId : String) (s : System) : Prop :=
  ∀ hb ∈ s.heartbeats, ∀ env m, s.db.manifests.find? deviceId = some m →
    (Controller.onHeartbeat ctx env (some (hb.payload deviceId)) s.db).2 = [] →
    ∃ held, hb.held = some held ∧ held.metadata = m.metadata ∧ held.spec = m.spec

/-- All copies of manifests outside of the database. -/
def System.copies (s : System) : List DesiredState :=
  s.held.toList ++ s.cached.toList ++ s.retained.toList ++ s.pushes ++
    s.heartbeats.filterMap Heartbeat.held

/-- When an update creates the manifest row of the device, every copy that is left is the manifest
created. -/
def CreatesFresh (deviceId : String) (s : System) : System.Action → Prop
  | .updateManifest _ d metadata spec =>
    d = deviceId → s.db.manifests.find? d = none → ∀ c ∈ s.copies, c = ⟨metadata, spec, 1⟩
  | _ => True

instance (deviceId : String) (s : System) : (a : System.Action) →
    Decidable (CreatesFresh deviceId s a)
  | .updateManifest _ _ _ _ =>
    have : Decidable (s.db.manifests.find? deviceId = none) := inferInstance
    inferInstanceAs (Decidable (_ → _ → ∀ _ ∈ _, _))
  | .deleteDevice _ _ _ => inferInstanceAs (Decidable True)
  | .enrollDevice _ _ _ _ => inferInstanceAs (Decidable True)
  | .sendHeartbeat _ _ => inferInstanceAs (Decidable True)
  | .onHeartbeat _ _ => inferInstanceAs (Decidable True)
  | .deliver _ => inferInstanceAs (Decidable True)
  | .lose => inferInstanceAs (Decidable True)
  | .subscribe => inferInstanceAs (Decidable True)
  | .restart _ => inferInstanceAs (Decidable True)

/-! ### Copies are older than the stored manifest, or the same -/

/-- The invariant: the device of a stored manifest is known, versions count from 1, every copy is
older than the stored manifest or is the stored manifest, and the columns of the schema hold the
statuses on their way. -/
structure Tracked (ctx : Context) (deviceId : String) (s : System) : Prop where
  known : ∀ m, s.db.manifests.find? deviceId = some m → (s.db.devices.find? deviceId).isSome
  counted : ∀ m, s.db.manifests.find? deviceId = some m → 1 ≤ m.version
  behind : ∀ m, s.db.manifests.find? deviceId = some m →
    ∀ c ∈ s.copies, c.version < m.version ∨ c = desiredStateOf m
  fits : ∀ hb ∈ s.heartbeats, StatusFits (hb.status.map (·.toEntity ctx))

section Steps

variable {ctx : Context} {decodes : DesiredState → Bool} {deviceId : String} {s t : System}

theorem mem_copies {c : DesiredState} : c ∈ s.copies ↔ s.held = some c ∨ s.cached = some c ∨
    s.retained = some c ∨ c ∈ s.pushes ∨ ∃ hb ∈ s.heartbeats, hb.held = some c := by
  simp only [System.copies, List.mem_append, Option.mem_toList, List.mem_filterMap, or_assoc]

theorem tracked_start (tokens : Table EnrollmentToken EnrollmentToken.token) :
    Tracked ctx deviceId (.start tokens) :=
  ⟨fun _ h => (nomatch h), fun _ h => (nomatch h), fun _ h => (nomatch h), fun _ h => (nomatch h)⟩

/-- Steps outside of the database make copies of copies. -/
theorem Tracked.of_copies (h : Tracked ctx deviceId s) (hdb : t.db = s.db)
    (hsub : ∀ c ∈ t.copies, c ∈ s.copies)
    (hfits : ∀ hb ∈ t.heartbeats, StatusFits (hb.status.map (·.toEntity ctx))) :
    Tracked ctx deviceId t := by
  refine ⟨?_, ?_, ?_, hfits⟩
  · rw [hdb]
    exact h.known
  · rw [hdb]
    exact h.counted
  · rw [hdb]
    exact fun m hm c hc => h.behind m hm c (hsub c hc)

/-- Steps that do not touch the manifest of the device, nor forget the device. -/
theorem Tracked.of_find?_eq (h : Tracked ctx deviceId s) {db : Db}
    (hmanifests : db.manifests.find? deviceId = s.db.manifests.find? deviceId)
    (hdevices : (s.db.devices.find? deviceId).isSome → (db.devices.find? deviceId).isSome) :
    Tracked ctx deviceId { s with db } := by
  refine ⟨fun m hm => ?_, fun m hm => ?_, fun m hm => ?_, h.fits⟩ <;> rw [hmanifests] at hm
  · exact hdevices (h.known m hm)
  · exact h.counted m hm
  · exact h.behind m hm

/-- An update counts up, or creates the row where no other copy is left. -/
theorem Tracked.updateManifest {principal : TenantPrincipal} {d : String}
    {metadata spec : List (String × Json)} {db : Db} (h : Tracked ctx deviceId s)
    (hfresh : CreatesFresh deviceId s (.updateManifest principal d metadata spec))
    (hrun : (Controller.updateManifest principal d metadata spec).run s.db = .ok ((), db)) :
    Tracked ctx deviceId { s with db } := by
  obtain ⟨device, hfind, hdevices, hmanifests⟩ := updateManifest_cases (d := deviceId) hrun
  by_cases hd : deviceId = d
  · subst hd
    rw [if_pos rfl] at hmanifests
    have hsome : (db.devices.find? deviceId).isSome := by
      rw [hdevices, hfind]
      rfl
    refine ⟨fun m _ => hsome, fun m hm => ?_, fun m hm c hc => ?_, h.fits⟩ <;>
      obtain rfl : savedManifest device metadata spec (s.db.manifests.find? deviceId) = m :=
        Option.some.inj (hmanifests.symm.trans hm)
    · rcases s.db.manifests.find? deviceId with _ | old
      · exact Nat.le_refl 1
      · exact Nat.succ_le_succ (Nat.zero_le old.version)
    · rcases hold : s.db.manifests.find? deviceId with _ | old
      · exact .inr (hfresh rfl hold c hc)
      · refine .inl ?_
        show c.version < old.version + 1
        rcases h.behind old hold c hc with hlt | rfl
        · omega
        · exact Nat.lt_succ_self old.version
  · rw [if_neg hd] at hmanifests
    exact h.of_find?_eq hmanifests fun hknown => hdevices ▸ hknown

theorem Tracked.deleteDevice {pki : PkiContext} {env : Env} {d : String}
    {actorUserId : Option UserId} {db : Db} (h : Tracked ctx deviceId s)
    (hrun : (Controller.deleteDevice pki env d actorUserId).run s.db = .ok ((), db)) :
    Tracked ctx deviceId { s with db } := by
  obtain ⟨hmanifests, hdevices⟩ := find?_manifests_deleteDevice (d := deviceId) hrun
  by_cases hd : deviceId = d
  · rw [if_pos hd] at hmanifests
    refine ⟨fun m hm => ?_, fun m hm => ?_, fun m hm => ?_, h.fits⟩ <;>
      exact nomatch hmanifests.symm.trans hm
  · rw [if_neg hd] at hmanifests hdevices
    exact h.of_find?_eq hmanifests fun hknown => hdevices ▸ hknown

theorem Tracked.enrollDevice {pki : PkiContext} {env : Env} {token d : String}
    {facts : DeviceFacts} {r : EnrollmentResult} {db : Db} (h : Tracked ctx deviceId s)
    (hrun : (Controller.enrollDevice pki env token d facts).run s.db = .ok (r, db)) :
    Tracked ctx deviceId { s with db } := by
  obtain ⟨row, -, -, -, -, rfl⟩ := enrollDevice_run_eq_ok.mp hrun
  refine h.of_find?_eq rfl fun hknown => ?_
  show ((s.db.devices.save _).find? deviceId).isSome
  rw [Table.find?_save]
  split_ifs
  · rfl
  · exact hknown

/-- A heartbeat keeps the manifests and the devices that are known. -/
theorem onHeartbeat_keeps {env : Env} {payload : HeartbeatPayload} {db : Db}
    (hid : payload.deviceId = some deviceId) (hblank : isBlank deviceId = false) :
    (Controller.onHeartbeat ctx env (some payload) db).1.manifests = db.manifests ∧
      ((db.devices.find? deviceId).isSome →
        ((Controller.onHeartbeat ctx env (some payload) db).1.devices.find? deviceId).isSome) := by
  rcases hfind : db.devices.find? deviceId with _ | device
  · have hsame : (Controller.onHeartbeat ctx env (some payload) db).1 = db := by
      refine onHeartbeat_fst_of_unknown fun d hd _ => ?_
      rw [hid, Option.some.injEq] at hd
      rw [← hd, hfind]
    rw [hsame]
    exact ⟨rfl, fun hsome => nomatch hsome⟩
  · have hheard : (hear env deviceId device (payload.status.map (·.toEntity ctx))
        db).devices.find? deviceId = some (device.heard env) := find?_devices_hear hfind
    rw [onHeartbeat_fst hid hblank hfind]
    split_ifs
    · rcases payload.autoUpdate with _ | value
      · refine ⟨manifests_hear _ _, fun _ => ?_⟩
        rw [Option.elim_none, hheard]
        rfl
      · have hrecorded : ∃ device', (recordAutoUpdate deviceId value (hear env deviceId device
            (payload.status.map (·.toEntity ctx)) db)).devices.find? deviceId = some device' ∧
            device'.lastHeartbeat = (device.heard env).lastHeartbeat :=
          find?_devices_recordAutoUpdate hheard
        obtain ⟨device', hfind', -⟩ := hrecorded
        refine ⟨(manifests_recordAutoUpdate value).trans (manifests_hear _ _), fun _ => ?_⟩
        rw [Option.elim_some, hfind']
        rfl
    · exact ⟨rfl, fun _ => hfind ▸ rfl⟩

/-- A heartbeat pushes the stored manifest or nothing. -/
theorem mem_pushesTo_onHeartbeat {env : Env} {payload : HeartbeatPayload} {db : Db}
    {c : DesiredState} (hid : payload.deviceId = some deviceId) (hblank : isBlank deviceId = false)
    (hc : c ∈ pushesTo deviceId (Controller.onHeartbeat ctx env (some payload) db).2) {m}
    (hm : db.manifests.find? deviceId = some m) (hknown : (db.devices.find? deviceId).isSome) :
    c = desiredStateOf m := by
  obtain ⟨device, hfind⟩ := Option.isSome_iff_exists.mp hknown
  rw [snd_onHeartbeat hid hblank hfind, hm] at hc
  obtain ⟨out, hout, hc⟩ := List.mem_filterMap.mp hc
  split_ifs at hout
  · obtain ⟨m', hm', rfl⟩ := List.mem_map.mp hout
    obtain ⟨hm', -⟩ := Option.filter_eq_some_iff.mp (Option.mem_toList.mp hm')
    obtain rfl : m = m' := Option.some.inj hm'
    simpa using hc.symm
  · exact absurd hout (List.not_mem_nil)

theorem Tracked.onHeartbeat {env : Env} {hb : Heartbeat} (h : Tracked ctx deviceId s)
    (hblank : isBlank deviceId = false) : Tracked ctx deviceId
      (s.after deviceId (Controller.onHeartbeat ctx env (some (hb.payload deviceId)) s.db)) := by
  have hkeeps : (Controller.onHeartbeat ctx env (some (hb.payload deviceId)) s.db).1.manifests =
      s.db.manifests ∧ ((s.db.devices.find? deviceId).isSome → ((Controller.onHeartbeat ctx env
        (some (hb.payload deviceId)) s.db).1.devices.find? deviceId).isSome) :=
    onHeartbeat_keeps rfl hblank
  obtain ⟨hmanifests, hdevices⟩ := hkeeps
  rw [System.after]
  refine ⟨fun m hm => ?_, fun m hm => ?_, fun m hm c hc => ?_, h.fits⟩ <;>
    rw [hmanifests] at hm
  · exact hdevices (h.known m hm)
  · exact h.counted m hm
  · have hpushed : c ∈ pushesTo deviceId
        (Controller.onHeartbeat ctx env (some (hb.payload deviceId)) s.db).2 →
        c = desiredStateOf m :=
      fun hc => mem_pushesTo_onHeartbeat rfl hblank hc hm (h.known m hm)
    by_cases hold : c ∈ s.copies
    · exact h.behind m hm c hold
    · refine .inr (hpushed ?_)
      simp only [mem_copies, Option.or_eq_some_iff, List.mem_append] at hc hold
      have hlast : ∀ l : List DesiredState, l.getLast? = some c → c ∈ l :=
        fun _ => List.mem_of_getLast?
      grind

/-- A step that only moves copies around. -/
theorem copies_subset_of_step {a : System.Action} {c : DesiredState}
    (hstep : System.step ctx decodes deviceId s a = some t)
    (ha : ∀ env hb, a ≠ .onHeartbeat env hb) (hc : c ∈ t.copies) : c ∈ s.copies := by
  cases a with
  | updateManifest principal d metadata spec =>
    obtain ⟨db, -, rfl⟩ := Option.map_eq_some_iff.mp hstep
    exact hc
  | deleteDevice env d actorUserId =>
    obtain ⟨db, -, rfl⟩ := Option.map_eq_some_iff.mp hstep
    exact hc
  | enrollDevice env token d facts =>
    obtain ⟨db, -, rfl⟩ := Option.map_eq_some_iff.mp hstep
    exact hc
  | onHeartbeat env hb => exact absurd rfl (ha env hb)
  | sendHeartbeat status autoUpdate =>
    rw [System.step] at hstep
    split_ifs at hstep
    obtain rfl := Option.some.inj hstep
    simp only [mem_copies, List.mem_append, List.mem_singleton] at hc ⊢
    grind
  | deliver saved =>
    rw [System.step] at hstep
    rcases hpushes : s.pushes with _ | ⟨m, pushes⟩ <;> rw [hpushes] at hstep
    · exact absurd hstep.symm (Option.some_ne_none t)
    · dsimp only at hstep
      split_ifs at hstep <;> obtain rfl := Option.some.inj hstep <;>
        simp only [mem_copies, hpushes, List.mem_cons] at hc ⊢ <;> grind
  | lose =>
    obtain rfl := Option.some.inj hstep
    simp only [mem_copies] at hc ⊢
    have htail : c ∈ s.pushes.tail → c ∈ s.pushes := List.mem_of_mem_tail
    grind
  | subscribe =>
    obtain rfl := Option.some.inj hstep
    simp only [mem_copies, List.mem_append, Option.mem_toList] at hc ⊢
    grind
  | restart loaded =>
    obtain rfl := Option.some.inj hstep
    simp only [mem_copies] at hc ⊢
    grind

/-- **The step lemma.** A step keeps every copy older than the stored manifest or the same, if
it creates the row of the device only where no other copy is left. -/
theorem Tracked.step {a : System.Action} (h : Tracked ctx deviceId s)
    (hblank : isBlank deviceId = false) (hfresh : CreatesFresh deviceId s a)
    (hstep : System.step ctx decodes deviceId s a = some t) : Tracked ctx deviceId t := by
  have hsub : (∀ env hb, a ≠ .onHeartbeat env hb) → ∀ c ∈ t.copies, c ∈ s.copies :=
    fun ha _ hc => copies_subset_of_step hstep ha hc
  cases a with
  | updateManifest principal d metadata spec =>
    obtain ⟨db, hdb, rfl⟩ := Option.map_eq_some_iff.mp hstep
    obtain ⟨_, hrun⟩ := committed_eq_some.mp hdb
    exact h.updateManifest hfresh hrun
  | deleteDevice env d actorUserId =>
    obtain ⟨db, hdb, rfl⟩ := Option.map_eq_some_iff.mp hstep
    obtain ⟨_, hrun⟩ := committed_eq_some.mp hdb
    exact h.deleteDevice hrun
  | enrollDevice env token d facts =>
    obtain ⟨db, hdb, rfl⟩ := Option.map_eq_some_iff.mp hstep
    obtain ⟨_, hrun⟩ := committed_eq_some.mp hdb
    exact h.enrollDevice hrun
  | onHeartbeat env hb =>
    rw [System.step] at hstep
    split_ifs at hstep
    obtain rfl := Option.some.inj hstep
    exact h.onHeartbeat hblank
  | deliver saved =>
    have hsame : t.db = s.db ∧ t.heartbeats = s.heartbeats := by
      rw [System.step] at hstep
      rcases hpushes : s.pushes with _ | ⟨m, pushes⟩ <;> rw [hpushes] at hstep
      · exact nomatch hstep
      · dsimp only at hstep
        split_ifs at hstep <;> obtain rfl := Option.some.inj hstep <;> exact ⟨rfl, rfl⟩
    exact h.of_copies hsame.1 (hsub fun _ _ => nofun) (hsame.2 ▸ h.fits)
  | sendHeartbeat status autoUpdate =>
    have hcopies : ∀ c ∈ t.copies, c ∈ s.copies := hsub fun _ _ => nofun
    rw [System.step] at hstep
    split_ifs at hstep with hfits
    obtain rfl := Option.some.inj hstep
    refine h.of_copies rfl hcopies fun hb hmem => ?_
    rcases List.mem_append.mp hmem with hold | hnew
    · exact h.fits hb hold
    · obtain rfl := List.mem_singleton.mp hnew
      exact hfits
  | lose =>
    obtain rfl := Option.some.inj hstep
    exact h.of_copies rfl (hsub fun _ _ => nofun) h.fits
  | subscribe =>
    obtain rfl := Option.some.inj hstep
    exact h.of_copies rfl (hsub fun _ _ => nofun) h.fits
  | restart loaded =>
    obtain rfl := Option.some.inj hstep
    exact h.of_copies rfl (hsub fun _ _ => nofun) h.fits

/-- Where every copy is older or the same, a heartbeat that pushes nothing was sent with the stored
manifest. -/
theorem Tracked.agrees (h : Tracked ctx deviceId s) (hblank : isBlank deviceId = false) :
    s.Agrees ctx deviceId := by
  intro hb hmem env m hm hout
  obtain ⟨device, hfind⟩ := Option.isSome_iff_exists.mp (h.known m hm)
  have hfits : StatusFits ((hb.payload deviceId).status.map (·.toEntity ctx)) := h.fits hb hmem
  rw [snd_onHeartbeat rfl hblank hfind, if_pos hfits, hm, List.map_eq_nil_iff,
    Option.toList_eq_nil_iff] at hout
  have hversion : ¬ manifestVersion hb.held < m.version := by
    intro hlt
    have hpushed : (some m).filter (fun m => (hb.payload deviceId).manifestVersion < m.version) =
        some m := Option.filter_eq_some_iff.mpr ⟨rfl, decide_eq_true (Int.ofNat_lt.mpr hlt)⟩
    exact nomatch hpushed.symm.trans hout
  rcases hheld : hb.held with _ | held
  · rw [hheld, manifestVersion] at hversion
    exact absurd (h.counted m hm) hversion
  · rw [hheld, manifestVersion] at hversion
    have hcopy : held ∈ s.copies :=
      mem_copies.mpr (.inr (.inr (.inr (.inr ⟨hb, hmem, hheld⟩))))
    rcases h.behind m hm held hcopy with hlt | rfl
    · exact absurd hlt hversion
    · exact ⟨desiredStateOf m, rfl, rfl, rfl⟩

end Steps

/-- **Manifest agreement**, in every run in which a manifest row of the device is created only where
no copy of another manifest is left. -/
theorem agrees_of_createsFresh {ctx : Context} {decodes : DesiredState → Bool} {deviceId : String}
    (hblank : isBlank deviceId = false) {tokens : Table EnrollmentToken EnrollmentToken.token}
    {s : System}
    (h : Transition.Reaches (System.step ctx decodes deviceId) (CreatesFresh deviceId)
      (.start tokens) s) : s.Agrees ctx deviceId := by
  have htracked : Tracked ctx deviceId s :=
    h.invariant (Tracked ctx deviceId) (fun hs ha hstep => hs.step hblank ha hstep)
      (tracked_start tokens)
  exact htracked.agrees hblank

/-! ### A device that is deleted and enrolled again -/

namespace Recreated

/-- One enrolment token of organization 1. -/
def tokens : Table EnrollmentToken EnrollmentToken.token where
  rows :=
    [{ id := 1, organizationId := 1, token := "a", name := "a", expiresAt := none, maxUses := none,
       useCount := 0, revoked := false }]
  nodup := by decide

/-- The device enrols. -/
def enrols (now : Instant) : System.Action :=
  .enrollDevice ⟨now, 0, "edt"⟩ "a" "d" ⟨none, none, none, none, none⟩

/-- A user of organization 1 gives the device a manifest with a name. -/
def names (name : String) : System.Action :=
  .updateManifest ⟨1, 7⟩ "d" [("name", .str name)] []

/-- The agent gets the stored manifest with its first heartbeat. -/
def fetches (now : Instant) : List System.Action :=
  [.sendHeartbeat none none, .onHeartbeat ⟨now, 0, ""⟩ ⟨none, none, none⟩, .deliver true]

end Recreated

/-- The agent follows an update, also after a restart. -/
theorem agrees_after_restart :
    ∃ s, Transition.Reaches (System.step default (fun _ => true) "d") (CreatesFresh "d")
        (.start Recreated.tokens) s ∧
      (s.held.map DesiredState.version = some 1 ∧ s.heartbeats.length = 2) ∧
      s.Agrees default "d" := by
  have hrun : ∃ s, Transition.Reaches (System.step default (fun _ => true) "d") (CreatesFresh "d")
      (.start Recreated.tokens) s ∧ s.held.map DesiredState.version = some 1 ∧
        s.heartbeats.length = 2 :=
    Transition.exists_reaches_of_execBy
      ([Recreated.enrols 1, Recreated.names "first"] ++ Recreated.fetches 2 ++
        [System.Action.restart true, .sendHeartbeat none none])
      (by decide +kernel)
  obtain ⟨s, hreach, hheld⟩ := hrun
  exact ⟨s, hreach, hheld, agrees_of_createsFresh (by decide +kernel) hreach⟩

/-- A device that is deleted and enrolled again starts with version 1, which the agent has: it is
not sent the new manifest. -/
theorem disagrees_after_reenrolment :
    ∃ s, Transition.Reachable (System.step default (fun _ => true) "d")
        (.start Recreated.tokens) s ∧
      ¬ s.Agrees default "d" := by
  have hrun : ∃ s, Transition.Reachable (System.step default (fun _ => true) "d")
      (.start Recreated.tokens) s ∧
      ∃ hb ∈ s.heartbeats, hb.held = some ⟨[("name", .str "first")], [], 1⟩ ∧
        (s.db.manifests.find? "d").map DeviceManifestEntity.metadata =
          some [("name", .str "second")] ∧
        (Controller.onHeartbeat default ⟨6, 0, ""⟩ (some (hb.payload "d")) s.db).2.isEmpty :=
    Transition.exists_reaches_of_execBy
      ([Recreated.enrols 1, Recreated.names "first"] ++ Recreated.fetches 2 ++
        [System.Action.deleteDevice ⟨3, 0, ""⟩ "d" none, Recreated.enrols 4,
          Recreated.names "second", .sendHeartbeat none none])
      (by decide +kernel)
  obtain ⟨s, hreach, hb, hmem, hheld, hstored, hout⟩ := hrun
  refine ⟨s, hreach, fun h => ?_⟩
  obtain ⟨m, hm, hmetadata⟩ := Option.map_eq_some_iff.mp hstored
  obtain ⟨held, hheld', hsame, -⟩ := h hb hmem ⟨6, 0, ""⟩ m hm (List.isEmpty_iff.mp hout)
  obtain rfl := Option.some.inj (hheld.symm.trans hheld')
  rw [hmetadata] at hsame
  exact absurd hsame (by decide)

end EdgeGuardian
