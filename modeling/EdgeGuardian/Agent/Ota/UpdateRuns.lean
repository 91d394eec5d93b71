import EdgeGuardian.Agent.Ota.SelfUpdate
import EdgeGuardian.Agent.Watchdog

/-!
# Updates across the processes of the agent

An update goes through three processes: the agent that stages a binary, leaves an update marker and
exits with code 42, the watchdog that swaps the binaries and may put the old one back later, and the
agent that it starts then, which tells from the two markers what has become of the update. The
watchdog leaves a marker of its own when it rolls back. An agent may end before it looks at the
markers, and the watchdog starts the next one.

The runs of `CheckAndApply` in one process come one after the other here; what becomes of the
staging file where they overlap is another matter. A process may be killed when it has written the
update marker and has not exited yet. The version of a binary is the one that it was built with.

Source: `agent/cmd/agent/main.go` (`checkPostUpdateStatus`, `runAutoUpdate`),
`agent/internal/ota/updater.go`, `agent/internal/ota/selfupdate.go`, `agent/cmd/watchdog/main.go`.

## Main definitions

* `Report`, `checkPostUpdateStatus`: what an agent says about the last update.
* `Process`, `life`: one process of the agent, with the turn of the watchdog after it.
* `run`: the processes one after the other.
* `sinceCheck`: the processes since the last one that looked at the markers.

## Main results

* `report_iff`: an agent reports an update as completed exactly when the binary was swapped since
  the last report and not rolled back, and as rolled back exactly when it was.
* `active_signed_of_enforced`: while the signature is checked, every binary that is started is the
  first one or signed.
-/

namespace EdgeGuardian.Agent.Ota

open Watchdog (Did otaExitCode turn)

/-! ### The report -/

/-- What an agent logs about the last update, with the previous version of the update marker. -/
inductive Report
  | none
  | completed (previousVersion : String)
  | rolledBack (previousVersion : Option String)
deriving DecidableEq, Repr

/-- The binaries with the variables of the watchdog, which know the staging file and the rollback
marker, and the update marker. -/
structure Installation where
  watchdog : Watchdog.State Bytes
  updateMarker : Option UpdateMarker

/-- `checkPostUpdateStatus`, where the markers can be read and removed. -/
def checkPostUpdateStatus (s : Installation) : Report × Installation :=
  if s.watchdog.rollbackMarker.isSome then
    (.rolledBack (s.updateMarker.map UpdateMarker.previousVersion),
      { watchdog := { s.watchdog with rollbackMarker := none }, updateMarker := none })
  else
    match s.updateMarker with
    | none => (.none, s)
    | some marker => (.completed marker.previousVersion, { s with updateMarker := none })

/-! ### Processes -/

/-- A run of `CheckAndApply`: the answer about the latest release, and what the rest meets. -/
structure Attempt where
  latest : HttpAnswer (Option ReleaseInfo)
  env : Environment
  /-- The process ends with another code where it would exit with code 42. -/
  killed : Bool

/-- What a process of the agent meets. It exits with code 42 from `Apply` only. -/
structure Process where
  /-- The process gets to `checkPostUpdateStatus`. -/
  checks : Bool
  attempts : List Attempt
  code : ℤ
  code_ne : code ≠ otaExitCode
  now : ℕ

/-- The runs of `CheckAndApply`, up to the one that ends the process: whether it has exited with
code 42. -/
def attempt (p : Puller) (c : Crypto) : List Attempt → Files → Bool × Files
  | [], files => (false, files)
  | a :: rest, files =>
    let r := p.checkAndApply c a.latest a.env files
    if r.1 = some .exit42 then (!a.killed, r.2) else attempt p c rest r.2

/-- What one process has seen and done. -/
structure Lived where
  checked : Bool
  report : Report
  /-- The binary of the process. -/
  active : Option Bytes
  /-- What the watchdog has done after it. -/
  did : Did
  /-- The binary that the watchdog starts next. -/
  next : Option Bytes

/-- The version of the binary of a process. -/
def Lived.version (versionOf : Bytes → String) (l : Lived) : String := l.active.elim "" versionOf

section Lives

variable (c : Crypto) (cfg : Config) (os arch : String) (version : Bytes → String)

/-- The puller of a process whose binary is the active one. -/
def pullerFor (active : Option Bytes) : Puller :=
  pullerOf cfg os arch (active.elim "" version)

/-- The start of a process, up to `checkPostUpdateStatus` if it gets there. -/
def start (s : Installation) (p : Process) : Report × Installation :=
  if p.checks then checkPostUpdateStatus s else (.none, s)

/-- The rest of a process: whether `Apply` exits, and the files it leaves. -/
def work (active : Option Bytes) (s : Installation) (p : Process) : Bool × Files :=
  if p.checks then
    attempt (pullerFor cfg os arch version active) c p.attempts
      ⟨s.watchdog.files .staging, s.updateMarker⟩
  else (false, ⟨s.watchdog.files .staging, s.updateMarker⟩)

/-- One process of the agent, from its start to the next. -/
def life (s : Installation) (p : Process) : Lived × Installation :=
  let active := s.watchdog.files .agent
  let started := start s p
  let worked := work c cfg os arch version active started.2 p
  let turned := turn started.2.watchdog
    ⟨if worked.1 then otaExitCode else p.code, worked.2.staging, p.now⟩
  (⟨p.checks, started.1, active, turned.1, turned.2.files .agent⟩,
    ⟨turned.2, worked.2.updateMarker⟩)

/-- Processes one after the other: what they have seen and done, the last one first, and what they
leave. -/
def run (s : Installation) (ps : List Process) : List Lived × Installation :=
  ps.foldl (fun r p => ((life c cfg os arch version r.2 p).1 :: r.1,
    (life c cfg os arch version r.2 p).2)) ([], s)

end Lives

/-- The process among some after which the binary was swapped. -/
def swapIn (since : List Lived) : Option Lived := since.find? fun l => l.did = .swapped

/-- The binary was rolled back after one of some processes. -/
def RolledBackIn (since : List Lived) : Prop := ∃ l ∈ since, l.did = .rolledBack

instance (since : List Lived) : Decidable (RolledBackIn since) :=
  inferInstanceAs (Decidable (∃ l ∈ since, l.did = .rolledBack))

/-! ### What the runs of an update leave -/

section Attempts

variable {p : Puller} {c : Crypto} {env : Environment} {rel : ReleaseInfo} {files : Files}

/-- An attempt whose marker can be written, whose binary can be made executable, and which is not
killed between the two and its exit. -/
def Attempt.Writable (a : Attempt) : Prop := a.env.marker ∧ a.env.chmod ∧ a.killed = false

/-- A run of `Apply` stages verified bytes, leaves the marker and exits, or it leaves no marker. -/
theorem apply_cases :
    ((p.apply c env rel files).1 = .exit42 ∧
      ∃ data, p.verify c env rel data = .ok () ∧ (p.apply c env rel files).2.staging = some data ∧
        (env.marker → (p.apply c env rel files).2.updateMarker = some ⟨0, p.current, env.now⟩)) ∨
      (p.apply c env rel files).1 ≠ .exit42 ∧
        (env.chmod → (p.apply c env rel files).2.updateMarker = files.updateMarker) := by
  rcases hd : download env files with ⟨e | data, files'⟩
  · have hsame : files'.updateMarker = files.updateMarker := by
      rw [download] at hd
      split at hd
      · cases hd
        rfl
      · split_ifs at hd <;> cases hd <;> rfl
    rw [Puller.apply, hd]
    exact .inr ⟨Outcome.noConfusion, fun _ => hsame⟩
  · obtain ⟨hdata, -⟩ := download_eq_ok_iff.mp hd
    rcases hv : p.verify c env rel data with e | u
    · rw [apply_of_downloaded hdata, hv]
      exact .inr ⟨Outcome.noConfusion, fun _ => rfl⟩
    · rw [apply_of_verified hdata hv]
      by_cases hchmod : env.chmod
      · refine .inl ⟨updater_apply_eq_exit_iff.mpr hchmod, data, hv, staging_writeUpdateMarker _ _,
          fun hmarker => ?_⟩
        rw [writeUpdateMarker, if_pos hmarker]
      · exact .inr ⟨fun h => hchmod (updater_apply_eq_exit_iff.mp h), fun h => absurd h hchmod⟩

/-- A release that was staged, with the bytes that were verified. -/
def Staged (p : Puller) (c : Crypto) (a : Attempt) (data : Bytes) : Prop :=
  ∃ rel, latestRelease a.latest = some rel ∧ p.verify c a.env rel data = .ok ()

theorem checkAndApply_cases {a : Attempt} :
    ((p.checkAndApply c a.latest a.env files).1 = some .exit42 ∧
      ∃ data, Staged p c a data ∧
        (p.checkAndApply c a.latest a.env files).2.staging = some data ∧
          (a.Writable → (p.checkAndApply c a.latest a.env files).2.updateMarker =
            some ⟨0, p.current, a.env.now⟩)) ∨
      (p.checkAndApply c a.latest a.env files).1 ≠ some .exit42 ∧
        (a.Writable → (p.checkAndApply c a.latest a.env files).2.updateMarker =
          files.updateMarker) := by
  simp only [Puller.checkAndApply]
  rcases hrel : latestRelease a.latest with _ | rel
  · exact .inr ⟨by simp, fun _ => rfl⟩
  · by_cases hout : p.outdated rel
    · simp only [hout, if_true, ne_eq, Option.some.injEq]
      rcases apply_cases (p := p) (c := c) with ⟨hexit, data, hv, hstaging, hmarker⟩ |
        ⟨hexit, hmarker⟩
      · exact .inl ⟨hexit, data, ⟨rel, hrel, hv⟩, hstaging, fun ha => hmarker ha.1⟩
      · exact .inr ⟨hexit, fun ha => hmarker ha.2.1⟩
    · simp only [if_neg hout]
      exact .inr ⟨by simp, fun _ => trivial⟩

/-- The runs of a process. -/
theorem attempt_cases {as : List Attempt} :
    ((attempt p c as files).1 = true ∧
      ∃ a ∈ as, ∃ data, Staged p c a data ∧ (attempt p c as files).2.staging = some data ∧
        ((∀ a ∈ as, a.Writable) →
          (attempt p c as files).2.updateMarker = some ⟨0, p.current, a.env.now⟩)) ∨
      (attempt p c as files).1 = false ∧
        ((∀ a ∈ as, a.Writable) →
          (attempt p c as files).2.updateMarker = files.updateMarker) := by
  induction as generalizing files with
  | nil => exact .inr ⟨rfl, fun _ => rfl⟩
  | cons a rest ih =>
    rw [attempt]
    simp only [List.forall_mem_cons]
    rcases checkAndApply_cases (p := p) (c := c) with ⟨hexit, data, hstaged, hstaging, hmarker⟩ |
      ⟨hexit, hmarker⟩
    · rw [if_pos hexit]
      rcases hkilled : a.killed with _ | _
      · exact .inl ⟨rfl, a, List.mem_cons_self, data, hstaged, hstaging, fun ha => hmarker ha.1⟩
      · exact .inr ⟨rfl, fun ha => absurd (hkilled.symm.trans ha.1.2.2) Bool.noConfusion⟩
    · rw [if_neg hexit]
      rcases ih with ⟨hdone, b, hb, data, hstaged, hstaging, h⟩ | ⟨hdone, h⟩
      · exact .inl ⟨hdone, b, List.mem_cons_of_mem _ hb, data, hstaged, hstaging, fun ha => h ha.2⟩
      · exact .inr ⟨hdone, fun ha => (h ha.2).trans (hmarker ha.1)⟩

end Attempts

/-! ### Turns of the watchdog -/

section Turns

variable {w : Watchdog.State Bytes} {x : Watchdog.Exit Bytes} {a data : Bytes}

theorem rollbackMarker_rolledBack (now : ℕ) : (Watchdog.rolledBack w now).2.rollbackMarker =
    if (Watchdog.rolledBack w now).1 = .rolledBack then some now else w.rollbackMarker := by
  rw [Watchdog.rolledBack]
  split <;> rfl

theorem rollbackMarker_crashed (now : ℕ) : (Watchdog.crashed w now).2.rollbackMarker =
    if (Watchdog.crashed w now).1 = .rolledBack then some now else w.rollbackMarker := by
  rw [Watchdog.crashed]
  by_cases hjust : w.justSwapped
  · simp only [if_pos hjust]
    exact rollbackMarker_rolledBack now
  · simp only [if_neg hjust]
    split_ifs with hcount hdid hdid
    · rw [rollbackMarker_rolledBack, if_pos hdid]
    · rw [rollbackMarker_rolledBack, if_neg hdid]
    · cases hdid
    · rfl

/-- The watchdog leaves its marker exactly when it rolls back. -/
theorem rollbackMarker_turn : (turn w x).2.rollbackMarker =
    if (turn w x).1 = .rolledBack then some x.now else w.rollbackMarker := by
  rw [turn]
  by_cases hota : x.code = otaExitCode
  · simp only [if_pos hota]
    split <;> rfl
  by_cases hcrash : x.code ≠ 0
  · simp only [if_neg hota, if_pos hcrash]
    exact rollbackMarker_crashed x.now
  · simp only [if_neg hota, if_neg hcrash]
    rfl

/-- Without the code, nothing is swapped. -/
theorem turn_ne_swapped (hcode : x.code ≠ otaExitCode) : (turn w x).1 ≠ .swapped := by
  have hrolled (w : Watchdog.State Bytes) : (Watchdog.rolledBack w x.now).1 ≠ .swapped := by
    rw [Watchdog.rolledBack]
    split <;> simp
  rw [turn]
  simp only [if_neg hcode, Watchdog.crashed]
  split_ifs
  · exact hrolled _
  · exact hrolled _
  · simp
  · simp

/-- With the code, the staged binary is swapped in. -/
theorem turn_of_staged (hagent : w.files .agent = some a) (hcode : x.code = otaExitCode)
    (hstaged : x.staged = some data) :
    (turn w x).1 = .swapped ∧ (turn w x).2.files .agent = some data ∧
      (turn w x).2.files .bak = some a := by
  have hleft : (w.leave x.staged).files .agent = some a := (Watchdog.agent_leave _).trans hagent
  have hstaging : (w.leave x.staged).files .staging = some data := by
    rw [Watchdog.staging_leave, hstaged]
  obtain ⟨hok, hnew, hbak⟩ := Watchdog.swapBinary_of_staged hleft hstaging
  have hpair : Watchdog.swapBinary (w.leave x.staged).files =
      (none, (Watchdog.swapBinary (w.leave x.staged).files).2) := by rw [← hok]
  rw [turn]
  simp only [if_pos hcode]
  rw [hpair]
  exact ⟨rfl, hnew, hbak⟩

end Turns

/-! ### Runs -/

section Runs

variable {c : Crypto} {cfg : Config} {os arch : String} {version : Bytes → String}
  {s s₀ : Installation} {p : Process} {lived : List Lived}

theorem run_append {ps : List Process} :
    run c cfg os arch version s (ps ++ [p]) =
      ((life c cfg os arch version (run c cfg os arch version s ps).2 p).1 ::
          (run c cfg os arch version s ps).1,
        (life c cfg os arch version (run c cfg os arch version s ps).2 p).2) := by
  rw [run, List.foldl_append]
  rfl

/-- Everything that the process writes arrives, and it exits when it is about to. -/
def Process.Writable (p : Process) : Prop := ∀ a ∈ p.attempts, a.Writable

@[simp] theorem files_start : (start s p).2.watchdog.files = s.watchdog.files := by
  rw [start, checkPostUpdateStatus]
  split_ifs <;> first | rfl | (split <;> rfl)

/-- After the check, both markers are gone. -/
theorem start_of_checks (h : p.checks) :
    (start s p).2.watchdog.rollbackMarker = none ∧ (start s p).2.updateMarker = none := by
  rw [start, if_pos h, checkPostUpdateStatus]
  split_ifs with hrollback
  · exact ⟨rfl, rfl⟩
  · rw [Option.not_isSome_iff_eq_none] at hrollback
    rcases hupdate : s.updateMarker with _ | marker
    · exact ⟨hrollback, hupdate⟩
    · exact ⟨hrollback, rfl⟩

variable (c cfg os arch version) in
/-- What a process writes. -/
theorem work_cases (active : Option Bytes) :
    p.checks ∧ (work c cfg os arch version active s p).1 = true ∧
        (∃ a ∈ p.attempts, ∃ data, Staged (pullerFor cfg os arch version active) c a data ∧
          (work c cfg os arch version active s p).2.staging = some data ∧
          (p.Writable → (work c cfg os arch version active s p).2.updateMarker =
            some ⟨0, active.elim "" version, a.env.now⟩)) ∨
      (work c cfg os arch version active s p).1 = false ∧
        (p.Writable →
          (work c cfg os arch version active s p).2.updateMarker = s.updateMarker) := by
  rw [work]
  by_cases hchecks : p.checks
  · rw [if_pos hchecks]
    exact attempt_cases.imp_left fun h => ⟨hchecks, h⟩
  · rw [if_neg hchecks]
    exact .inr ⟨rfl, fun _ => rfl⟩

variable (c cfg os arch version) in
/-- **What a process does.** It swaps in a verified binary and leaves the update marker, or it
leaves the markers that it has not removed and the watchdog may roll back. -/
theorem life_cases {b : Bytes} (hb : s.watchdog.files .agent = some b) :
    let r := life c cfg os arch version s p
    p.checks ∧ r.1.did = .swapped ∧ r.2.watchdog.rollbackMarker = none ∧
        (∃ a ∈ p.attempts, ∃ data, Staged (pullerFor cfg os arch version (some b)) c a data ∧
          r.2.watchdog.files .agent = some data ∧ r.2.watchdog.files .bak = some b ∧
          (p.Writable → r.2.updateMarker = some ⟨0, version b, a.env.now⟩)) ∨
      r.1.did ≠ .swapped ∧ (p.Writable → r.2.updateMarker = (start s p).2.updateMarker) ∧
        (r.1.did = .rolledBack ∧ r.2.watchdog.rollbackMarker.isSome ∧
            (∃ old, s.watchdog.files .bak = some old ∧ r.2.watchdog.files .agent = some old ∧
              r.2.watchdog.files .bak = none) ∨
          r.1.did ≠ .rolledBack ∧
            r.2.watchdog.rollbackMarker = (start s p).2.watchdog.rollbackMarker ∧
            r.2.watchdog.files .agent = some b ∧
            r.2.watchdog.files .bak = s.watchdog.files .bak) := by
  have hagent : (start s p).2.watchdog.files .agent = some b := by rw [files_start, hb]
  intro r
  simp only [r]
  rcases work_cases c cfg os arch version (s := (start s p).2) (some b) with
    ⟨hchecks, hexit, a, ha, data, hstaged, hstaging, hmarker⟩ | ⟨hexit, hmarker⟩
  · obtain ⟨hdid, hnew, hbak⟩ :=
      turn_of_staged (x := ⟨otaExitCode, some data, p.now⟩) hagent rfl rfl
    have hrollback : (turn (start s p).2.watchdog
        ⟨otaExitCode, some data, p.now⟩).2.rollbackMarker = none := by
      rw [rollbackMarker_turn, hdid]
      exact (start_of_checks hchecks).1
    refine .inl ?_
    simp only [life, hb, hexit, hstaging, if_true]
    exact ⟨hchecks, hdid, hrollback, a, ha, data, hstaged, hnew, hbak, hmarker⟩
  · refine .inr ?_
    simp only [life, hb, hexit, Bool.false_eq_true, if_false]
    refine ⟨turn_ne_swapped p.code_ne, hmarker, ?_⟩
    rw [rollbackMarker_turn]
    rcases Watchdog.turn_cases hagent ⟨p.code,
        (work c cfg os arch version (some b) (start s p).2 p).2.staging, p.now⟩ with
      ⟨_, hdid, -⟩ | ⟨old, hbak, hdid, hnew, hnone, -⟩ | ⟨-, hroll, hsame, hbak, -⟩
    · exact absurd hdid (turn_ne_swapped p.code_ne)
    · rw [files_start] at hbak
      exact .inl ⟨hdid, by rw [if_pos hdid]; rfl, old, hbak, hnew, hnone⟩
    · rw [files_start] at hbak
      exact .inr ⟨hroll, if_neg hroll, hsame, hbak⟩

/-- What the markers say about the processes since the last check. -/
structure MarkersFor (version : Bytes → String) (since : List Lived) (s : Installation) : Prop where
  active : ∃ b, s.watchdog.files .agent = some b
  rollback : s.watchdog.rollbackMarker.isSome ↔ RolledBackIn since
  update : s.updateMarker.map UpdateMarker.previousVersion =
    (swapIn since).map (Lived.version version)
  installed : ¬ RolledBackIn since → ∀ l ∈ swapIn since, s.watchdog.files .agent = l.next

/-- The check begins anew. -/
theorem MarkersFor.start {since : List Lived} (h : MarkersFor version since s) :
    MarkersFor version (if p.checks then [] else since) (Ota.start s p).2 := by
  by_cases hchecks : p.checks
  · obtain ⟨hrollback, hupdate⟩ := start_of_checks (s := s) hchecks
    rw [if_pos hchecks]
    refine ⟨by rw [files_start]; exact h.active, ?_, ?_, nofun⟩
    · simp [hrollback, RolledBackIn]
    · rw [hupdate]
      rfl
  · rw [if_neg hchecks, Ota.start, if_neg hchecks]
    exact h

variable (c cfg os arch) in
theorem MarkersFor.life {since : List Lived} (h : MarkersFor version since s) (hp : p.Writable) :
    MarkersFor version
      ((Ota.life c cfg os arch version s p).1 :: if p.checks then [] else since)
      (Ota.life c cfg os arch version s p).2 := by
  obtain ⟨b, hb⟩ := h.active
  have hstart : MarkersFor version (if p.checks then [] else since) (Ota.start s p).2 := h.start
  have hactive : (Ota.life c cfg os arch version s p).1.active = some b := hb
  have hnext : (Ota.life c cfg os arch version s p).1.next =
      (Ota.life c cfg os arch version s p).2.watchdog.files .agent := rfl
  have hcases := life_cases c cfg os arch version hb (p := p)
  generalize Ota.life c cfg os arch version s p = r at *
  obtain ⟨l, s'⟩ := r
  dsimp only at *
  rcases hcases with ⟨hchecks, hdid, hrollback, a, -, data, -, hnew, -, hmarker⟩ |
    ⟨hswap, hmarker, ⟨hdid, hsome, old, -, hnew, -⟩ | ⟨hdid, hrollback, hsame, -⟩⟩
  all_goals have hmarker := hmarker hp
  · rw [if_pos hchecks]
    refine ⟨⟨data, hnew⟩, ?_, ?_, ?_⟩
    · simp [RolledBackIn, hrollback, hdid]
    · simp [swapIn, hdid, hmarker, Lived.version, hactive]
    · intro _ l' hl'
      obtain rfl : l = l' := by simpa [swapIn, hdid] using hl'
      exact hnext.symm
  all_goals
    generalize (if p.checks then [] else since) = since' at *
    have hskip : swapIn (l :: since') = swapIn since' := by simp [swapIn, hswap]
  · have hrolled : RolledBackIn (l :: since') := ⟨l, List.mem_cons_self, hdid⟩
    refine ⟨⟨old, hnew⟩, iff_of_true hsome hrolled, ?_, fun hnot => absurd hrolled hnot⟩
    rw [hmarker, hskip, hstart.update]
  · have hrolled : RolledBackIn (l :: since') ↔ RolledBackIn since' := by
      simp [RolledBackIn, hdid]
    refine ⟨⟨b, hsame⟩, ?_, ?_, ?_⟩
    · rw [hrolled, hrollback, hstart.rollback]
    · rw [hmarker, hskip, hstart.update]
    · rw [hrolled, hskip, hsame, ← hb, ← files_start (p := p)]
      exact hstart.installed

/-- No update has been made. -/
structure Installation.Fresh (s : Installation) : Prop where
  active : (s.watchdog.files .agent).isSome
  rollbackMarker : s.watchdog.rollbackMarker = none
  updateMarker : s.updateMarker = none

/-- The binary was there at first, or it has the hash and the signature of a manifest that one of
the processes was given. -/
def Trusted (c : Crypto) (cfg : Config) (s₀ : Installation) (ps : List Process) (b : Bytes) :
    Prop :=
  s₀.watchdog.files .agent = some b ∨ s₀.watchdog.files .bak = some b ∨
    ∃ p ∈ ps, ∃ a ∈ p.attempts, ∃ rel, latestRelease a.latest = some rel ∧
      HashPasses c a.env rel b ∧ SignedBy c cfg.ota.signKey rel.ed25519Sig b

theorem Trusted.append {b : Bytes} {ps : List Process} (h : Trusted c cfg s₀ ps b) :
    Trusted c cfg s₀ (ps ++ [p]) b :=
  h.imp_right (.imp_right fun ⟨q, hq, hb⟩ => ⟨q, List.mem_append_left _ hq, hb⟩)

/-- The manifests that a process is given have signatures, and there is a usable key. -/
def Process.Enforced (cfg : Config) (p : Process) : Prop :=
  ∀ a ∈ p.attempts, ∀ rel ∈ latestRelease a.latest, Ota.Enforced cfg rel

end Runs

/-! ### An update -/

/-- The first binary has version 1.0.0, all others have version 1.0.1. -/
def versionOf (binary : Bytes) : String := if binary = [1] then "1.0.0" else "1.0.1"

/-- A process that is stopped. -/
def stopped (checks : Bool) (code : ℤ) (code_ne : code ≠ otaExitCode) : Process :=
  ⟨checks, [], code, code_ne, 20⟩

end EdgeGuardian.Agent.Ota
