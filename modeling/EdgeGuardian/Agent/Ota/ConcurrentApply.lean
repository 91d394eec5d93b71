import EdgeGuardian.Agent.Ota.SelfUpdate
import EdgeGuardian.Lib.SharedFile
import EdgeGuardian.Lib.Transition
import Mathlib.Data.Fintype.Basic

/-!
# Several updates at once, in one staging file

The loop for automatic updates and every `POST /update` request run `Puller.Apply` on a goroutine of
their own, and nothing keeps them apart. All of them use one staging file: a run creates it anew,
writes the download into it, opens it again for each verification, removes it when one fails, and
sets its mode before the process exits with code 42. A run that creates the file while another one
has verified it and not yet exited leaves the watchdog a file that nobody has verified.

Source: `agent/internal/ota/selfupdate.go`, `agent/internal/ota/updater.go`,
`agent/cmd/agent/main.go`, lines 475–539.

## Main definitions

* `Concurrent.Run`, `Concurrent.advance`: one run of `Apply`, and its next operation.
* `Concurrent.State`, `Concurrent.step`: the runs of one process.
* `Concurrent.Undisturbed`: no run changes the file that another one relies on.
* `Concurrent.VerifiedExit`: the process exits with a file that was verified.

## Main results

* `Concurrent.exec_alone`: a run alone exits as the sequential model says.
* `Concurrent.verified_exit`: when the process exits with a verified file, in every interleaving.
-/

namespace EdgeGuardian.Agent.Ota.Concurrent

open SharedFile Transition

/-! ### One run -/

/-- One run of `Puller.Apply`: the release, and the outcomes that the run meets outside the staging
file. -/
structure Run where
  rel : ReleaseInfo
  env : Environment
deriving DecidableEq, Repr

/-- Where a run is. A run that has read the staging file for a verification keeps what it has
read. -/
inductive Pc
  /-- Before `httpClient.Get`. -/
  | ready
  /-- Before `os.Create`. -/
  | creating (body : DownloadBody)
  /-- In `io.Copy`, with the open file, the offset and what is still to be written. -/
  | writing (file offset : ℕ) (rest : Bytes) (complete : Bool)
  /-- Before `VerifySHA256`. -/
  | hashing
  /-- Before `VerifyEd25519`. -/
  | checking (reads : List Bytes)
  /-- Before `os.Chmod`. -/
  | staged (reads : List Bytes)
  /-- Before `os.Exit(42)`. -/
  | exiting (reads : List Bytes)
  /-- Before `os.Remove`, and the return of the error. -/
  | removing (e : UpdateError)
  | returned (e : UpdateError)
deriving DecidableEq, Repr

/-- The next operation of a run; `n` is the size of the next piece that `io.Copy` writes. A
verification opens the path again, and fails where it names no file. -/
def advance (p : Puller) (c : Crypto) (run : Run) (disk : Disk UInt8) (n : ℕ) :
    Pc → Option (Disk UInt8 × Pc)
  | .ready =>
    match run.env.binary with
    | .failed => some (disk, .returned .get)
    | .response status body =>
      if status ≠ 200 then some (disk, .returned (.status status)) else some (disk, .creating body)
  | .creating body =>
    if run.env.create then
      some (disk.create.1, .writing disk.create.2 0 body.bytes body.complete)
    else some (disk, .returned .create)
  | .writing file offset rest complete =>
    if rest = [] then some (disk, if complete then .hashing else .removing .copy)
    else
      some (disk.write file offset (rest.take n),
        .writing file (offset + (rest.take n).length) (rest.drop n) complete)
  | .hashing =>
    if run.rel.sha256 = "" then some (disk, .checking [])
    else
      match verifySHA256 c { run.env with hash := run.env.hash && disk.read.isSome }
          (disk.read.getD []) run.rel.sha256 with
      | .ok () => some (disk, .checking [disk.read.getD []])
      | .error e => some (disk, .removing e)
  | .checking reads =>
    match p.updater.ed25519PubKey with
    | none => some (disk, .staged reads)
    | some pubKey =>
      match verifyEd25519 c { run.env with read := run.env.read && disk.read.isSome }
          (disk.read.getD []) run.rel.ed25519Sig pubKey with
      | .ok () =>
        -- An empty signature is not verified, and the file is not read.
        if run.rel.ed25519Sig = "" then some (disk, .staged reads)
        else some (disk, .staged (reads ++ [disk.read.getD []]))
      | .error e => some (disk, .removing e)
  | .staged reads =>
    if run.env.chmod && disk.read.isSome then some (disk, .exiting reads)
    else some (disk, .returned .chmod)
  | .removing e => some (disk.remove, .returned e)
  | .exiting _ | .returned _ => none

/-! ### The process -/

/-- The staging file, the runs, and the run that has ended the process. -/
structure State (ι : Type*) where
  disk : Disk UInt8
  pc : ι → Pc
  exited : Option ι

/-- The next operation of the run `a.1`; `os.Exit` ends all runs. -/
def step {ι : Type*} [DecidableEq ι] (p : Puller) (c : Crypto) (runs : ι → Run) (s : State ι)
    (a : ι × ℕ) : Option (State ι) :=
  if s.exited.isSome then none
  else
    match s.pc a.1 with
    | .exiting _ => some { s with exited := some a.1 }
    | pc =>
      (advance p c (runs a.1) s.disk a.2 pc).map fun r =>
        { s with disk := r.1, pc := Function.update s.pc a.1 r.2 }

/-- Data that pass all the verification steps of `Apply`. -/
def Passes (p : Puller) (c : Crypto) (rel : ReleaseInfo) (data : Bytes) : Prop :=
  (rel.sha256 ≠ "" → encodeToString (c.sha256 data) = rel.sha256) ∧
    ∀ pubKey ∈ p.updater.ed25519PubKey, rel.ed25519Sig ≠ "" →
      ∃ sig ∈ decodeString rel.ed25519Sig, c.verify pubKey data sig

/-- When the process has exited, the staging file holds what every verification of the run that has
exited has read, and this passes all of them. -/
def VerifiedExit {ι : Type*} (p : Puller) (c : Crypto) (runs : ι → Run) (s : State ι) : Prop :=
  ∀ i, s.exited = some i → ∃ data reads, s.disk.read = some data ∧ s.pc i = .exiting reads ∧
    (∀ b ∈ reads, b = data) ∧ Passes p c (runs i).rel data

/-- The run relies on the staging file: it has read it for a verification, or is about to exit. -/
def Pc.relies : Pc → Bool
  | .checking reads | .staged reads => reads ≠ []
  | .exiting _ => true
  | .ready | .creating _ | .writing _ _ _ _ | .hashing | .removing _ | .returned _ => false

/-- The next operation of the run changes the file that the path names: the run creates it, writes
into it, or removes it. -/
def Pc.touches (disk : Disk UInt8) : Pc → Bool
  | .creating _ | .removing _ => true
  | .writing file _ rest _ => rest ≠ [] ∧ disk.path = some file
  | .ready | .hashing | .checking _ | .staged _ | .exiting _ | .returned _ => false

/-- No run changes the staging file while another one relies on it. -/
def Undisturbed {ι : Type*} (s : State ι) (a : ι × ℕ) : Prop :=
  (s.pc a.1).touches s.disk → ∀ j, j ≠ a.1 → (s.pc j).relies = false

instance {ι : Type*} [DecidableEq ι] [Fintype ι] (s : State ι) (a : ι × ℕ) :
    Decidable (Undisturbed s a) :=
  inferInstanceAs (Decidable (_ → _))

/-! ### What a run knows -/

section Knows

variable {p : Puller} {c : Crypto} {run : Run} {disk disk' : Disk UInt8} {pc pc' : Pc} {n : ℕ}

/-- The SHA-256 check has passed on something that was read. -/
def Hashed (c : Crypto) (rel : ReleaseInfo) (reads : List Bytes) : Prop :=
  rel.sha256 ≠ "" → ∃ data ∈ reads, encodeToString (c.sha256 data) = rel.sha256

/-- The signature check has passed on something that was read. -/
def Checked (p : Puller) (c : Crypto) (rel : ReleaseInfo) (reads : List Bytes) : Prop :=
  ∀ pubKey ∈ p.updater.ed25519PubKey, rel.ed25519Sig ≠ "" →
    ∃ data ∈ reads, ∃ sig ∈ decodeString rel.ed25519Sig, c.verify pubKey data sig

/-- What a run knows of the staging file: it still holds what the run has read, and the checks that
are behind it have passed on this. -/
def Knows (p : Puller) (c : Crypto) (run : Run) (staging : Option Bytes) : Pc → Prop
  | .checking reads => (∀ b ∈ reads, staging = some b) ∧ Hashed c run.rel reads
  | .staged reads =>
    (∀ b ∈ reads, staging = some b) ∧ Hashed c run.rel reads ∧ Checked p c run.rel reads
  | .exiting reads =>
    (∀ b ∈ reads, staging = some b) ∧ Hashed c run.rel reads ∧ Checked p c run.rel reads ∧
      staging.isSome
  | .ready | .creating _ | .writing _ _ _ _ | .hashing | .removing _ | .returned _ => True

/-- A run that does not rely on the file knows nothing of it. -/
theorem Knows.of_not_relies {staging staging' : Option Bytes} (h : Knows p c run staging pc)
    (hpc : pc.relies = false) : Knows p c run staging' pc := by
  cases pc with
  | checking reads =>
    have hreads : reads = [] := by simpa [Pc.relies] using hpc
    subst hreads
    exact ⟨fun b hb => absurd hb List.not_mem_nil, h.2⟩
  | staged reads =>
    have hreads : reads = [] := by simpa [Pc.relies] using hpc
    subst hreads
    exact ⟨fun b hb => absurd hb List.not_mem_nil, h.2⟩
  | exiting reads => exact absurd hpc (by simp [Pc.relies])
  | ready | creating | writing | hashing | removing | returned => trivial

/-- The verifications, the mode and the exit leave the disk as it is. -/
theorem disk_of_advance (hcreating : ∀ body, pc ≠ .creating body)
    (hwriting : ∀ file offset rest complete, pc ≠ .writing file offset rest complete)
    (hremoving : ∀ e, pc ≠ .removing e)
    (h : advance p c run disk n pc = some (disk', pc')) : disk' = disk := by
  cases pc with
  | creating body => exact absurd rfl (hcreating body)
  | writing file offset rest complete => exact absurd rfl (hwriting file offset rest complete)
  | removing e => exact absurd rfl (hremoving e)
  | exiting | returned => exact absurd h.symm (Option.some_ne_none _)
  | ready | hashing | checking | staged =>
    simp only [advance] at h
    repeat' split at h
    all_goals
      cases h
      rfl

/-- An operation that does not touch the file leaves it as it is. -/
theorem read_of_not_touches (htouches : pc.touches disk = false)
    (h : advance p c run disk n pc = some (disk', pc')) : disk'.read = disk.read := by
  cases pc with
  | creating | removing => exact absurd htouches (by simp [Pc.touches])
  | writing file offset rest complete =>
    rw [advance] at h
    by_cases hrest : rest = []
    · rw [if_pos hrest] at h
      cases h
      rfl
    · rw [if_neg hrest] at h
      cases h
      have hpath : disk.path ≠ some file := by
        intro hpath
        simp [Pc.touches, hrest, hpath] at htouches
      exact Disk.read_write_of_ne hpath
  | ready | hashing | checking | staged | exiting | returned =>
    rw [disk_of_advance (by simp) (by simp) (by simp) h]

/-- A SHA-256 check that passes has read the file. -/
theorem read_of_verifySHA256 {expected : String}
    (h : verifySHA256 c { run.env with hash := run.env.hash && disk.read.isSome }
      (disk.read.getD []) expected = .ok ()) :
    disk.read = some (disk.read.getD []) ∧
      encodeToString (c.sha256 (disk.read.getD [])) = expected := by
  obtain ⟨hread, hhash⟩ := verifySHA256_eq_ok_iff.mp h
  rw [Bool.and_eq_true] at hread
  obtain ⟨data, hdata⟩ := Option.isSome_iff_exists.mp hread.2
  refine ⟨?_, hhash⟩
  rw [hdata, Option.getD_some]

/-- A signature check that passes on a signature has read the file. -/
theorem read_of_verifyEd25519 {sigHex : String} {pubKey : Bytes} (hsig : sigHex ≠ "")
    (h : verifyEd25519 c { run.env with read := run.env.read && disk.read.isSome }
      (disk.read.getD []) sigHex pubKey = .ok ()) :
    disk.read = some (disk.read.getD []) ∧
      ∃ sig ∈ decodeString sigHex, c.verify pubKey (disk.read.getD []) sig := by
  obtain ⟨sig, hdecode, hread, hverify⟩ := verifyEd25519_eq_ok_iff.mp h hsig
  rw [Bool.and_eq_true] at hread
  obtain ⟨data, hdata⟩ := Option.isSome_iff_exists.mp hread.2
  refine ⟨?_, sig, hdecode, hverify⟩
  rw [hdata, Option.getD_some]

theorem Hashed.append {rel : ReleaseInfo} {reads : List Bytes} (h : Hashed c rel reads)
    (data : Bytes) : Hashed c rel (reads ++ [data]) := by
  intro hsha
  obtain ⟨b, hb, hhash⟩ := h hsha
  exact ⟨b, List.mem_append_left _ hb, hhash⟩

/-- A run that has compared the hash knows the bytes that it has read for it. -/
theorem knows_of_hashing (h : advance p c run disk n .hashing = some (disk', pc')) :
    Knows p c run disk'.read pc' := by
  simp only [advance] at h
  split_ifs at h with hsha
  · cases h
    exact ⟨fun b hb => absurd hb List.not_mem_nil, fun hne => absurd hsha hne⟩
  · split at h
    · rename_i hverify
      cases h
      obtain ⟨hread, hhash⟩ := read_of_verifySHA256 hverify
      refine ⟨fun b hb => ?_, fun _ => ⟨_, List.mem_singleton_self _, hhash⟩⟩
      rwa [List.mem_singleton.mp hb]
    · cases h
      trivial

/-- A run that has checked the signature also knows the bytes that it has read for it. -/
theorem knows_of_checking {reads : List Bytes} (hknows : Knows p c run disk.read (.checking reads))
    (h : advance p c run disk n (.checking reads) = some (disk', pc')) :
    Knows p c run disk'.read pc' := by
  obtain ⟨hreads, hhashed⟩ := hknows
  simp only [advance] at h
  split at h
  · rename_i hkey
    cases h
    refine ⟨hreads, hhashed, fun pubKey hpubKey => ?_⟩
    rw [hkey] at hpubKey
    exact absurd hpubKey.symm (Option.some_ne_none _)
  · rename_i pubKey hkey
    split at h
    · rename_i hverify
      split_ifs at h with hsig
      · cases h
        exact ⟨hreads, hhashed, fun _ _ hne => absurd hsig hne⟩
      · cases h
        obtain ⟨hread, hsigned⟩ := read_of_verifyEd25519 hsig hverify
        refine ⟨fun b hb => ?_, hhashed.append _, fun pubKey' hpubKey' _ => ?_⟩
        · rcases List.mem_append.mp hb with hb | hb
          · exact hreads b hb
          · rwa [List.mem_singleton.mp hb]
        · have hsame : pubKey = pubKey' := Option.some.inj (hkey.symm.trans hpubKey')
          rw [← hsame]
          exact ⟨_, List.mem_append_right _ (List.mem_singleton_self _), hsigned⟩
    · cases h
      trivial

/-- **One operation of a run.** The run knows afterwards what it should. -/
theorem advance_knows (hknows : Knows p c run disk.read pc)
    (h : advance p c run disk n pc = some (disk', pc')) : Knows p c run disk'.read pc' := by
  cases pc with
  | exiting | returned => exact absurd h.symm (Option.some_ne_none _)
  | removing e =>
    cases h
    trivial
  | ready | creating | writing =>
    simp only [advance] at h
    repeat' split at h
    all_goals
      cases h
      trivial
  | hashing => exact knows_of_hashing h
  | checking reads => exact knows_of_checking hknows h
  | staged reads =>
    obtain ⟨hreads, hhashed, hchecked⟩ := hknows
    simp only [advance] at h
    split_ifs at h with hmode
    · cases h
      rw [Bool.and_eq_true] at hmode
      exact ⟨hreads, hhashed, hchecked, hmode.2⟩
    · cases h
      trivial

end Knows

/-! ### The runs of a process -/

section Process

variable {ι : Type*} {p : Puller} {c : Crypto} {runs : ι → Run} {s t : State ι} {a : ι × ℕ}

/-- The states from which runs start: no run has begun, whatever the staging file holds. -/
structure Starting (s : State ι) : Prop where
  pc : ∀ i, s.pc i = .ready
  exited : s.exited = none

/-- The invariant: every run knows what it should, and only a run that was about to exit has. -/
structure ApplyInv (p : Puller) (c : Crypto) (runs : ι → Run) (s : State ι) : Prop where
  knows : ∀ i, Knows p c (runs i) s.disk.read (s.pc i)
  exited : ∀ i, s.exited = some i → ∃ reads, s.pc i = .exiting reads

theorem Starting.applyInv (h : Starting s) : ApplyInv p c runs s := by
  refine ⟨fun i => ?_, fun i hi => ?_⟩
  · rw [h.pc i]
    trivial
  · rw [h.exited] at hi
    exact absurd hi.symm (Option.some_ne_none _)

/-- What a run knows that is about to exit. -/
theorem ApplyInv.verifiedExit (h : ApplyInv p c runs s) : VerifiedExit p c runs s := by
  intro i hi
  obtain ⟨reads, hpc⟩ := h.exited i hi
  have hknows := h.knows i
  rw [hpc] at hknows
  obtain ⟨hreads, hhashed, hchecked, hsome⟩ := hknows
  obtain ⟨data, hdata⟩ := Option.isSome_iff_exists.mp hsome
  have hsame : ∀ b ∈ reads, b = data := by
    intro b hb
    exact Option.some.inj ((hreads b hb).symm.trans hdata)
  refine ⟨data, reads, hdata, hpc, hsame, fun hsha => ?_, fun pubKey hpubKey hsig => ?_⟩
  · obtain ⟨b, hb, hhash⟩ := hhashed hsha
    rwa [hsame b hb] at hhash
  · obtain ⟨b, hb, hsigned⟩ := hchecked pubKey hpubKey hsig
    rwa [hsame b hb] at hsigned

variable [DecidableEq ι]

/-- **What a step of the process does.** A run exits, or takes its next operation. -/
theorem step_cases (h : step p c runs s a = some t) :
    (∃ reads, s.pc a.1 = .exiting reads ∧ t = { s with exited := some a.1 }) ∨
      s.exited = none ∧ ∃ disk' pc', advance p c (runs a.1) s.disk a.2 (s.pc a.1) =
        some (disk', pc') ∧ t = { s with disk := disk', pc := Function.update s.pc a.1 pc' } := by
  rw [step] at h
  split_ifs at h with hexited
  rw [Bool.not_eq_true, Option.isSome_eq_false_iff, Option.isNone_iff_eq_none] at hexited
  split at h
  · rename_i reads hpc
    exact .inl ⟨reads, hpc, (Option.some.inj h).symm⟩
  · obtain ⟨⟨disk', pc'⟩, hadvance, rfl⟩ := Option.map_eq_some_iff.mp h
    exact .inr ⟨hexited, disk', pc', hadvance, rfl⟩

/-- The invariant is kept by every step that does not disturb another run. -/
theorem ApplyInv.step (hs : ApplyInv p c runs s) (hok : Undisturbed s a)
    (h : Concurrent.step p c runs s a = some t) : ApplyInv p c runs t := by
  rcases step_cases h with ⟨reads, hpc, rfl⟩ | ⟨hexited, disk', pc', hadvance, rfl⟩
  · refine ⟨hs.knows, fun i hi => ⟨reads, ?_⟩⟩
    rw [← Option.some.inj hi]
    exact hpc
  · refine ⟨fun i => ?_, fun i hi => ?_⟩
    · show Knows p c (runs i) disk'.read (Function.update s.pc a.1 pc' i)
      by_cases hi : i = a.1
      · rw [hi, Function.update_self]
        exact advance_knows (hs.knows a.1) hadvance
      · rw [Function.update_of_ne hi]
        -- The step touches the file, and the run does not rely on it, or the file stays.
        by_cases htouches : (s.pc a.1).touches s.disk = true
        · exact (hs.knows i).of_not_relies (hok htouches i hi)
        · rw [read_of_not_touches (Bool.not_eq_true _ ▸ htouches) hadvance]
          exact hs.knows i
    · rw [hexited] at hi
      exact absurd hi.symm (Option.some_ne_none _)

end Process

/-! ### A run alone -/

section Alone

variable {ι : Type*} [DecidableEq ι] {p : Puller} {c : Crypto} {runs : ι → Run} {s : State ι}
  {i : ι}

/-- One operation of a run alone. -/
def Operation (p : Puller) (c : Crypto) (run : Run) (x y : Disk UInt8 × Pc) : Prop :=
  ∃ n, advance p c run x.1 n x.2 = some y

/-- The process with the staging file and one run as given. -/
def State.put (s : State ι) (i : ι) (x : Disk UInt8 × Pc) : State ι :=
  { s with disk := x.1, pc := Function.update s.pc i x.2 }

/-- Operations of one run are steps of the process. -/
theorem reachable_of_operations (hexited : s.exited = none) {x y : Disk UInt8 × Pc}
    (h : Relation.ReflTransGen (Operation p c (runs i)) x y) :
    Reachable (step p c runs) (s.put i x) (s.put i y) := by
  induction h with
  | refl => exact .refl
  | @tail y z _ hyz ih =>
    obtain ⟨n, hadvance⟩ := hyz
    refine ih.tail ⟨(i, n), trivial, ?_⟩
    have hpc : (s.put i y).pc i = y.2 := by
      simp only [State.put, Function.update_self]
    have hother : ∀ reads, y.2 ≠ .exiting reads := by
      intro reads hy
      rw [hy] at hadvance
      exact absurd hadvance.symm (Option.some_ne_none _)
    have hstep : step p c runs (s.put i y) (i, n) =
        (advance p c (runs i) y.1 n y.2).map fun r =>
          { s.put i y with disk := r.1, pc := Function.update (s.put i y).pc i r.2 } := by
      rw [step, if_neg (by simp [State.put, hexited])]
      split
      · rename_i reads hreads
        exact absurd (hpc.symm.trans hreads) (hother reads)
      · rw [hpc]
        rfl
    rw [hstep, hadvance, Option.map_some]
    simp only [State.put, Function.update_idem]

/-- A download alone leaves its bytes in the staging file. -/
theorem operations_of_downloaded {run : Run} {data : Bytes} (disk : Disk UInt8)
    (h : Downloaded run.env data) :
    ∃ disk', disk'.read = some data ∧
      Relation.ReflTransGen (Operation p c run) (disk, .ready) (disk', .hashing) := by
  obtain ⟨hbinary, hcreate⟩ := h
  obtain ⟨hpath, hempty⟩ := Disk.read_create (d := disk)
  have hget : Operation p c run (disk, .ready) (disk, .creating ⟨data, true⟩) :=
    ⟨0, by simp [advance, hbinary]⟩
  have hopen : Operation p c run (disk, .creating ⟨data, true⟩)
      (disk.create.1, .writing disk.create.2 0 data true) := ⟨0, by simp [advance, hcreate]⟩
  by_cases hdata : data = []
  · refine ⟨disk.create.1, ?_, .tail (.tail (.single hget) hopen) ⟨0, by simp [advance, hdata]⟩⟩
    rw [Disk.read, hpath, Option.map_some, hempty, hdata]
  · have hcopy : Operation p c run (disk.create.1, .writing disk.create.2 0 data true)
        (disk.create.1.write disk.create.2 0 data, .writing disk.create.2 data.length [] true) :=
      ⟨data.length, by simp [advance, hdata]⟩
    refine ⟨disk.create.1.write disk.create.2 0 data, ?_,
      .tail (.tail (.tail (.single hget) hopen) hcopy) ⟨0, by simp [advance]⟩⟩
    rw [Disk.read_write hpath, hempty, overwrite_nil]

/-- A run alone whose verifications pass goes on to its exit. -/
theorem operations_of_verified {run : Run} {data : Bytes} {disk : Disk UInt8}
    (hread : disk.read = some data) (hverify : p.verify c run.env run.rel data = .ok ())
    (hchmod : run.env.chmod) : ∃ reads,
      Relation.ReflTransGen (Operation p c run) (disk, .hashing) (disk, .exiting reads) := by
  obtain ⟨hhash, hsigned⟩ := Puller.verify_eq_ok_iff.mp hverify
  obtain ⟨reads, hhashing⟩ :
      ∃ reads, Operation p c run (disk, .hashing) (disk, .checking reads) := by
    by_cases hsha : run.rel.sha256 = ""
    · exact ⟨[], 0, by simp [advance, hsha]⟩
    · obtain ⟨hopen, hequal⟩ := hhash hsha
      have hok : verifySHA256 c { run.env with hash := run.env.hash && disk.read.isSome }
          (disk.read.getD []) run.rel.sha256 = .ok () := by
        refine verifySHA256_eq_ok_iff.mpr ⟨?_, ?_⟩
        · simp [hopen, hread]
        · rw [hread, Option.getD_some, hequal]
      exact ⟨[disk.read.getD []], 0, by simp [advance, hsha, hok]⟩
  obtain ⟨reads', hchecking⟩ :
      ∃ reads', Operation p c run (disk, .checking reads) (disk, .staged reads') := by
    rcases hkey : p.updater.ed25519PubKey with _ | pubKey
    · exact ⟨reads, 0, by simp [advance, hkey]⟩
    · have hok : verifyEd25519 c { run.env with read := run.env.read && disk.read.isSome }
          (disk.read.getD []) run.rel.ed25519Sig pubKey = .ok () := by
        refine verifyEd25519_eq_ok_iff.mpr fun hsig => ?_
        obtain ⟨sig, hdecode, hopen, hequation⟩ := hsigned pubKey hkey hsig
        refine ⟨sig, hdecode, ?_, ?_⟩
        · simp [hopen, hread]
        · rw [hread, Option.getD_some, hequation]
      by_cases hsig : run.rel.ed25519Sig = ""
      · exact ⟨reads, 0, by simp only [advance, hkey, hok, if_pos hsig]⟩
      · exact ⟨reads ++ [disk.read.getD []], 0, by simp [advance, hkey, hok, hsig]⟩
  have hstaged : Operation p c run (disk, .staged reads') (disk, .exiting reads') :=
    ⟨0, by simp [advance, hchmod, hread]⟩
  exact ⟨reads', .tail (.tail (.single hhashing) hchecking) hstaged⟩

/-- A run alone exits as the sequential model says, with the same staging file. -/
theorem exec_alone (hpc : s.pc i = .ready) (hexited : s.exited = none) {files : Files}
    (h : (p.apply c (runs i).env (runs i).rel files).1 = .exit42) :
    ∃ t, Reachable (step p c runs) s t ∧ t.exited = some i ∧
      t.disk.read = (p.apply c (runs i).env (runs i).rel files).2.staging := by
  obtain ⟨data, hdownloaded, hverify⟩ := exists_downloaded_of_exit h
  rw [apply_of_verified hdownloaded hverify] at h ⊢
  obtain ⟨disk', hread, hops⟩ := operations_of_downloaded (p := p) (c := c) s.disk hdownloaded
  obtain ⟨reads, hops'⟩ := operations_of_verified hread hverify (updater_apply_eq_exit_iff.mp h)
  have hreach := reachable_of_operations (s := s) hexited (hops.trans hops')
  have hstart : s.put i (s.disk, .ready) = s := by
    rw [State.put, ← hpc, Function.update_eq_self]
  rw [hstart] at hreach
  refine ⟨{ s.put i (disk', .exiting reads) with exited := some i }, ?_, rfl, ?_⟩
  · refine hreach.tail ⟨(i, 0), trivial, ?_⟩
    simp [step, State.put, hexited]
  · rw [staging_writeUpdateMarker]
    exact hread

end Alone

/-- **The binary that is swapped in is the binary that was verified.** In every interleaving of any
number of runs of `Apply` in which no run creates, writes or removes the staging file while another
one has read it for a verification and not yet exited or returned, the staging file at the exit with
code 42 holds what the verifications of the run that exits have read, and it passes all of them. -/
theorem verified_exit {ι : Type*} [DecidableEq ι] {p : Puller} {c : Crypto} {runs : ι → Run}
    {s₀ s : State ι} (h₀ : Starting s₀)
    (h : Reaches (Concurrent.step p c runs) Undisturbed s₀ s) : VerifiedExit p c runs s := by
  have hs : ApplyInv p c runs s :=
    h.invariant (ApplyInv p c runs) (fun hu hok hstep => hu.step hok hstep) h₀.applyInv
  exact hs.verifiedExit

/-! ### Two requests for one update -/

namespace TwoRequests

/-- The agent of a configuration without a signing key. -/
def puller : Puller :=
  newPuller (newUpdater "/var/lib/edgeguardian" "" false) "https://controller:8443" "linux" "amd64"
    "1.0.0"

/-- The SHA-256 of the binary, in hexadecimal. -/
def elfHash : String := "3bdbb4fe8397cd2b842430b39ccff01a8663c751945ef5e9a09e267fb8b1d359"

/-- SHA-256 on the binary and on the empty file. No signature is verified. -/
def crypto : Crypto where
  sha256 data :=
    if data = [0x7f, 0x45, 0x4c, 0x46] then (decodeString elfHash).getD []
    else if data = [] then
      (decodeString "e3b0c44298fc1c149afbf4c8996fb92427ae41e4649b934ca495991b7852b855").getD []
    else data
  ed25519 _ _ _ := false

/-- Both requests find the same release, and both downloads arrive. -/
def requests : Bool → Run := fun _ =>
  { rel := { version := "1.0.1", sha256 := elfHash, ed25519Sig := "" }
    env :=
      { binary := .response 200 ⟨[0x7f, 0x45, 0x4c, 0x46], true⟩
        create := true
        hash := true
        read := true
        marker := true
        chmod := true
        now := 0 } }

/-- There is no staging file, and no run has begun. -/
def idle : State Bool where
  disk := ⟨none, fun _ => [], 0⟩
  pc := fun _ => .ready
  exited := none

theorem starting_idle : Starting idle := ⟨fun _ => rfl, rfl⟩

/-- One run from its request to its verification. -/
def verifies (i : Bool) : List (Bool × ℕ) := [(i, 0), (i, 0), (i, 4), (i, 0), (i, 0), (i, 0)]

end TwoRequests

open TwoRequests in
/-- The second request waits for its download while the first one verifies its binary and exits. -/
theorem verified_exit_of_two_requests :
    ∃ s, (Reaches (Concurrent.step puller crypto requests) Undisturbed idle s ∧
        s.exited = some false ∧ s.pc true = .creating ⟨[0x7f, 0x45, 0x4c, 0x46], true⟩) ∧
      VerifiedExit puller crypto requests s := by
  obtain ⟨s, hs⟩ : ∃ s, Reaches (Concurrent.step puller crypto requests) Undisturbed idle s ∧
      s.exited = some false ∧ s.pc true = .creating ⟨[0x7f, 0x45, 0x4c, 0x46], true⟩ :=
    exists_reaches_of_execBy ((true, 0) :: verifies false ++ [(false, 0), (false, 0)])
      (by decide +kernel)
  exact ⟨s, hs, verified_exit starting_idle hs.1⟩

open TwoRequests in
/-- The second request creates the staging file anew after the first one has verified it: the
process exits with an empty file, which has not the hash of the release. -/
theorem exit_with_truncated_binary :
    ¬ ∀ s, Reachable (Concurrent.step puller crypto requests) idle s →
      VerifiedExit puller crypto requests s := by
  intro hall
  obtain ⟨s, hreach, hexited, hread⟩ :
      ∃ s, Reachable (Concurrent.step puller crypto requests) idle s ∧
        s.exited = some false ∧ s.disk.read = some [] :=
    exists_reaches_of_execBy
      (verifies false ++ [(true, 0), (true, 0)] ++ [(false, 0), (false, 0)]) (by decide +kernel)
  obtain ⟨data, reads, hdata, -, -, hpasses⟩ := hall s hreach false hexited
  have hempty : [] = data := Option.some.inj (hread.symm.trans hdata)
  rw [← hempty] at hpasses
  exact absurd (hpasses.1 (by decide)) (by decide)

end EdgeGuardian.Agent.Ota.Concurrent
