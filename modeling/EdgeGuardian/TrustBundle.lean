import EdgeGuardian.Controller.OrganizationCaStore
import EdgeGuardian.Lib.Transition
import Mathlib.Data.Set.Function

/-!
# The certificate authorities that the broker trusts

The controller serves the certificates of all organizations as one bundle. A container of the
broker fetches it before the broker starts, and a sidecar polls it: a bundle with another hash than
the last one replaces the file, and the listener is restarted, upon which it reads the file again.
The hash is remembered once the restart is reported as done, so that a restart that fails is tried
again.

The hash is not kept when the sidecar starts again: it is then that of the file, whether or not the
broker has read it.

A step of the sidecar is one command of the script that another process could see: the answer of
`curl`, the `mv`, the restart. A poll that gets no bundle changes nothing.

Source: `controller/src/main/java/com/edgeguardian/controller/api/PkiController.java`
(`getCaBundle`), `deployments/helm/edgeguardian/templates/emqx.yaml` (`ca-reloader.sh`,
`fetch-ca-bundle`).

## Main definitions

* `caBundle`: the bundle.
* `State`, `Action`, `step`: the table, the file, the broker and the sidecar.
* `Calm`: a process starts, or is answered, with the file and the broker in agreement.

## Main results

* `trusted_of_reaches`: what the broker trusts has been served.
* `adopted_of_reaches`: in a calm run, the broker trusts what the sidecar has fetched last.
* `stale_of_reaches`: a sidecar that has started too late leaves the broker as it is.
-/

namespace EdgeGuardian.TrustBundle

open Controller Transition

/-! ### The bundle -/

/-- A certificate with a newline at its end. -/
def terminated (pem : String) : String :=
  if pem.toList.getLast? = some '\n' then pem else pem ++ "\n"

/-- `PkiController.getCaBundle`, with the rows as the database returns them. -/
def caBundle (all : List OrganizationCa) : String :=
  String.join (all.map fun ca => terminated ca.caCertPem)

/-! ### The sidecar -/

/-- Where the loop of the sidecar is. -/
inductive Pc
  /-- Before the next `curl`. -/
  | polling
  /-- `$tmp` holds a bundle. -/
  | fetched (bundle : String)
  /-- The bundle is in place, and the listener is to be restarted. -/
  | moved (bundle : String)
deriving DecidableEq, Repr

/-- `prev_hash`, and the place in the loop. -/
structure Sidecar where
  prevHash : String
  pc : Pc
deriving DecidableEq, Repr

/-- The table of the controller, the volume of the pod, what the listener has read, and the
sidecar. -/
structure State where
  rows : List OrganizationCa
  /-- `client-ca-bundle.pem`. -/
  file : Option String
  trusted : Option String
  sidecar : Option Sidecar
deriving DecidableEq, Repr

inductive Action
  /-- The table changes, or the database returns it in another order. -/
  | write (rows : List OrganizationCa)
  /-- The pod starts on an empty volume. -/
  | startPod
  /-- `fetch-ca-bundle` gets a bundle. -/
  | fetchFirst
  /-- The container of the broker starts. -/
  | startBroker
  /-- The container of the sidecar starts, and the broker answers. -/
  | startSidecar
  /-- `curl` gets a bundle. -/
  | fetch
  /-- The hashes are compared. -/
  | compare
  /-- `restart_listener`: whether the listener is restarted, and what the script is told. -/
  | restart (done reported : Bool)
deriving DecidableEq, Repr

section Step

variable (sha256 : String → String)

/-- `hash_of`. -/
def hashOf (file : Option String) : String := file.elim "" sha256

def step (s : State) : Action → Option State
  | .write rows => some { s with rows }
  | .startPod => some { s with file := none, trusted := none, sidecar := none }
  | .fetchFirst =>
    if s.file = none ∧ caBundle s.rows ≠ "" then some { s with file := some (caBundle s.rows) }
    else none
  | .startBroker => if s.file.isSome then some { s with trusted := s.file } else none
  | .startSidecar =>
    if s.trusted.isSome then some { s with sidecar := some ⟨hashOf sha256 s.file, .polling⟩ }
    else none
  | .fetch =>
    match s.sidecar with
    | some ⟨prevHash, .polling⟩ =>
      if caBundle s.rows = "" then none
      else some { s with sidecar := some ⟨prevHash, .fetched (caBundle s.rows)⟩ }
    | _ => none
  | .compare =>
    match s.sidecar with
    | some ⟨prevHash, .fetched bundle⟩ =>
      if sha256 bundle = prevHash then some { s with sidecar := some ⟨prevHash, .polling⟩ }
      else some { s with file := some bundle, sidecar := some ⟨prevHash, .moved bundle⟩ }
    | _ => none
  | .restart done reported =>
    match s.sidecar with
    | some ⟨prevHash, .moved bundle⟩ =>
      if reported ∧ ¬ done then none
      else some
        { s with
          trusted := if done then s.file else s.trusted
          sidecar := some ⟨if reported then sha256 bundle else prevHash, .polling⟩ }
    | _ => none

end Step

/-- The steps, one constructor for each way of a step. -/
inductive Stepped (sha256 : String → String) (s : State) : Action → State → Prop
  | write (rows : List OrganizationCa) : Stepped sha256 s (.write rows) { s with rows }
  | startPod : Stepped sha256 s .startPod { s with file := none, trusted := none, sidecar := none }
  | fetchFirst (hfile : s.file = none) (hne : caBundle s.rows ≠ "") :
      Stepped sha256 s .fetchFirst { s with file := some (caBundle s.rows) }
  | startBroker (hfile : s.file.isSome) : Stepped sha256 s .startBroker { s with trusted := s.file }
  | startSidecar (htrusted : s.trusted.isSome) : Stepped sha256 s .startSidecar
      { s with sidecar := some ⟨hashOf sha256 s.file, .polling⟩ }
  | fetch {prevHash : String} (hsidecar : s.sidecar = some ⟨prevHash, .polling⟩)
      (hne : caBundle s.rows ≠ "") :
      Stepped sha256 s .fetch { s with sidecar := some ⟨prevHash, .fetched (caBundle s.rows)⟩ }
  | unchanged {bundle : String} (hsidecar : s.sidecar = some ⟨sha256 bundle, .fetched bundle⟩) :
      Stepped sha256 s .compare { s with sidecar := some ⟨sha256 bundle, .polling⟩ }
  | changed {prevHash bundle : String} (hsidecar : s.sidecar = some ⟨prevHash, .fetched bundle⟩)
      (hhash : sha256 bundle ≠ prevHash) :
      Stepped sha256 s .compare
        { s with file := some bundle, sidecar := some ⟨prevHash, .moved bundle⟩ }
  | reported {prevHash bundle : String} (hsidecar : s.sidecar = some ⟨prevHash, .moved bundle⟩) :
      Stepped sha256 s (.restart true true)
        { s with trusted := s.file, sidecar := some ⟨sha256 bundle, .polling⟩ }
  | lost {prevHash bundle : String} (hsidecar : s.sidecar = some ⟨prevHash, .moved bundle⟩) :
      Stepped sha256 s (.restart true false)
        { s with trusted := s.file, sidecar := some ⟨prevHash, .polling⟩ }
  | failed {prevHash bundle : String} (hsidecar : s.sidecar = some ⟨prevHash, .moved bundle⟩) :
      Stepped sha256 s (.restart false false) { s with sidecar := some ⟨prevHash, .polling⟩ }

/-- **What a step does.** -/
theorem stepped_of_step {sha256 : String → String} {s t : State} {a : Action}
    (h : step sha256 s a = some t) : Stepped sha256 s a t := by
  cases a with
  | write rows =>
    cases h
    exact .write rows
  | startPod =>
    cases h
    exact .startPod
  | fetchFirst =>
    rw [step] at h
    split_ifs at h with hfirst
    cases h
    exact .fetchFirst hfirst.1 hfirst.2
  | startBroker =>
    rw [step] at h
    split_ifs at h with hfile
    cases h
    exact .startBroker hfile
  | startSidecar =>
    rw [step] at h
    split_ifs at h with htrusted
    cases h
    exact .startSidecar htrusted
  | fetch =>
    rw [step] at h
    split at h
    · next prevHash hsidecar =>
      split_ifs at h with hempty
      cases h
      exact .fetch hsidecar hempty
    · cases h
  | compare =>
    rw [step] at h
    split at h
    · next prevHash bundle hsidecar =>
      split_ifs at h with hhash
      · subst hhash
        cases h
        exact .unchanged hsidecar
      · cases h
        exact .changed hsidecar hhash
    · cases h
  | restart done reported =>
    rw [step] at h
    split at h
    · next prevHash bundle hsidecar =>
      cases done <;> cases reported <;> cases h
      · exact .failed hsidecar
      · exact .lost hsidecar
      · exact .reported hsidecar
    · cases h

/-! ### What the broker trusts has been served -/

section Served

variable {sha256 : String → String} {S : Set String} {s t s₀ : State} {a : Action}

/-- The bundle of the table is among these. -/
def Serves (S : Set String) (s : State) : Prop := caBundle s.rows ≠ "" → caBundle s.rows ∈ S

/-- A bundle that the pod holds somewhere. -/
def State.Holds (s : State) (bundle : String) : Prop :=
  s.file = some bundle ∨ s.trusted = some bundle ∨
    ∃ prevHash, s.sidecar = some ⟨prevHash, .fetched bundle⟩

/-- A bundle is there before the step, or is the one that is served. -/
theorem holds_step {bundle : String} (h : Stepped sha256 s a t) (ht : t.Holds bundle) :
    s.Holds bundle ∨ bundle = caBundle s.rows ∧ bundle ≠ "" := by
  cases h with
  | write rows => exact .inl ht
  | startPod => simp [State.Holds] at ht
  | fetchFirst hfile hne =>
    rcases ht with hsame | ht
    · obtain rfl : caBundle s.rows = bundle := Option.some.inj hsame
      exact .inr ⟨rfl, hne⟩
    · exact .inl (.inr ht)
  | fetch hsidecar hne =>
    rcases ht with hfile | htrusted | hsame
    · exact .inl (.inl hfile)
    · exact .inl (.inr (.inl htrusted))
    · obtain rfl : caBundle s.rows = bundle := by simpa using hsame
      exact .inr ⟨rfl, hne⟩
  | changed hsidecar hhash =>
    left
    rcases ht with hfile | htrusted | hnone
    · obtain rfl := Option.some.inj hfile
      exact .inr (.inr ⟨_, hsidecar⟩)
    · exact .inr (.inl htrusted)
    · simp at hnone
  | startBroker hfile =>
    left
    rcases ht with hsame | hsame | ht
    · exact .inl hsame
    · exact .inl hsame
    · exact .inr (.inr ht)
  | reported hsidecar | lost hsidecar =>
    left
    rcases ht with hsame | hsame | hnone
    · exact .inl hsame
    · exact .inl hsame
    · simp at hnone
  | startSidecar htrusted | unchanged hsidecar | failed hsidecar =>
    left
    rcases ht with hsame | hsame | hnone
    · exact .inl hsame
    · exact .inr (.inl hsame)
    · simp at hnone

/-- **What the broker trusts has been served**, and is never empty. -/
theorem trusted_of_reaches (h₀ : ∀ bundle, ¬ s₀.Holds bundle)
    (h : Reaches (step sha256) (fun s _ => Serves S s) s₀ s) {bundle : String}
    (hs : s.Holds bundle) : bundle ∈ S ∧ bundle ≠ "" := by
  refine h.invariant (fun s => ∀ bundle, s.Holds bundle → bundle ∈ S ∧ bundle ≠ "") ?_
    (fun bundle hb => absurd hb (h₀ bundle)) bundle hs
  intro s a t ih hserves hstep bundle ht
  rcases holds_step (stepped_of_step hstep) ht with hs | ⟨rfl, hne⟩
  · exact ih bundle hs
  · exact ⟨hserves hne, hne⟩

end Served

/-! ### What the sidecar brings to the broker -/

section Adopted

variable {sha256 : String → String} {S : Set String} {s t s₀ u v : State} {a : Action}

/-- No process starts, and no answer is lost, while the broker has not read the file. -/
def Calm (s : State) : Action → Prop
  | .startBroker => s.trusted = none ∨ s.file = s.trusted
  | .startSidecar => s.file = s.trusted
  | .restart done reported => done = reported
  | _ => True

/-- The hash of the sidecar is that of what the broker trusts. -/
structure Settled (sha256 : String → String) (s : State) : Prop where
  prevHash : ∀ prevHash pc, s.sidecar = some ⟨prevHash, pc⟩ →
    ∃ bundle, s.trusted = some bundle ∧ prevHash = sha256 bundle
  moved : ∀ prevHash bundle, s.sidecar = some ⟨prevHash, .moved bundle⟩ → s.file = some bundle

theorem Settled.step (hs : Settled sha256 s) (hcalm : Calm s a) (h : Stepped sha256 s a t) :
    Settled sha256 t := by
  cases h with
  | write rows => exact ⟨hs.prevHash, hs.moved⟩
  | startPod => exact ⟨nofun, nofun⟩
  | fetchFirst hfile hne =>
    refine ⟨hs.prevHash, fun prevHash bundle hsidecar => ?_⟩
    rw [hs.moved prevHash bundle hsidecar] at hfile
    cases hfile
  | startBroker hfile =>
    refine ⟨fun prevHash pc hsidecar => ?_, hs.moved⟩
    obtain ⟨bundle, htrusted, hprev⟩ := hs.prevHash prevHash pc hsidecar
    rcases hcalm with hnone | hsame
    · rw [hnone] at htrusted
      cases htrusted
    · exact ⟨bundle, hsame.trans htrusted, hprev⟩
  | startSidecar htrusted =>
    obtain ⟨bundle, hbundle⟩ := Option.isSome_iff_exists.mp htrusted
    refine ⟨?_, by simp⟩
    rintro _ _ ⟨⟩
    refine ⟨bundle, hbundle, ?_⟩
    rw [show s.file = some bundle from hcalm.trans hbundle]
    rfl
  | fetch hsidecar hne =>
    refine ⟨?_, by simp⟩
    rintro _ _ ⟨⟩
    exact hs.prevHash _ _ hsidecar
  | unchanged hsidecar =>
    refine ⟨?_, by simp⟩
    rintro _ _ ⟨⟩
    exact hs.prevHash _ _ hsidecar
  | changed hsidecar hhash =>
    refine ⟨?_, ?_⟩
    · rintro _ _ ⟨⟩
      exact hs.prevHash _ _ hsidecar
    · rintro _ _ ⟨⟩
      rfl
  | reported hsidecar =>
    refine ⟨?_, by simp⟩
    rintro _ _ ⟨⟩
    exact ⟨_, hs.moved _ _ hsidecar, rfl⟩
  | lost hsidecar => cases hcalm
  | failed hsidecar =>
    refine ⟨?_, by simp⟩
    rintro _ _ ⟨⟩
    exact hs.prevHash _ _ hsidecar

/-- The step belongs to the poll that is under way: the sidecar does not start or fetch again. -/
def SamePoll : Action → Prop
  | .startPod | .startSidecar | .fetch => False
  | _ => True

/-- The poll ends without an error: the bundle is the last one, or the restart is reported. -/
def Completes (sha256 : String → String) (s : State) (a : Action) : Prop :=
  (a = .compare ∧ ∃ bundle, s.sidecar = some ⟨sha256 bundle, .fetched bundle⟩) ∨
    a = .restart true true

/-- The poll is that of the bundle, as long as it lasts. -/
def Polls (bundle : String) (s : State) : Prop :=
  ∀ prevHash pc, s.sidecar = some ⟨prevHash, pc⟩ →
    pc = .polling ∨ pc = .fetched bundle ∨ pc = .moved bundle

theorem Polls.step {bundle : String} (hs : Polls bundle s) (hpoll : SamePoll a)
    (h : Stepped sha256 s a t) : Polls bundle t := by
  cases h with
  | write | fetchFirst | startBroker => exact hs
  | startPod | startSidecar | fetch => cases hpoll
  | unchanged hsidecar | reported hsidecar | lost hsidecar | failed hsidecar =>
    rintro _ _ ⟨⟩
    exact .inl rfl
  | changed hsidecar hhash =>
    rintro _ _ ⟨⟩
    have hfetched := hs _ _ hsidecar
    simpa using hfetched

/-- No pod, and no bundle anywhere. -/
structure State.Fresh (s : State) : Prop where
  holds : ∀ bundle, ¬ s.Holds bundle
  sidecar : s.sidecar = none

theorem settled_of_reaches (h₀ : s₀.Fresh)
    (h : Reaches (step sha256) (fun s a => Serves S s ∧ Calm s a) s₀ s) : Settled sha256 s := by
  refine h.invariant (Settled sha256) ?_ ⟨?_, ?_⟩
  · intro s a t hs hok hstep
    exact hs.step hok.2 (stepped_of_step hstep)
  · simp [h₀.sidecar]
  · simp [h₀.sidecar]

theorem holds_of_reaches (h₀ : s₀.Fresh)
    (h : Reaches (step sha256) (fun s a => Serves S s ∧ Calm s a) s₀ s) {bundle : String}
    (hs : s.Holds bundle) : bundle ∈ S := by
  have hserves : StepBy (step sha256) (fun s a => Serves S s ∧ Calm s a) ≤
      StepBy (step sha256) fun s _ => Serves S s := fun _ _ ⟨a, hok, ha⟩ => ⟨a, hok.1, ha⟩
  exact (trusted_of_reaches h₀.holds (Relation.ReflTransGen.mono hserves _ _ h) hs).1

/-- **What the sidecar brings to the broker.** In a calm run, a poll that ends without an error
leaves the broker with the bundle of the table as it was when the poll began, whatever has been
written to the table since, and whichever restarts have failed before. -/
theorem adopted_of_reaches (hsha : Set.InjOn sha256 S) (h₀ : s₀.Fresh)
    (hrun : Reaches (step sha256) (fun s a => Serves S s ∧ Calm s a) s₀ s) (hserves : Serves S s)
    (hfetch : step sha256 s .fetch = some u)
    (hpoll : Reaches (step sha256) (fun s a => (Serves S s ∧ Calm s a) ∧ SamePoll a) u v)
    (hcompletes : Completes sha256 v a) (h : step sha256 v a = some t) :
    t.trusted = some (caBundle s.rows) := by
  have hok : StepBy (step sha256) (fun s a => (Serves S s ∧ Calm s a) ∧ SamePoll a) ≤
      StepBy (step sha256) fun s a => Serves S s ∧ Calm s a :=
    fun _ _ ⟨a, hok, ha⟩ => ⟨a, hok.1, ha⟩
  have hv : Reaches (step sha256) (fun s a => Serves S s ∧ Calm s a) s₀ v :=
    (hrun.tail ⟨.fetch, ⟨hserves, trivial⟩, hfetch⟩).trans
      (Relation.ReflTransGen.mono hok _ _ hpoll)
  have hsettled := settled_of_reaches h₀ hv
  have hpolls : Polls (caBundle s.rows) v := by
    refine hpoll.invariant (Polls (caBundle s.rows)) ?_ ?_
    · intro s a t hs hok hstep
      exact hs.step hok.2 (stepped_of_step hstep)
    · cases stepped_of_step hfetch with
      | fetch hsidecar hne =>
        rintro _ _ ⟨⟩
        exact .inr (.inl rfl)
  rcases hcompletes with ⟨rfl, bundle, hsidecar⟩ | rfl
  · -- the hash is that of the bundle which the broker trusts already
    obtain ⟨trusted, htrusted, hhash⟩ := hsettled.prevHash _ _ hsidecar
    obtain rfl : bundle = trusted :=
      hsha (holds_of_reaches h₀ hv (.inr (.inr ⟨_, hsidecar⟩)))
        (holds_of_reaches h₀ hv (.inr (.inl htrusted))) hhash
    obtain rfl : bundle = caBundle s.rows := by simpa using hpolls _ _ hsidecar
    cases stepped_of_step h with
    | unchanged => exact htrusted
    | changed => exact htrusted
  · cases stepped_of_step h with
    | reported hsidecar =>
      have hsame := hpolls _ _ hsidecar
      rw [← show _ = caBundle s.rows by simpa using hsame]
      exact hsettled.moved _ _ hsidecar

end Adopted

/-! ### A sidecar that starts too late -/

section Stale

variable {sha256 : String → String} {s t u : State}

/-- The bundle stays the same, and the broker is not started again. -/
def Quiet (bundle : String) (_ : State) : Action → Prop
  | .write rows => caBundle rows = bundle
  | .startBroker | .startPod => False
  | _ => True

/-- The sidecar takes the file for what the broker has read. -/
structure Mistaken (sha256 : String → String) (bundle : String) (trusted : Option String)
    (s : State) : Prop where
  served : caBundle s.rows = bundle
  file : s.file = some bundle
  trusted : s.trusted = trusted
  sidecar : s.sidecar = some ⟨sha256 bundle, .polling⟩ ∨
    s.sidecar = some ⟨sha256 bundle, .fetched bundle⟩

theorem Mistaken.step {bundle : String} {trusted : Option String} {a : Action}
    (hs : Mistaken sha256 bundle trusted s) (hquiet : Quiet bundle s a)
    (h : Stepped sha256 s a t) : Mistaken sha256 bundle trusted t := by
  have hmoved : ∀ prevHash b, s.sidecar ≠ some ⟨prevHash, .moved b⟩ := by
    intro prevHash b hb
    rcases hs.sidecar with h | h <;> simp [hb] at h
  cases h with
  | write rows => exact ⟨hquiet, hs.file, hs.trusted, hs.sidecar⟩
  | startPod | startBroker => cases hquiet
  | fetchFirst hfile =>
    rw [hs.file] at hfile
    cases hfile
  | startSidecar =>
    refine ⟨hs.served, hs.file, hs.trusted, .inl ?_⟩
    rw [hs.file]
    rfl
  | fetch hsidecar hne =>
    refine ⟨hs.served, hs.file, hs.trusted, .inr ?_⟩
    rcases hs.sidecar with h | h
    · obtain rfl : sha256 bundle = _ := by simpa using h.symm.trans hsidecar
      rw [hs.served]
    · simp [h] at hsidecar
  | unchanged hsidecar =>
    refine ⟨hs.served, hs.file, hs.trusted, .inl ?_⟩
    rcases hs.sidecar with h | h
    · simp [h] at hsidecar
    · obtain ⟨-, rfl⟩ : _ ∧ bundle = _ := by simpa using h.symm.trans hsidecar
      rfl
  | changed hsidecar hhash =>
    rcases hs.sidecar with h | h
    · simp [h] at hsidecar
    · obtain ⟨hprev, rfl⟩ : _ ∧ bundle = _ := by simpa using h.symm.trans hsidecar
      exact absurd hprev hhash
  | reported hsidecar | lost hsidecar | failed hsidecar => exact absurd hsidecar (hmoved _ _)

/-- **A sidecar that starts too late** changes nothing: once it has started with a bundle in place
that the broker has not read, the broker keeps what it trusts in every run in which the bundle stays
the same and the broker is not started again, however often the sidecar polls or starts again. -/
theorem stale_of_reaches (hfile : s.file = some (caBundle s.rows))
    (hstart : step sha256 s .startSidecar = some u)
    (h : Reaches (step sha256) (Quiet (caBundle s.rows)) u t) :
    t.trusted = s.trusted ∧ t.file = s.file := by
  have hu : Mistaken sha256 (caBundle s.rows) s.trusted u := by
    cases stepped_of_step hstart with
    | startSidecar =>
      refine ⟨rfl, hfile, rfl, .inl ?_⟩
      rw [hfile]
      rfl
  have ht : Mistaken sha256 (caBundle s.rows) s.trusted t := by
    refine h.invariant (Mistaken sha256 (caBundle s.rows) s.trusted) ?_ hu
    intro s a t hs hok hstep
    exact hs.step hok (stepped_of_step hstep)
  exact ⟨ht.trusted, ht.file.trans hfile.symm⟩

end Stale

/-! ### An organization that is added -/

/-- Two authorities. -/
def acme : OrganizationCa := ⟨1, "A\n", [], [], "CN=A", 0, 100⟩

def beta : OrganizationCa := ⟨2, "B", [], [], "CN=B", 0, 100⟩

/-- No pod, and the first organization. -/
def empty : State := ⟨[acme], none, none, none⟩

/-- The pod runs, and the second organization is there. -/
def added : State := ⟨[acme, beta], some "A\n", some "A\n", some ⟨"A\n", .polling⟩⟩

theorem fresh_empty : empty.Fresh := ⟨by simp [State.Holds, empty], rfl⟩

theorem reaches_added :
    Reaches (step id) (fun s a => Serves Set.univ s ∧ Calm s a) empty added := by
  have hserves (s : State) : Serves Set.univ s := fun _ => trivial
  refine .tail (.tail (.tail (.single ⟨.fetchFirst, ⟨hserves _, trivial⟩, rfl⟩)
    ⟨.startBroker, ⟨hserves _, .inl rfl⟩, rfl⟩) ⟨.startSidecar, ⟨hserves _, rfl⟩, rfl⟩)
    ⟨.write [acme, beta], ⟨hserves _, trivial⟩, ?_⟩
  decide +kernel

/-- The second organization is trusted after the next poll. -/
theorem adopted_beta :
    ((step id added .fetch).bind fun s => (step id s .compare).bind fun s =>
      step id s (.restart true true)).map State.trusted = some (some (caBundle [acme, beta])) := by
  have hserves (s : State) : Serves Set.univ s := fun _ => trivial
  have hfetch : step id added .fetch =
      some { added with sidecar := some ⟨"A\n", .fetched "A\nB\n"⟩ } := by decide +kernel
  have hcompare : step id { added with sidecar := some ⟨"A\n", .fetched "A\nB\n"⟩ } .compare =
      some { added with
        file := some "A\nB\n"
        sidecar := some ⟨"A\n", .moved "A\nB\n"⟩ } := by decide +kernel
  have hrestart : step id
      { added with file := some "A\nB\n", sidecar := some ⟨"A\n", .moved "A\nB\n"⟩ }
      (.restart true true) = some
        { added with
          file := some "A\nB\n"
          trusted := some "A\nB\n"
          sidecar := some ⟨"A\nB\n", .polling⟩ } := by decide +kernel
  rw [hfetch, Option.bind_some, hcompare, Option.bind_some, hrestart, Option.map_some]
  exact congrArg some (adopted_of_reaches (Set.injOn_id _) fresh_empty reaches_added (hserves _)
    hfetch (.single ⟨.compare, ⟨⟨hserves _, trivial⟩, trivial⟩, hcompare⟩) (.inr rfl) hrestart)

/-- The restart of the listener has failed, and the sidecar has ended. -/
def unread : State := ⟨[acme, beta], some "A\nB\n", some "A\n", none⟩

/-- The sidecar starts again, and polls. -/
def again : State := { unread with sidecar := some ⟨"A\nB\n", .fetched "A\nB\n"⟩ }

/-- The second organization is not trusted. -/
theorem stale_beta :
    Reaches (step id) (Quiet "A\nB\n") { unread with sidecar := some ⟨"A\nB\n", .polling⟩ } again ∧
      again.trusted = unread.trusted ∧ again.file = unread.file := by
  have hbundle : caBundle [acme, beta] = "A\nB\n" := by decide +kernel
  have hfetch : step id { unread with sidecar := some ⟨"A\nB\n", .polling⟩ } .fetch =
      some again := by decide +kernel
  have hreaches : Reaches (step id) (Quiet "A\nB\n")
      { unread with sidecar := some ⟨"A\nB\n", .polling⟩ } again :=
    .single ⟨.fetch, trivial, hfetch⟩
  refine ⟨hreaches, ?_⟩
  rw [← hbundle] at hreaches
  exact stale_of_reaches (s := unread) (congrArg some hbundle.symm) rfl hreaches

end EdgeGuardian.TrustBundle
