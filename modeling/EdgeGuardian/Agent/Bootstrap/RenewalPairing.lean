import EdgeGuardian.Agent.Bootstrap.Renewer

/-!
# The key and the certificate of a renewed identity

After a renewal the key at `identity.key` should be the one of the certificate at `identity.crt`.
The handler pairs the certificate of the response in hand with whatever key is stashed at that
moment, and every attempt of the renewal loop overwrites the stash. A response carries nothing that
tells which request it answers, so the pair is right when the response answers the last attempt,
and wrong when a later attempt came in between.

## Main definitions

* `AnswersSent`: a response carries a certificate for a request that was sent.
* `Timely`: the response in hand answers the last attempt when the stash is read.

## Main results

* `paired_of_timely`: in every run whose responses are timely, the key and the certificate belong
  together whenever `HandleRenewalResponse` returns.
* `mispaired_after_second_attempt`: a run with two attempts in which they do not.
* `paired_of_handled_iff`: what one undisturbed call of the handler leaves behind.
-/

namespace EdgeGuardian.Agent.Bootstrap

open Transition

/-! ### Runs -/

/-- A device that is about to start, with a key and a certificate that belong together and no
stashed key. -/
structure Starting (s : State) : Prop where
  paired : s.files.Paired
  noStash : s.files.newKey = none
  down : s.proc = none

/-- The action reads the stash. -/
def Action.readsStash : Action → Bool
  | .readStash _ => true
  | _ => false

/-- The response with which the handler is about to read the stash. -/
def HandlerPc.response : HandlerPc → Option CertPem
  | .received certPem => some certPem
  | _ => none

/-- A response carries a certificate for the key of a request that was sent. -/
def AnswersSent (s : State) (a : Action) : Prop :=
  ∀ certPem ∈ a.response,
    ∃ m ∈ s.sent, certPem.parse.map X509Certificate.publicKey = some m.csr.publicKey

/-- Where the handler reads a stashed key, the response in hand carries a certificate for the key
that was stashed last, or none that can be read. -/
def Timely (s : State) (a : Action) : Prop :=
  a.readsStash → s.files.newKey.isSome → ∀ p ∈ s.proc, ∀ certPem ∈ p.handler.response,
    ∀ c ∈ certPem.parse, s.attempts.head? = some c.publicKey

instance (s : State) (a : Action) : Decidable (AnswersSent s a) :=
  inferInstanceAs (Decidable (∀ _ ∈ _, _))

instance (s : State) (a : Action) : Decidable (Timely s a) :=
  inferInstanceAs (Decidable (_ → _))

/-! ### The invariant -/

/-- What holds at each point of the handler. -/
def HandlerPc.Inv (files : IdentityFiles) : HandlerPc → Prop
  | .idle | .received _ => True
  | .keyRead certPem newKey => ∀ c, certPem.parse = some c → c.publicKey = newKey
  | .keyWritten certPem => ∀ c, certPem.parse = some c → files.key = some c.publicKey
  | .certWritten | .stashRemoved =>
    ∀ c, files.cert.bind CertPem.parse = some c → files.key = some c.publicKey
  | .returned => files.Paired

/-- A stashed key is the one of the last attempt, and the handler is on its way to a pair. -/
structure State.Inv (s : State) : Prop where
  stash : ∀ k, s.files.newKey = some k → s.attempts.head? = some k
  handler : ∀ p, s.proc = some p → p.handler.Inv s.files

theorem HandlerPc.Inv.congr {files files' : IdentityFiles} {pc : HandlerPc} (h : pc.Inv files)
    (hkey : files'.key = files.key) (hcert : files'.cert = files.cert) : pc.Inv files' := by
  cases pc <;> simp_all [HandlerPc.Inv, IdentityFiles.Paired]

variable {s t : State} {p : Proc} {a : Action}

theorem Starting.inv (h : Starting s) : s.Inv where
  stash k hk := by rw [h.noStash] at hk; cases hk
  handler p hp := by rw [h.down] at hp; cases hp

theorem State.Inv.withProc (h : s.Inv) (hpc : p.handler.Inv s.files) : (s.withProc p).Inv where
  stash := h.stash
  handler _ hp := by cases hp; exact hpc

/-- The renewal loop keeps the invariant: it touches neither the key nor the certificate. -/
theorem State.Inv.ticked (h : s.Inv) (hproc : s.proc = some p) (hstep : Ticked s p a t) :
    t.Inv := by
  have hpc := h.handler p hproc
  cases hstep with
  | stashed htick =>
    -- A later attempt may overwrite the stash while the handler holds the key that it has read.
    constructor
    · intro k hk
      cases hk
      rfl
    · intro q hq
      cases hq
      exact hpc.congr rfl rfl
  | published htick =>
    constructor
    · exact h.stash
    · intro q hq
      cases hq
      exact hpc
  | due _ | marked _ | failed _ | counted => exact h.withProc hpc

/-- The handler keeps the invariant, if the response answers the last attempt when the stash is
read. -/
theorem State.Inv.handled (h : s.Inv) (hok : Timely s a) (hproc : s.proc = some p)
    (hstep : Handled s p a t) : t.Inv := by
  have hpc := h.handler p hproc
  cases hstep with
  | received _ | ended _ => exact h.withProc trivial
  | @keyRead certPem newKey hat hkey =>
    -- The only step that needs the condition: the stash and the response meet here.
    refine h.withProc fun c hc => ?_
    have hlast : s.attempts.head? = some c.publicKey :=
      hok rfl (by rw [hkey]; rfl) p hproc certPem (by rw [hat]; rfl) c hc
    rw [h.stash newKey hkey] at hlast
    exact (Option.some.inj hlast).symm
  | @keyWritten certPem newKey hat =>
    rw [hat] at hpc
    refine ⟨h.stash, fun q hq => ?_⟩
    cases hq
    intro c hc
    show some newKey = some c.publicKey
    rw [hpc c hc]
  | certWritten hat =>
    rw [hat] at hpc
    refine ⟨h.stash, fun q hq => ?_⟩
    cases hq
    exact hpc
  | @stashRemoved ok hat =>
    rw [hat] at hpc
    refine ⟨fun k hk => ?_, fun q hq => ?_⟩
    · cases ok with
      | true => cases hk
      | false => exact h.stash k hk
    · cases hq
      exact hpc
  | @returned id hat hload =>
    rw [hat] at hpc
    obtain ⟨hcert, -, -⟩ := load_eq_ok_some.mp hload
    exact h.withProc ⟨id, hcert, hpc id (by rw [hcert]; rfl)⟩

theorem State.Inv.step (h : s.Inv) (hok : Timely s a) (hstep : step s a = some t) : t.Inv := by
  cases step_eq_some hstep with
  | started _ _ _ => exact h.withProc trivial
  | stopped _ => exact ⟨h.stash, fun _ hp => nomatch hp⟩
  | skipped _ => exact h
  | ticked hproc hticked => exact h.ticked hproc hticked
  | handled hproc hhandled => exact h.handled hok hproc hhandled

/-- **The pair after a renewal.** In every run of ticks, restarts and responses in which each
response answers the last attempt when the stash is read, the key and the certificate on disk
belong together whenever `HandleRenewalResponse` returns without an error. -/
theorem paired_of_timely (hs : Starting s) (h : Reaches step Timely s t) (hproc : t.proc = some p)
    (hreturned : p.handler = .returned) : t.files.Paired := by
  have hinv : t.Inv := h.invariant State.Inv (fun h hok hstep => h.step hok hstep) hs.inv
  have hpc := hinv.handler p hproc
  rwa [hreturned] at hpc

/-! ### Two attempts -/

namespace TwoAttempts

/-- A certificate for the key, which expires at day 100. -/
def leaf (serial : ℕ) (key : KeyPair) : X509Certificate where
  issuer := 1
  serial := serial
  notBefore := 0
  notAfter := Duration.ofDays 100
  subject := [("CN", "d")]
  publicKey := key
  sans := []
  crlUrl := ""

/-- The device with its first certificate. -/
def enrolled : State where
  files := ⟨some 10, some (.certificate (leaf 1 10)), some (.certificate (leaf 0 0)), none⟩
  proc := none
  sent := []
  attempts := []

/-- A tick that renews with the key. -/
def attempt (now : Instant) (key : KeyPair) : List Action :=
  [.tryRenew now, .markAttempt, .stashKey key, .publish true, .countFailure]

/-- The handler, from the message to its return. -/
def swap (c : X509Certificate) : List Action :=
  [.receive (.certificate c), .readStash true, .writeKey true, .writeCert true, .removeStash true,
    .reload]

theorem starting_enrolled : Starting enrolled := ⟨⟨leaf 1 10, rfl, rfl⟩, rfl, rfl⟩

/-- The renewal with one attempt on day 90. -/
def timelyRun : List Action := .start :: attempt (Duration.ofDays 90) 11 ++ swap (leaf 2 11)

/-- Two attempts, five hours apart, before the response to the first one. -/
def lateRun : List Action :=
  .start :: attempt (Duration.ofDays 90) 11 ++
    attempt (Duration.ofDays 90 + Duration.ofHours 5) 12 ++ swap (leaf 2 11)

end TwoAttempts

open TwoAttempts in
/-- A renewal with one attempt reaches its end, with a pair. -/
theorem paired_after_one_attempt :
    ∃ t, (Starting enrolled ∧ Reaches step Timely enrolled t ∧
      ∃ p, t.proc = some p ∧ p.handler = .returned) ∧ t.files.Paired := by
  obtain ⟨t, hrun, hreturned⟩ : ∃ t ∈ execBy step Timely enrolled timelyRun,
      (t.proc.map Proc.handler) = some .returned := by decide +kernel
  have hreaches := reaches_of_execBy hrun
  obtain ⟨p, hproc, hpc⟩ := Option.map_eq_some_iff.mp hreturned
  exact ⟨t, ⟨starting_enrolled, hreaches, p, hproc, hpc⟩,
    paired_of_timely starting_enrolled hreaches hproc hpc⟩

open TwoAttempts in
/-- The response to the first of two attempts is paired with the key of the second one. -/
theorem mispaired_after_second_attempt :
    ¬ ∀ s t : State, Starting s → Reaches step AnswersSent s t →
      ∀ p, t.proc = some p → p.handler = .returned → t.files.Paired := by
  intro h
  obtain ⟨t, hrun, hreturned, hfiles⟩ : ∃ t ∈ execBy step AnswersSent enrolled lateRun,
      t.proc.map Proc.handler = some .returned ∧
        t.files.key = some 12 ∧ t.files.cert = some (.certificate (leaf 2 11)) := by decide +kernel
  obtain ⟨p, hproc, hpc⟩ := Option.map_eq_some_iff.mp hreturned
  obtain ⟨c, hcert, hkey⟩ := h enrolled t starting_enrolled (reaches_of_execBy hrun) p hproc hpc
  rw [hfiles.2] at hcert
  rw [hfiles.1] at hkey
  cases hcert
  exact absurd hkey (by decide)

/-! ### One call of the handler -/

/-- A call of `HandleRenewalResponse` that nothing disturbs returns, and leaves a pair exactly if
the certificate of the response is for the stashed key. -/
theorem paired_of_handled_iff {c id : X509Certificate} {newKey : KeyPair}
    (hproc : s.proc = some p) (hpc : p.handler = .received (.certificate c))
    (hid : p.identity = some id) (hkey : s.files.newKey = some newKey)
    (hca : s.files.ca.isSome) :
    ∃ t ∈ exec step s
        [.readStash true, .writeKey true, .writeCert true, .removeStash true, .reload],
      t.proc.map Proc.handler = some .returned ∧
        (t.files.Paired ↔ c.publicKey = newKey) := by
  have hload : load ⟨some newKey, some (.certificate c), s.files.ca, none⟩ = .ok (some c) :=
    load_eq_ok_some.mpr ⟨rfl, rfl, hca⟩
  have hrun : exec step s
      [.readStash true, .writeKey true, .writeCert true, .removeStash true, .reload] =
        some { s with
          files := ⟨some newKey, some (.certificate c), s.files.ca, none⟩
          proc := some ⟨some c, p.tls, none, 0, p.tick, .returned⟩ } := by
    simp [execBy, step, State.readStash, State.writeKey, State.writeCert, State.removeStash,
      State.reload, State.withProc, hproc, hpc, hid, hkey, hload]
  refine ⟨_, hrun, rfl, ?_⟩
  constructor
  · rintro ⟨c', hcert, hkey'⟩
    cases hcert
    exact (Option.some.inj hkey').symm
  · intro h
    exact ⟨c, rfl, by rw [h]⟩

end EdgeGuardian.Agent.Bootstrap
