import EdgeGuardian.Agent.Bootstrap.Identity
import EdgeGuardian.Lib.Transition

/-!
# The renewal of the identity

Two goroutines of the agent share the identity files. The renewal loop generates a key, stashes it
at `identity.key.new` and publishes a request; the handler of `cert/response` moves the stashed key
to `identity.key` and writes the certificate of the response beside it. Neither holds the mutex
while it works on files, so a step of the model is one access to a file or one critical section,
and the steps of the two interleave. The MQTT client calls the handler for one message at a time.

The process may stop between any two steps. The files stay, and so does what has been published,
also what waits in the offline queue.

Source: `agent/internal/bootstrap/renewal.go`, `agent/internal/comms/mqtt_client.go`, lines 258–270,
`agent/cmd/agent/main.go`, lines 149–194 and 320–349.

## Main definitions

* `renewalRequest`: what `publishRenewal` sends.
* `Proc`, `State`, `Action`, `step`: the process, the device and its steps.

## Main results

* `Stepped`, `step_eq_some`: everything that a step does.
-/

namespace EdgeGuardian.Agent.Bootstrap

/-- `IdentityCertName`. -/
def identityCertName : String := "device-identity"

/-- The `renewWindow` that `runAgent` passes. -/
def renewWindow : ℕ := Duration.ofDays 14

/-- `defaultMinBetweenAttempts`. -/
def minBetweenAttempts : ℕ := Duration.ofHours 4

/-- `defaultCriticalWindow`. -/
def criticalWindow : ℕ := Duration.ofHours 24

/-- `defaultMaxFailuresBeforeFatal`. -/
def maxFailuresBeforeFatal : ℕ := 3

/-! ### Requests -/

/-- `Subject.CommonName` as Go reads it, the last one of the name. -/
def commonName (n : X500Name) : String :=
  ((n.reverse.find? fun a => a.1 == "CN").map Prod.snd).getD ""

/-- `CreateCSR` without SANs; Go leaves an empty common name out. -/
def createCsr (key : KeyPair) (cn : String) : CertificationRequest where
  subject := if cn = "" then [] else [("CN", cn)]
  publicKey := key

/-- The arguments of `PublishCertRequest`. -/
structure CertRequestMessage where
  name : String
  commonName : String
  sans : List String
  csr : CertificationRequest
  reqType : String
  currentSerial : String
deriving DecidableEq, Repr

/-- The request that `publishRenewal` publishes for a new key. -/
def renewalRequest (id : X509Certificate) (key : KeyPair) : CertRequestMessage where
  name := identityCertName
  commonName := commonName id.subject
  sans := []
  csr := createCsr key (commonName id.subject)
  reqType := "RENEWAL"
  currentSerial := id.serialHex

/-! ### The process -/

/-- Where the renewal loop is. -/
inductive TickPc
  /-- Between two calls of `tryRenew`. -/
  | idle
  /-- `tryRenew` has decided to renew. -/
  | due (id : X509Certificate) (now : Instant)
  /-- `lastAttempt` is set, and `publishRenewal` is called. -/
  | attempting (id : X509Certificate)
  /-- The key is stashed. -/
  | stashed (id : X509Certificate) (key : KeyPair)
  /-- `publishRenewal` has returned. -/
  | attempted
deriving DecidableEq, Repr

/-- Where the handler of `cert/response` is. -/
inductive HandlerPc
  /-- Between two calls of `HandleRenewalResponse`. -/
  | idle
  | received (certPem : CertPem)
  | keyRead (certPem : CertPem) (newKey : KeyPair)
  | keyWritten (certPem : CertPem)
  | certWritten
  | stashRemoved
  /-- `HandleRenewalResponse` has returned without an error. -/
  | returned
deriving DecidableEq, Repr

/-- The running agent: the fields of `Renewer` that change, the key pair in the `tls.Config` of the
MQTT client, and the two goroutines. -/
structure Proc where
  identity : Option X509Certificate
  tls : X509Certificate
  lastAttempt : Option Instant
  consecutiveFailed : ℕ
  tick : TickPc
  handler : HandlerPc
deriving DecidableEq, Repr

/-- The process that `runAgent` wires from an identity and a connected client. -/
def Proc.wired (id tls : X509Certificate) : Proc where
  identity := some id
  tls := tls
  lastAttempt := none
  consecutiveFailed := 0
  tick := .idle
  handler := .idle

/-- What `tryRenew` makes of the fields that it reads. -/
inductive Decision
  | skip
  | fatal
  | renew (id : X509Certificate)
deriving DecidableEq, Repr

/-- The first part of `tryRenew`. -/
def Proc.decide (p : Proc) (now : Instant) : Decision :=
  match p.identity with
  | none => .skip
  | some id =>
    if now + renewWindow < id.notAfter then .skip
    -- A response can take minutes, so attempts are some hours apart.
    else if p.lastAttempt.any fun last => now < last + minBetweenAttempts then .skip
    else if id.notAfter ≤ now + criticalWindow ∧ maxFailuresBeforeFatal ≤ p.consecutiveFailed then
      .fatal
    else .renew id

theorem identity_of_decide {p : Proc} {now : Instant} {id : X509Certificate}
    (h : p.decide now = .renew id) : p.identity = some id := by
  simp only [Proc.decide] at h
  split at h
  · cases h
  · split_ifs at h
    cases h
    assumption

/-! ### The device -/

/-- A device: its files, the process if it runs, and what it has done so far. -/
structure State where
  files : IdentityFiles
  proc : Option Proc
  /-- What has been published or queued, the newest first. -/
  sent : List CertRequestMessage
  /-- The keys that have been stashed, the newest first. -/
  attempts : List KeyPair
deriving DecidableEq, Repr

/-- The steps of a device. A file operation that fails has `ok = false`. -/
inductive Action
  | start
  /-- The process ends: a crash, an update, a reboot. -/
  | stop
  /-- A tick, at the time `now`. -/
  | tryRenew (now : Instant)
  | markAttempt
  /-- `publishRenewal` up to its write; `none` where generating or writing the key fails. -/
  | stashKey (key : Option KeyPair)
  /-- `PublishCertRequest`; an error may or may not leave the message with the broker. -/
  | publish (leaves : Bool)
  | countFailure
  /-- An accepted response named `device-identity` is handed to the handler. -/
  | receive (certPem : CertPem)
  | readStash (ok : Bool)
  | writeKey (ok : Bool)
  | writeCert (ok : Bool)
  | removeStash (ok : Bool)
  | reload
  | finish
deriving DecidableEq, Repr

/-- The response that the action hands to the handler. -/
def Action.response : Action → Option CertPem
  | .receive certPem => some certPem
  | _ => none

namespace State

variable (s : State) (p : Proc)

/-- The state after a step of the running process. -/
def withProc : State := { s with proc := some p }

/-- `connectWithIdentity` for an identity that is on disk, and the wiring in `runAgent`. Where the
key pair does not load there is no client, and `connectWithIdentityRetry` tries again. -/
def start : Option State :=
  match s.proc, load s.files, buildTls s.files with
  | none, .ok (some id), some tls => some (s.withProc (.wired id tls))
  | _, _, _ => none

/-- `tryRenew` up to the log entry about the request. -/
def tryRenew (now : Instant) : Option State :=
  match p.tick with
  | .idle =>
    match p.decide now with
    | .skip => some s
    | .fatal => some { s with proc := none }
    | .renew id => some (s.withProc { p with tick := .due id now })
  | _ => none

/-- The write of `lastAttempt`. -/
def markAttempt : Option State :=
  match p.tick with
  | .due id now =>
    some (s.withProc { p with tick := .attempting id, lastAttempt := some now })
  | _ => none

/-- `publishRenewal` up to the write of `identity.key.new`. -/
def stashKey (key : Option KeyPair) : Option State :=
  match p.tick, key with
  | .attempting id, some key =>
    some { s with
      files := { s.files with newKey := some key }
      proc := some { p with tick := .stashed id key }
      attempts := key :: s.attempts }
  | .attempting _, none => some (s.withProc { p with tick := .attempted })
  | _, _ => none

/-- The rest of `publishRenewal`. -/
def publish (leaves : Bool) : Option State :=
  match p.tick with
  | .stashed id key =>
    some { s with
      proc := some { p with tick := .attempted }
      sent := if leaves then renewalRequest id key :: s.sent else s.sent }
  | _ => none

/-- The end of `tryRenew`, the same whether `publishRenewal` failed or not. -/
def countFailure : Option State :=
  match p.tick with
  | .attempted =>
    some (s.withProc { p with tick := .idle, consecutiveFailed := p.consecutiveFailed + 1 })
  | _ => none

/-- A call of `HandleRenewalResponse`. -/
def receive (certPem : CertPem) : Option State :=
  match p.handler with
  | .idle => some (s.withProc { p with handler := .received certPem })
  | _ => none

/-- `HandleRenewalResponse` up to `readFileIfExists`, which fails on a missing file. -/
def readStash (ok : Bool) : Option State :=
  match p.handler with
  | .received certPem =>
    match p.identity, s.files.newKey, ok with
    | some _, some newKey, true =>
      some (s.withProc { p with handler := .keyRead certPem newKey })
    | _, _, _ => some (s.withProc { p with handler := .idle })
  | _ => none

/-- The first write of `persist`. -/
def writeKey (ok : Bool) : Option State :=
  match p.handler with
  | .keyRead certPem newKey =>
    if ok then
      some { s with
        files := { s.files with key := some newKey }
        proc := some { p with handler := .keyWritten certPem } }
    else some (s.withProc { p with handler := .idle })
  | _ => none

/-- The second write of `persist`; there is no CA certificate to write. -/
def writeCert (ok : Bool) : Option State :=
  match p.handler with
  | .keyWritten certPem =>
    if ok then
      some { s with
        files := { s.files with cert := some certPem }
        proc := some { p with handler := .certWritten } }
    else some (s.withProc { p with handler := .idle })
  | _ => none

/-- `removeIfExists`, whose error is dropped. -/
def removeStash (ok : Bool) : Option State :=
  match p.handler with
  | .certWritten =>
    some { s with
      files := { s.files with newKey := if ok then none else s.files.newKey }
      proc := some { p with handler := .stashRemoved } }
  | _ => none

/-- `Load` and the rest of `HandleRenewalResponse`. The log entry at its end reads the fields of the
identity, so that a missing one ends the process. -/
def reload : Option State :=
  match p.handler with
  | .stashRemoved =>
    match load s.files with
    | .error _ => some (s.withProc { p with handler := .idle })
    -- `updated` is `nil`, and reading its serial for the log entry panics.
    | .ok none => some { s with proc := none }
    | .ok (some id) =>
      some (s.withProc { p with
        identity := some id, consecutiveFailed := 0, lastAttempt := none, handler := .returned })
  | _ => none

/-- The handler goes on to the next message. -/
def finish : Option State :=
  match p.handler with
  | .returned => some (s.withProc { p with handler := .idle })
  | _ => none

end State

/-- One step of a device. -/
def step (s : State) : Action → Option State
  | .start => s.start
  | .stop => s.proc.map fun _ => { s with proc := none }
  | .tryRenew now => s.proc.bind (s.tryRenew · now)
  | .markAttempt => s.proc.bind s.markAttempt
  | .stashKey key => s.proc.bind (s.stashKey · key)
  | .publish leaves => s.proc.bind (s.publish · leaves)
  | .countFailure => s.proc.bind s.countFailure
  | .receive certPem => s.proc.bind (s.receive · certPem)
  | .readStash ok => s.proc.bind (s.readStash · ok)
  | .writeKey ok => s.proc.bind (s.writeKey · ok)
  | .writeCert ok => s.proc.bind (s.writeCert · ok)
  | .removeStash ok => s.proc.bind (s.removeStash · ok)
  | .reload => s.proc.bind s.reload
  | .finish => s.proc.bind s.finish

/-! ### What a step does -/

/-- A step of the renewal loop: it may stash a key and publish a request, and it leaves the key and
the certificate of the identity alone. -/
inductive Ticked (s : State) (p : Proc) : Action → State → Prop
  | due {now : Instant} {id : X509Certificate} (hid : p.identity = some id) :
      Ticked s p (.tryRenew now) (s.withProc { p with tick := .due id now })
  | marked {id : X509Certificate} {now : Instant} (htick : p.tick = .due id now) :
      Ticked s p .markAttempt
        (s.withProc { p with tick := .attempting id, lastAttempt := some now })
  | stashed {id : X509Certificate} {key : KeyPair} (htick : p.tick = .attempting id) :
      Ticked s p (.stashKey (some key))
        { s with
          files := { s.files with newKey := some key }
          proc := some { p with tick := .stashed id key }
          attempts := key :: s.attempts }
  | failed (a : Action) : Ticked s p a (s.withProc { p with tick := .attempted })
  | published {id : X509Certificate} {key : KeyPair} (htick : p.tick = .stashed id key) :
      Ticked s p (.publish true)
        { s with
          proc := some { p with tick := .attempted }
          sent := renewalRequest id key :: s.sent }
  | counted : Ticked s p .countFailure
      (s.withProc { p with tick := .idle, consecutiveFailed := p.consecutiveFailed + 1 })

/-- A step of the handler. -/
inductive Handled (s : State) (p : Proc) : Action → State → Prop
  | received {certPem : CertPem} (hidle : p.handler = .idle) :
      Handled s p (.receive certPem) (s.withProc { p with handler := .received certPem })
  | keyRead {certPem : CertPem} {newKey : KeyPair} (hpc : p.handler = .received certPem)
      (hkey : s.files.newKey = some newKey) :
      Handled s p (.readStash true) (s.withProc { p with handler := .keyRead certPem newKey })
  | keyWritten {certPem : CertPem} {newKey : KeyPair} (hpc : p.handler = .keyRead certPem newKey) :
      Handled s p (.writeKey true)
        { s with
          files := { s.files with key := some newKey }
          proc := some { p with handler := .keyWritten certPem } }
  | certWritten {certPem : CertPem} (hpc : p.handler = .keyWritten certPem) :
      Handled s p (.writeCert true)
        { s with
          files := { s.files with cert := some certPem }
          proc := some { p with handler := .certWritten } }
  | stashRemoved {ok : Bool} (hpc : p.handler = .certWritten) :
      Handled s p (.removeStash ok)
        { s with
          files := { s.files with newKey := if ok then none else s.files.newKey }
          proc := some { p with handler := .stashRemoved } }
  | returned {id : X509Certificate} (hpc : p.handler = .stashRemoved)
      (hload : load s.files = .ok (some id)) :
      Handled s p .reload
        (s.withProc { p with
          identity := some id, consecutiveFailed := 0, lastAttempt := none, handler := .returned })
  | ended (a : Action) : Handled s p a (s.withProc { p with handler := .idle })

/-- **What a step does.** -/
inductive Stepped (s : State) : Action → State → Prop
  | started {id tls : X509Certificate} (hproc : s.proc = none)
      (hload : load s.files = .ok (some id)) (htls : buildTls s.files = some tls) :
      Stepped s .start (s.withProc (.wired id tls))
  | stopped (a : Action) : Stepped s a { s with proc := none }
  | skipped (a : Action) : Stepped s a s
  | ticked {p : Proc} {a : Action} {t : State} (hproc : s.proc = some p) (h : Ticked s p a t) :
      Stepped s a t
  | handled {p : Proc} {a : Action} {t : State} (hproc : s.proc = some p) (h : Handled s p a t) :
      Stepped s a t

theorem stepped_of_tryRenew {s t : State} {p : Proc} {now : Instant} (hproc : s.proc = some p)
    (h : s.tryRenew p now = some t) : Stepped s (.tryRenew now) t := by
  simp only [State.tryRenew] at h
  split at h
  · split at h
    · cases h
      exact .skipped _
    · cases h
      exact .stopped _
    · next hdecide =>
      cases h
      exact .ticked hproc (.due (identity_of_decide hdecide))
  · cases h

theorem stepped_of_stashKey {s t : State} {p : Proc} {key : Option KeyPair}
    (hproc : s.proc = some p) (h : s.stashKey p key = some t) : Stepped s (.stashKey key) t := by
  simp only [State.stashKey] at h
  split at h
  · next htick =>
    cases h
    exact .ticked hproc (.stashed htick)
  · cases h
    exact .ticked hproc (.failed _)
  · cases h

theorem stepped_of_publish {s t : State} {p : Proc} {leaves : Bool}
    (hproc : s.proc = some p) (h : s.publish p leaves = some t) :
    Stepped s (.publish leaves) t := by
  simp only [State.publish] at h
  split at h
  · next htick =>
    cases h
    cases leaves with
    | true => exact .ticked hproc (.published htick)
    | false => exact .ticked hproc (.failed _)
  · cases h

theorem stepped_of_readStash {s t : State} {p : Proc} {ok : Bool}
    (hproc : s.proc = some p) (h : s.readStash p ok = some t) : Stepped s (.readStash ok) t := by
  simp only [State.readStash] at h
  split at h
  · next hpc =>
    split at h
    · next hkey =>
      cases h
      exact .handled hproc (.keyRead hpc hkey)
    · cases h
      exact .handled hproc (.ended _)
  · cases h

theorem stepped_of_writeKey {s t : State} {p : Proc} {ok : Bool}
    (hproc : s.proc = some p) (h : s.writeKey p ok = some t) : Stepped s (.writeKey ok) t := by
  simp only [State.writeKey] at h
  split at h
  · next hpc =>
    cases ok with
    | true =>
      cases h
      exact .handled hproc (.keyWritten hpc)
    | false =>
      cases h
      exact .handled hproc (.ended _)
  · cases h

theorem stepped_of_writeCert {s t : State} {p : Proc} {ok : Bool}
    (hproc : s.proc = some p) (h : s.writeCert p ok = some t) : Stepped s (.writeCert ok) t := by
  simp only [State.writeCert] at h
  split at h
  · next hpc =>
    cases ok with
    | true =>
      cases h
      exact .handled hproc (.certWritten hpc)
    | false =>
      cases h
      exact .handled hproc (.ended _)
  · cases h

theorem stepped_of_reload {s t : State} {p : Proc}
    (hproc : s.proc = some p) (h : s.reload p = some t) : Stepped s .reload t := by
  simp only [State.reload] at h
  split at h
  · next hpc =>
    split at h
    · cases h
      exact .handled hproc (.ended _)
    · cases h
      exact .stopped _
    · next hload =>
      cases h
      exact .handled hproc (.returned hpc hload)
  · cases h

/-- The case analysis of a step. -/
theorem step_eq_some {s t : State} {a : Action} (h : step s a = some t) : Stepped s a t := by
  rcases hproc : s.proc with _ | p
  · cases a with
    | start =>
      simp only [step, State.start, hproc] at h
      split at h
      · next hload htls =>
        cases h
        exact .started hproc hload htls
      · cases h
    | _ => simp [step, hproc] at h
  · cases a with
    | start => simp [step, State.start, hproc] at h
    | stop =>
      simp only [step, hproc, Option.map_some, Option.some.injEq] at h
      exact h ▸ .stopped _
    | tryRenew now => exact stepped_of_tryRenew hproc (by simpa [step, hproc] using h)
    | markAttempt =>
      simp only [step, hproc, Option.bind_some, State.markAttempt] at h
      split at h
      · next htick =>
        cases h
        exact .ticked hproc (.marked htick)
      · cases h
    | stashKey key => exact stepped_of_stashKey hproc (by simpa [step, hproc] using h)
    | publish leaves => exact stepped_of_publish hproc (by simpa [step, hproc] using h)
    | countFailure =>
      simp only [step, hproc, Option.bind_some, State.countFailure] at h
      split at h
      · cases h
        exact .ticked hproc .counted
      · cases h
    | receive certPem =>
      simp only [step, hproc, Option.bind_some, State.receive] at h
      split at h
      · next hidle =>
        cases h
        exact .handled hproc (.received hidle)
      · cases h
    | readStash ok => exact stepped_of_readStash hproc (by simpa [step, hproc] using h)
    | writeKey ok => exact stepped_of_writeKey hproc (by simpa [step, hproc] using h)
    | writeCert ok => exact stepped_of_writeCert hproc (by simpa [step, hproc] using h)
    | removeStash ok =>
      simp only [step, hproc, Option.bind_some, State.removeStash] at h
      split at h
      · next hpc =>
        cases h
        exact .handled hproc (.stashRemoved hpc)
      · cases h
    | reload => exact stepped_of_reload hproc (by simpa [step, hproc] using h)
    | finish =>
      simp only [step, hproc, Option.bind_some, State.finish] at h
      split at h
      · cases h
        exact .handled hproc (.ended _)
      · cases h

end EdgeGuardian.Agent.Bootstrap
