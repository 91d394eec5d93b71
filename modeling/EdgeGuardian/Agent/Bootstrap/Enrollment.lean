import EdgeGuardian.Agent.Bootstrap.Renewer

/-!
# The enrolment of a device, attempt by attempt

`connectWithIdentityRetry` runs one attempt after the other until the device has an identity. An
attempt generates a key, subscribes to `enroll/response`, publishes a request and waits for fifteen
seconds; what arrives in that time goes into a channel for one response. A response carries nothing
that tells which attempt it answers. The channel is drained before the subscription, and each
attempt has a client with a channel of its own, so that an answer which comes too early is dropped;
one that comes while a later attempt is subscribed is taken for the answer to that one.

Source: `agent/internal/comms/mqtt_client.go`, lines 171–220,
`agent/internal/bootstrap/identity.go`, lines 110–173, `agent/cmd/agent/main.go`, lines 273–390.

## Main definitions

* `Enrollment.Pc`, `Enrollment.State`, `Enrollment.Action`, `Enrollment.step`: the attempts of a
  device, and what arrives on its response topic.
* `Enrollment.Answers`: a response carries a certificate for the request that it answers.
* `Enrollment.AnswersOwn`: a response that an attempt takes answers the request of this attempt.

## Main results

* `Enrollment.paired_of_answersOwn`: in every run in which attempts take only their own answers,
  the key and the certificate belong together whenever `Enroll` returns an identity.
* `Enrollment.mispaired_after_timeout`: a run with a late answer in which they do not.
-/

namespace EdgeGuardian.Agent.Bootstrap.Enrollment

open Transition

/-! ### Messages -/

/-- What `Enroll` sets in `EnrollRequest`; the facts about the host stand beside it unread. -/
structure EnrollRequest where
  enrollmentToken : String
  deviceId : String
  csr : CertificationRequest
  commonName : String
  sans : List String
deriving DecidableEq, Repr

/-- `RegisterResponse`, with `none` for an empty text. -/
structure RegisterResponse where
  accepted : Bool
  message : String
  identityCertPem : Option CertPem
  caCertPem : Option CertPem
deriving DecidableEq, Repr

/-- The certificate that a response carries. -/
def RegisterResponse.certificate (resp : RegisterResponse) : Option X509Certificate :=
  resp.identityCertPem.bind CertPem.parse

/-! ### The attempts -/

/-- Where an attempt is. The second argument is the channel `enrollResponseCh`, where there is a
client that can fill it. -/
inductive Pc
  /-- Between two attempts. -/
  | idle
  /-- The bootstrap client is connected. -/
  | connected
  /-- `PublishEnrollRequest` has subscribed. -/
  | subscribed (key : KeyPair) (channel : Option RegisterResponse)
  /-- The request is published. -/
  | waiting (key : KeyPair) (channel : Option RegisterResponse)
  /-- The response has passed the checks of `Enroll`. -/
  | answered (key : KeyPair) (certPem caPem : CertPem)
  | keyWritten (certPem caPem : CertPem)
  | certWritten (caPem : CertPem)
  | caWritten
  /-- `Enroll` has returned an identity. -/
  | returned
deriving DecidableEq, Repr

/-- A device that enrols: its configuration, its files, and what it has published so far. -/
structure State where
  enrollmentToken : String
  deviceId : String
  files : IdentityFiles
  pc : Pc
  sent : List EnrollRequest
deriving DecidableEq, Repr

/-- The steps of a device. A call that fails has `ok = false`. -/
inductive Action
  /-- `connectWithIdentity` up to the connected bootstrap client. -/
  | connect (ok : Bool)
  /-- `Enroll` up to the subscription; `none` where generating the key or subscribing fails. -/
  | subscribe (key : Option KeyPair)
  /-- The publication; an error may or may not leave the message with the broker. -/
  | publish (ok leaves : Bool)
  /-- A response to the request arrives on the response topic. -/
  | deliver (request : EnrollRequest) (resp : RegisterResponse)
  | receive
  /-- The fifteen seconds are over. -/
  | timeout
  | writeKey (ok : Bool)
  | writeCert (ok : Bool)
  | writeCa (ok : Bool)
  | reload
  /-- `Enroll` has returned, and the bootstrap client is closed. -/
  | finish
  /-- The process ends, and starts again. -/
  | restart
deriving DecidableEq, Repr

namespace State

variable (s : State)

/-- The request of an attempt with this key. -/
def request (key : KeyPair) : EnrollRequest where
  enrollmentToken := s.enrollmentToken
  deviceId := s.deviceId
  csr := createCsr key s.deviceId
  commonName := s.deviceId
  sans := []

/-- A device with an identity connects to the other broker, and one whose files cannot be loaded
tries again. -/
def connect (ok : Bool) : Option State :=
  match s.pc, load s.files with
  | .idle, .ok none => some { s with pc := if ok then .connected else .idle }
  | .idle, _ => some s
  | _, _ => none

/-- The channel of a new client is empty, and so the draining finds nothing. -/
def subscribe (key : Option KeyPair) : Option State :=
  match s.pc, key with
  | .connected, some key =>
    some { s with pc := if s.enrollmentToken = "" then .idle else .subscribed key none }
  | .connected, none => some { s with pc := .idle }
  | _, _ => none

def publish (ok leaves : Bool) : Option State :=
  match s.pc with
  | .subscribed key channel =>
    some { s with
      pc := if ok then .waiting key channel else .idle
      sent := if ok || leaves then s.request key :: s.sent else s.sent }
  | _ => none

/-- `handleEnrollResponse`: the channel takes one response. Without a subscription there is no route
to the handler. -/
def deliver (resp : RegisterResponse) : State :=
  match s.pc with
  | .subscribed key none => { s with pc := .subscribed key (some resp) }
  | .waiting key none => { s with pc := .waiting key (some resp) }
  | _ => s

/-- The checks of `Enroll` on the response. -/
def receive : Option State :=
  match s.pc with
  | .waiting key (some resp) =>
    match resp.accepted, resp.identityCertPem, resp.caCertPem with
    | true, some certPem, some caPem => some { s with pc := .answered key certPem caPem }
    | _, _, _ => some { s with pc := .idle }
  | _ => none

def timeout : Option State :=
  match s.pc with
  | .waiting _ _ => some { s with pc := .idle }
  | _ => none

/-- The first write of `persist`. -/
def writeKey (ok : Bool) : Option State :=
  match s.pc with
  | .answered key certPem caPem =>
    if ok then
      some { s with files := { s.files with key := some key }, pc := .keyWritten certPem caPem }
    else some { s with pc := .idle }
  | _ => none

/-- The second write of `persist`. -/
def writeCert (ok : Bool) : Option State :=
  match s.pc with
  | .keyWritten certPem caPem =>
    if ok then
      some { s with files := { s.files with cert := some certPem }, pc := .certWritten caPem }
    else some { s with pc := .idle }
  | _ => none

/-- The third write of `persist`. -/
def writeCa (ok : Bool) : Option State :=
  match s.pc with
  | .certWritten caPem =>
    if ok then some { s with files := { s.files with ca := some caPem }, pc := .caWritten }
    else some { s with pc := .idle }
  | _ => none

/-- `Load` at the end of `Enroll`. -/
def reload : Option State :=
  match s.pc with
  | .caWritten =>
    match load s.files with
    | .ok (some _) => some { s with pc := .returned }
    | _ => some { s with pc := .idle }
  | _ => none

def finish : Option State :=
  match s.pc with
  | .returned => some { s with pc := .idle }
  | _ => none

end State

/-- One step of a device. -/
def step (s : State) : Action → Option State
  | .connect ok => s.connect ok
  | .subscribe key => s.subscribe key
  | .publish ok leaves => s.publish ok leaves
  | .deliver _ resp => some (s.deliver resp)
  | .receive => s.receive
  | .timeout => s.timeout
  | .writeKey ok => s.writeKey ok
  | .writeCert ok => s.writeCert ok
  | .writeCa ok => s.writeCa ok
  | .reload => s.reload
  | .finish => s.finish
  | .restart => some { s with pc := .idle }

/-! ### Responses -/

/-- The response that the action delivers, with the request that it answers. -/
def Action.response : Action → Option (EnrollRequest × RegisterResponse)
  | .deliver request resp => some (request, resp)
  | _ => none

/-- The key of the attempt that is subscribed and has no response yet. -/
def Pc.awaits : Pc → Option KeyPair
  | .subscribed key none | .waiting key none => some key
  | _ => none

/-- A response answers a request that was sent, and its certificate is for the key of that
request. -/
def Answers (s : State) (a : Action) : Prop :=
  ∀ r ∈ a.response, r.1 ∈ s.sent ∧ ∀ c ∈ r.2.certificate, c.publicKey = r.1.csr.publicKey

/-- A response that arrives while an attempt waits for one answers the request of this attempt. -/
def AnswersOwn (s : State) (a : Action) : Prop :=
  ∀ r ∈ a.response, ∀ key ∈ s.pc.awaits, r.1 = s.request key

instance (s : State) (a : Action) : Decidable (Answers s a) :=
  inferInstanceAs (Decidable (∀ _ ∈ _, _))

instance (s : State) (a : Action) : Decidable (AnswersOwn s a) :=
  inferInstanceAs (Decidable (∀ _ ∈ _, _))

/-! ### The invariant -/

/-- What holds at each point of an attempt: the response in hand is for the key of the attempt, and
so is what has been written of it. -/
def Pc.Inv (files : IdentityFiles) : Pc → Prop
  | .idle | .connected => True
  | .subscribed key channel | .waiting key channel =>
    ∀ resp ∈ channel, ∀ c ∈ resp.certificate, c.publicKey = key
  | .answered key certPem _ => ∀ c ∈ certPem.parse, c.publicKey = key
  | .keyWritten certPem _ => ∀ c ∈ certPem.parse, files.key = some c.publicKey
  | .certWritten _ | .caWritten =>
    ∀ c ∈ files.cert.bind CertPem.parse, files.key = some c.publicKey
  | .returned => files.Paired

/-- What the invariant says of a device. -/
abbrev State.Inv (s : State) : Prop := s.pc.Inv s.files

variable {s t : State} {a : Action}

theorem State.Inv.at_pc {pc : Pc} (h : s.Inv) (hpc : s.pc = pc) : pc.Inv s.files := by
  rw [← hpc]
  exact h

/-- The only step that needs the conditions: a response that is taken for the answer to an attempt
is for its key. -/
theorem State.Inv.deliver {request : EnrollRequest} {resp : RegisterResponse} (h : s.Inv)
    (hanswers : Answers s (.deliver request resp)) (hown : AnswersOwn s (.deliver request resp)) :
    (s.deliver resp).Inv := by
  have hkey : ∀ key ∈ s.pc.awaits, ∀ c ∈ resp.certificate, c.publicKey = key := by
    intro key hawaits c hc
    have hrequest : request = s.request key := hown _ rfl key hawaits
    rw [(hanswers _ rfl).2 c hc, hrequest]
    rfl
  simp only [State.deliver]
  split
  · next key hpc =>
    intro resp' hresp'
    cases hresp'
    exact hkey key (by rw [hpc]; rfl)
  · next key hpc =>
    intro resp' hresp'
    cases hresp'
    exact hkey key (by rw [hpc]; rfl)
  · exact h

theorem State.Inv.connect {ok : Bool} (h : s.Inv) (hstep : s.connect ok = some t) : t.Inv := by
  simp only [State.connect] at hstep
  split at hstep
  · cases hstep
    cases ok <;> trivial
  · cases hstep
    exact h
  · cases hstep

theorem State.Inv.subscribe {key : Option KeyPair} (hstep : s.subscribe key = some t) : t.Inv := by
  simp only [State.subscribe] at hstep
  split at hstep
  · cases hstep
    show Pc.Inv s.files (if s.enrollmentToken = "" then _ else _)
    by_cases htoken : s.enrollmentToken = ""
    · rw [if_pos htoken]
      trivial
    · rw [if_neg htoken]
      intro resp hresp
      cases hresp
  · cases hstep
    trivial
  · cases hstep

theorem State.Inv.publish {ok leaves : Bool} (h : s.Inv) (hstep : s.publish ok leaves = some t) :
    t.Inv := by
  simp only [State.publish] at hstep
  split at hstep
  · next hpc =>
    cases hstep
    cases ok with
    | true =>
      have hchannel := h.at_pc hpc
      exact hchannel
    | false => trivial
  · cases hstep

theorem State.Inv.receive (h : s.Inv) (hstep : s.receive = some t) : t.Inv := by
  simp only [State.receive] at hstep
  split at hstep
  · next key resp hpc =>
    have hchannel := h.at_pc hpc
    split at hstep
    · next certPem caPem _ hcert _ =>
      cases hstep
      intro c hc
      have hresp : resp.certificate = some c := by
        rw [RegisterResponse.certificate, hcert]
        exact hc
      exact hchannel resp rfl c hresp
    · cases hstep
      trivial
  · cases hstep

/-- The writes of `persist` keep the pair together. -/
theorem State.Inv.writeKey {ok : Bool} (h : s.Inv) (hstep : s.writeKey ok = some t) : t.Inv := by
  simp only [State.writeKey] at hstep
  split at hstep
  · next key certPem caPem hpc =>
    have hkey := h.at_pc hpc
    split_ifs at hstep
    · cases hstep
      intro c hc
      show some key = some c.publicKey
      rw [hkey c hc]
    · cases hstep
      trivial
  · cases hstep

theorem State.Inv.writeCert {ok : Bool} (h : s.Inv) (hstep : s.writeCert ok = some t) :
    t.Inv := by
  simp only [State.writeCert] at hstep
  split at hstep
  · next hpc =>
    have hcert := h.at_pc hpc
    split_ifs at hstep
    · cases hstep
      exact hcert
    · cases hstep
      trivial
  · cases hstep

theorem State.Inv.writeCa {ok : Bool} (h : s.Inv) (hstep : s.writeCa ok = some t) : t.Inv := by
  simp only [State.writeCa] at hstep
  split at hstep
  · next hpc =>
    have hcert := h.at_pc hpc
    split_ifs at hstep
    · cases hstep
      exact hcert
    · cases hstep
      trivial
  · cases hstep

theorem State.Inv.reload (h : s.Inv) (hstep : s.reload = some t) : t.Inv := by
  simp only [State.reload] at hstep
  split at hstep
  · next hpc =>
    have hcert := h.at_pc hpc
    split at hstep
    · next id hload =>
      cases hstep
      obtain ⟨hid, -, -⟩ := load_eq_ok_some.mp hload
      exact ⟨id, hid, hcert id (by rw [hid]; rfl)⟩
    · cases hstep
      trivial
  · cases hstep

/-- Every step keeps the invariant, if attempts take only their own answers. -/
theorem State.Inv.step (h : s.Inv) (hok : Answers s a ∧ AnswersOwn s a)
    (hstep : step s a = some t) : t.Inv := by
  cases a with
  | connect ok => exact h.connect hstep
  | subscribe key => exact State.Inv.subscribe hstep
  | publish ok leaves => exact h.publish hstep
  | deliver request resp =>
    cases hstep
    exact h.deliver hok.1 hok.2
  | receive => exact h.receive hstep
  | timeout =>
    simp only [Enrollment.step, State.timeout] at hstep
    split at hstep <;> cases hstep
    trivial
  | writeKey ok => exact h.writeKey hstep
  | writeCert ok => exact h.writeCert hstep
  | writeCa ok => exact h.writeCa hstep
  | reload => exact h.reload hstep
  | finish =>
    simp only [Enrollment.step, State.finish] at hstep
    split at hstep <;> cases hstep
    trivial
  | restart =>
    cases hstep
    trivial

/-- **The pair after an enrolment.** In every run of attempts, restarts and late, repeated or lost
responses in which a waiting attempt is handed only the answer to its own request, the key and the
certificate on disk belong together whenever `Enroll` returns an identity. -/
theorem paired_of_answersOwn (hs : s.pc = .idle)
    (h : Reaches step (fun s a => Answers s a ∧ AnswersOwn s a) s t)
    (hreturned : t.pc = .returned) :
    t.files.Paired := by
  have hinv : t.Inv := by
    refine h.invariant State.Inv (fun h hok hstep => h.step hok hstep) ?_
    rw [State.Inv, hs]
    trivial
  rwa [State.Inv, hreturned] at hinv

/-! ### A late answer -/

namespace LateAnswer

/-- A certificate for the key. -/
def leaf (serial : ℕ) (key : KeyPair) : X509Certificate where
  issuer := 1
  serial := serial
  notBefore := 0
  notAfter := Duration.ofDays 100
  subject := [("CN", "d")]
  publicKey := key
  sans := []
  crlUrl := ""

/-- A device with an enrolment token and no identity. -/
def unenrolled : State where
  enrollmentToken := "egt_1"
  deviceId := "d"
  files := ⟨none, none, none, none⟩
  pc := .idle
  sent := []

/-- The answer to the request of an attempt. -/
def answer (serial : ℕ) (key : KeyPair) : Action :=
  .deliver (unenrolled.request key)
    ⟨true, "Enrollment successful", some (.certificate (leaf serial key)),
      some (.certificate (leaf 0 0))⟩

/-- An attempt up to its published request. -/
def attempt (key : KeyPair) : List Action :=
  [.connect true, .subscribe (some key), .publish true true]

/-- `Enroll` from the response to its return. -/
def store : List Action := [.receive, .writeKey true, .writeCert true, .writeCa true, .reload]

/-- One attempt, with its answer twice. -/
def promptRun : List Action := attempt 10 ++ [answer 1 10, answer 1 10] ++ store

/-- The answer to the first attempt arrives after its time is over, when the second one waits. -/
def lateRun : List Action := attempt 10 ++ [.timeout] ++ attempt 11 ++ [answer 1 10] ++ store

end LateAnswer

open LateAnswer in
/-- An attempt that is answered in time reaches its end, with a pair. -/
theorem paired_after_prompt_answer :
    ∃ t, (unenrolled.pc = .idle ∧
      Reaches step (fun s a => Answers s a ∧ AnswersOwn s a) unenrolled t ∧ t.pc = .returned) ∧
        t.files.Paired := by
  obtain ⟨t, hrun, hreturned⟩ :
      ∃ t ∈ execBy step (fun s a => Answers s a ∧ AnswersOwn s a) unenrolled promptRun,
        t.pc = .returned := by decide +kernel
  have hreaches := reaches_of_execBy hrun
  exact ⟨t, ⟨rfl, hreaches, hreturned⟩, paired_of_answersOwn rfl hreaches hreturned⟩

open LateAnswer in
/-- The certificate of the first of two attempts is stored beside the key of the second one. -/
theorem mispaired_after_timeout :
    ¬ ∀ s t : State, s.pc = .idle → Reaches step Answers s t → t.pc = .returned →
      t.files.Paired := by
  intro h
  obtain ⟨t, hrun, hreturned, hkey, hcert⟩ : ∃ t ∈ execBy step Answers unenrolled lateRun,
      t.pc = .returned ∧ t.files.key = some 11 ∧
        t.files.cert = some (.certificate (leaf 1 10)) := by decide +kernel
  obtain ⟨c, hc, hk⟩ := h unenrolled t rfl (reaches_of_execBy hrun) hreturned
  rw [hcert] at hc
  cases hc
  rw [hkey] at hk
  exact absurd hk (by decide)

end EdgeGuardian.Agent.Bootstrap.Enrollment
