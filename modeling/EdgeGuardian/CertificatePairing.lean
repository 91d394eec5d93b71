import EdgeGuardian.Agent.Plugins.CertificateManager
import EdgeGuardian.IdentityReconnect

/-!
# The key and the certificate of a manifest entry

One certificate of the manifest, the manager on the device that renews it, and the controller that
answers. Requests may be delayed, reordered and delivered more than once, and answers arrive in the
order in which the controller has issued them. A renewal revokes the certificate that it replaces,
so that of several requests for one certificate the controller grants the first and rejects the
others, without an answer. What the manager installs beside the certificate of the answer is the
key that was stashed last: the key of a request that was rejected.

Source: `agent/plugins/certificate/certificate.go`, `agent/cmd/agent/main.go`, lines 171–194,
`controller/src/main/java/com/edgeguardian/controller/mqtt/CertRequestListener.java`,
`controller/src/main/java/com/edgeguardian/controller/service/CertificateService.java`,
`controller/src/main/java/com/edgeguardian/controller/api/CertificateController.java`, lines 50–60.

## Main definitions

* `System`, `step`: the manager, the controller and the answers on their way.
* `Starting`, `InstallsLast`: the first states, and what is asked of the steps.

## Main results

* `paired_of_installsLast`: in every run in which only answers to the last request are installed,
  the key and the certificate belong together whenever `installCert` returns without an error.
* `mispaired_after_second_cycle`: a run with two cycles in the renewal window in which they do not.
-/

namespace EdgeGuardian.ManifestCertificate

open Agent.Bootstrap (CertRequestMessage identityCertName)
open Agent.Plugins (CertificateSpec Paired AnswersLast Inv)
open Agent Controller Transition Reconnect

/-! ### The system -/

/-- The manager of one certificate, the controller, and its answers in the order of their issue. -/
structure System where
  agent : Plugins.State
  db : Db
  responses : List CertResponsePayload

/-- The steps of the system. -/
inductive Action
  /-- A step of a reconcile cycle. -/
  | cycle (a : Plugins.Action)
  /-- A request reaches the controller. -/
  | request (env : Env) (m : CertRequestMessage)
  /-- An administrator approves a pending request. -/
  | approve (env : Env) (requestId : ℕ) (orgId : OrganizationId) (userId : Option UserId)
  /-- The next answer reaches the handler; the store may fail. -/
  | respond (ok : Bool)

/-- What the handler of `cert/response` does with an answer. -/
def handleCertResponse (spec : CertificateSpec) (agent : Plugins.State) (ok : Bool)
    (body : CertResponsePayload) : Option Plugins.State :=
  -- The renewer takes what is named like the identity.
  if body.accepted ∧ body.name = some spec.name ∧ spec.name ≠ identityCertName then
    Plugins.step spec agent (.saveMeta (certPemBytes body) ok)
  else some agent

/-- One step of the system. -/
def step (d : Deployment) (spec : CertificateSpec) (s : System) : Action → Option System
  | .cycle (.saveMeta _ _) => none
  | .cycle a => (Plugins.step spec s.agent a).map fun agent => { s with agent := agent }
  | .request env m =>
    if m ∈ s.agent.sent then
      let out := onCertRequest d.ctx env d.requestTopic (d.payload m) s.db
      some { s with db := out.1, responses := s.responses ++ d.answers out.2 }
    else none
  | .approve env requestId orgId userId =>
    match (Controller.approve d.ctx.toPkiContext env requestId orgId userId).run s.db with
    | .error _ => some s
    | .ok (cert, db) =>
      some { s with
        db := db
        responses := s.responses ++ d.answers (publishResponse cert.deviceId
          ⟨cert.name, true, "Certificate issued", cert.certPem, d.ctx.caCertPem orgId⟩) }
  | .respond ok =>
    match s.responses with
    | [] => none
    | body :: rest =>
      (handleCertResponse spec s.agent ok body).map fun agent =>
        { s with agent := agent, responses := rest }

/-- The manager has made no request, and there is neither an answer nor a stashed key. -/
structure Starting (spec : CertificateSpec) (s : System) : Prop where
  idle : s.agent.pc = .idle
  noPending : s.agent.pending = none
  noStash : s.agent.files spec.newKeyPath = none
  noAttempts : s.agent.attempts = []
  noRequests : s.agent.sent = []
  noResponses : s.responses = []

/-- The controller reads from a request the key for which it was made. -/
def ReadsKeys (d : Deployment) : Prop :=
  ∀ csr, ∃ read, d.ctx.parseCsr (d.encodeCsr csr) = some read ∧ read.publicKey = csr.publicKey

/-- A cycle that begins with an answer in the store finds one to the last request, and a stashed key
only if that was a renewal. -/
def InstallsLast (spec : CertificateSpec) (s : System) : Action → Prop
  | .cycle a => AnswersLast spec s.agent a
  | _ => True

instance (spec : CertificateSpec) (s : System) : ∀ a, Decidable (InstallsLast spec s a)
  | .cycle a => inferInstanceAs (Decidable (AnswersLast spec s.agent a))
  | .request _ _ | .approve _ _ _ _ | .respond _ => inferInstanceAs (Decidable True)

/-! ### Runs -/

variable {d : Deployment} {spec : CertificateSpec} {s t : System} {a : Action}

theorem Starting.inv (h : Starting spec s) : Inv spec s.agent where
  last last hlast := by
    rw [h.noAttempts] at hlast
    cases hlast
  pc := by
    rw [h.idle]
    trivial

/-- An answer changes the store only, and the controller nothing on the device. -/
theorem inv_of_step (hspec : spec.Separate) (h : Inv spec s.agent) (hok : InstallsLast spec s a)
    (hstep : step d spec s a = some t) : Inv spec t.agent := by
  cases a with
  | cycle a =>
    have hagent : ∃ agent, Plugins.step spec s.agent a = some agent ∧
        { s with agent := agent } = t := by
      cases a with
      | saveMeta _ _ => cases hstep
      | getMeta _ | check _ | swapKey _ | writeCert _ | clearMeta _ =>
        exact Option.map_eq_some_iff.mp hstep
    obtain ⟨agent, hagent, rfl⟩ := hagent
    exact h.step hspec hok hagent
  | request env m =>
    simp only [step] at hstep
    split_ifs at hstep
    cases hstep
    exact h
  | approve env requestId orgId userId =>
    simp only [step] at hstep
    split at hstep <;> cases hstep <;> exact h
  | respond ok =>
    simp only [step] at hstep
    split at hstep
    · cases hstep
    · obtain ⟨agent, hagent, rfl⟩ := Option.map_eq_some_iff.mp hstep
      rw [handleCertResponse] at hagent
      split_ifs at hagent
      · exact h.step hspec (fun hbegins => by cases hbegins) hagent
      · cases hagent
        exact h

/-- **The pair after an installation.** In every run of reconcile cycles, requests, approvals and
answers in which a cycle installs only an answer to the last request, with a stashed key only if
that was a renewal, the key and the certificate belong together whenever `installCert` returns
without an error. -/
theorem paired_of_installsLast (hspec : spec.Separate) (hs : Starting spec s)
    (h : Reaches (step d spec) (InstallsLast spec) s t) (hinstalled : t.agent.pc = .installed) :
    Paired spec t.agent.files := by
  have hinv : Inv spec t.agent :=
    h.invariant (fun s => Inv spec s.agent)
      (fun h hok hstep => inv_of_step hspec h hok hstep) hs.inv
  exact hinv.at_pc hinstalled

/-! ### Two cycles in the renewal window -/

namespace TwoCycles

/-- The certificate of a web server on the device. -/
def web : CertificateSpec where
  name := "web"
  commonName := "d"
  sans := []
  certPath := "web.crt"
  keyPath := "web.key"
  keyAlgo := ""

theorem separate_web : web.Separate := by
  constructor <;> decide

theorem readsKeys_site : ReadsKeys Renewal.site := by
  intro csr
  exact ⟨⟨[("CN", "d")], csr.publicKey⟩, by simp [Renewal.site], rfl⟩

/-- The controller has issued the first certificate. -/
def start : System where
  agent :=
    { files := Function.update (Function.update (fun _ => none) "web.key" (some (.privateKey 1)))
        "web.crt" (some (.certificate Renewal.first))
      pending := none
      pc := .idle
      sent := []
      attempts := [] }
  db := (onCertRequest Renewal.site.ctx ⟨0, 5, ""⟩ Renewal.site.requestTopic
    (some ⟨some "d", some "web", some "d", none, some "k", some "manifest", none⟩)
    (register ⟨0, 0, ""⟩ 1 "d" ⟨none, none, none, none, none⟩ (Db.empty .empty)).2).1
  responses := []

theorem starting_start : Starting web start := by
  constructor <;> rfl

/-- A cycle on a day of the renewal window, with the key that it generates. -/
def cycle (day : ℕ) (key : KeyPair) : List Action :=
  [.cycle (.getMeta true), .cycle (.check ⟨Duration.ofDays day, 0, key, true, true, true⟩)]

/-- The controller handles the request of such a cycle. -/
def handle (day : ℕ) (key : KeyPair) : Action :=
  .request ⟨Duration.ofDays day, 6, ""⟩
    (Plugins.certRequest web key "renewal" Renewal.first.serialHex)

/-- The cycle that installs the answer. -/
def install : List Action :=
  [.respond true, .cycle (.getMeta true), .cycle (.swapKey true), .cycle (.writeCert true)]

end TwoCycles

open TwoCycles in
/-- A renewal that is answered before the next cycle reaches its end, with a pair. -/
theorem paired_after_one_cycle :
    ∃ t, (web.Separate ∧ Starting web start ∧
      Reaches (step Renewal.site web) (InstallsLast web) start t ∧ t.agent.pc = .installed) ∧
        Paired web t.agent.files := by
  obtain ⟨t, hreach, hinstalled⟩ :
      ∃ t, Reaches (step Renewal.site web) (InstallsLast web) start t ∧
        t.agent.pc = .installed :=
    exists_reaches_of_execBy (cycle 340 2 ++ [handle 340 2] ++ install) (by decide +kernel)
  exact ⟨t, ⟨separate_web, starting_start, hreach, hinstalled⟩,
    paired_of_installsLast separate_web starting_start hreach hinstalled⟩

open TwoCycles in
/-- The controller grants the first of two renewals and rejects the second, and the certificate of
the first is installed beside the key of the second. -/
theorem mispaired_after_second_cycle :
    ¬ ∀ (d : Deployment) (spec : CertificateSpec) (s t : System), ReadsKeys d → spec.Separate →
      Starting spec s → Reachable (step d spec) s t → t.agent.pc = .installed →
        Paired spec t.agent.files := by
  intro h
  obtain ⟨t, hreach, hinstalled, hkey, hcert⟩ :
      ∃ t, Reachable (step Renewal.site web) start t ∧ t.agent.pc = .installed ∧
        t.agent.files "web.key" = some (.privateKey 3) ∧
        t.agent.files "web.crt" =
          some (.certificate (Renewal.leaf 6 2 (Duration.ofDays 340))) :=
    exists_reaches_of_execBy
      (cycle 340 2 ++ cycle 340 3 ++ [handle 340 2, handle 340 3] ++ install) (by decide +kernel)
  obtain ⟨c, hc, hk⟩ :=
    h Renewal.site web start t readsKeys_site separate_web starting_start hreach hinstalled
  cases hcert.symm.trans hc
  cases hkey.symm.trans hk

end EdgeGuardian.ManifestCertificate
