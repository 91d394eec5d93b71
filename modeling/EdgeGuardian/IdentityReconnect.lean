import EdgeGuardian.Agent.Bootstrap.Process
import EdgeGuardian.Controller.CrlCompleteness
import EdgeGuardian.Controller.Listeners

/-!
# Reconnecting after a renewal

One agent process, its MQTT client and the controller. A renewal that the controller grants revokes
the certificate that the agent has, and the controller leaves the connection open because the agent
will reconnect with the new certificate. The renewer writes that certificate to `identity.crt`, but
the MQTT client keeps the key pair that was loaded when it was built, and every later handshake
presents that one: the certificate which the renewal has revoked.

Requests and responses may be delayed, reordered and delivered more than once. A handshake is an
attempt, whether or not the broker accepts it.

Source: `agent/internal/comms/tls_config.go`, lines 24–57, `agent/internal/comms/mqtt_client.go`,
lines 53–93 and 444–475, `agent/cmd/agent/main.go`, lines 154–194,
`controller/src/main/java/com/edgeguardian/controller/service/CertificateService.java`,
lines 93–134.

## Main definitions

* `Link`, `step`: the agent, the controller, the messages between them and the connection.
* `presented`: the certificate of a handshake.
* `Started`: the process has just started.

## Main results

* `handshake_presents_revoked`: after a renewal, no handshake presents the certificate on disk, and
  every one presents the certificate that the renewal has revoked.
* `handshake_after_renewal`: a run with such a handshake.
-/

namespace EdgeGuardian.Reconnect

open Agent.Bootstrap (CertRequestMessage Proc renewalRequest identityCertName Stored Serves
  Unrenewed tls_of_step sent_of_step serves_of_step)
open Agent Controller Transition

/-! ### The system -/

/-- What is configured: the controller, the PEM encoding of requests, and the device. -/
structure Deployment where
  ctx : Context
  /-- `pem.EncodeToMemory` of a request. -/
  encodeCsr : CertificationRequest → String
  topicRoot : String
  deviceId : String

/-- The topic on which the agent publishes its requests. -/
def Deployment.requestTopic (d : Deployment) : Topic :=
  [d.topicRoot, "device", d.deviceId, "cert", "request"]

/-- The body that `PublishCertRequest` marshals; a `nil` slice becomes `null`. -/
def Deployment.payload (d : Deployment) (m : CertRequestMessage) : CertRequestPayload where
  deviceId := some d.deviceId
  name := some m.name
  commonName := some m.commonName
  sans := if m.sans = [] then none else some m.sans
  csrPem := some (d.encodeCsr m.csr)
  type := some m.reqType
  currentSerial := some m.currentSerial

/-- The answers on the `cert/response` topic of the device. -/
def Deployment.answers (d : Deployment) (out : List Outgoing) : List CertResponsePayload :=
  out.filterMap fun
    | .certResponse deviceId body => if deviceId = d.deviceId then some body else none
    | _ => none

/-- The bytes that `handleCertResponse` hands on. -/
def certPemBytes (body : CertResponsePayload) : CertPem :=
  body.certPem.elim (.malformed []) .certificate

/-- The agent and the controller. -/
structure Link where
  agent : Bootstrap.State
  db : Db
  /-- What the controller has answered. -/
  responses : List CertResponsePayload
  connected : Bool
  /-- `HandleRenewalResponse` has returned without an error. -/
  renewed : Bool

/-- The system after a step of the agent. -/
def Link.withAgent (s : Link) (agent : Bootstrap.State) : Link :=
  { s with
    agent := agent
    renewed := s.renewed || agent.proc.any fun p => p.handler = .returned }

/-- The steps of the system. -/
inductive Action
  /-- A step inside of the agent. -/
  | agent (a : Bootstrap.Action)
  /-- A request reaches the controller. -/
  | request (env : Env) (m : CertRequestMessage)
  /-- A response reaches the agent. -/
  | respond (body : CertResponsePayload)
  | connectionLost
  /-- The client connects, or reconnects by itself. -/
  | handshake (accepted : Bool)

/-- One step of the system. The process is not started again. -/
def step (d : Deployment) (s : Link) : Action → Option Link
  | .agent a =>
    if a = .start ∨ a.response.isSome then none
    else (Bootstrap.step s.agent a).map s.withAgent
  | .request env m =>
    if m ∈ s.agent.sent then
      let out := onCertRequest d.ctx env d.requestTopic (d.payload m) s.db
      some { s with db := out.1, responses := s.responses ++ d.answers out.2 }
    else none
  | .respond body =>
    if body ∈ s.responses ∧ s.connected ∧ body.accepted ∧ body.name = some identityCertName then
      (Bootstrap.step s.agent (.receive (certPemBytes body))).map s.withAgent
    else none
  | .connectionLost => if s.connected then some { s with connected := false } else none
  | .handshake accepted =>
    if ¬ s.connected ∧ s.agent.proc.isSome then some { s with connected := accepted } else none

/-- The certificate that a handshake presents: the one in the `tls.Config` of the client. -/
def presented (s : Link) : Option X509Certificate := s.agent.proc.map Proc.tls

/-- A handshake presents the certificate at `identity.crt`. -/
def PresentsStored (s : Link) : Prop :=
  ∃ c, presented s = some c ∧ s.agent.files.cert = some (.certificate c)

/-- The certificate was revoked by a renewal. -/
def RevokedByRenewal (db : Db) (c : X509Certificate) : Prop :=
  ∃ row ∈ db.certificates.rows, row.certPem = c ∧ row.revoked ∧ row.revokeReason = some .renewed

/-! ### The row of a certificate -/

section Rows

variable {pki : PkiContext} {env : Env} {db : Db}

theorem findBySerialNumber_issue {request : CertificateRequest} {leaf : X509Certificate}
    {serial : String} {row : IssuedCertificate} (h : findBySerialNumber db serial = some row) :
    findBySerialNumber (issue env request leaf db) serial = some row := by
  show List.find? _ (db.certificates.rows ++ _) = _
  rw [List.find?_append, show List.find? _ db.certificates.rows = _ from h]
  rfl

/-- A row after the certificate with the number `currentId` has been replaced. -/
def replacedAt (env : Env) (currentId newId : ℕ) (c : IssuedCertificate) : IssuedCertificate :=
  if c.id = currentId then c.replaced env newId else c

theorem findBySerialNumber_replaceCert {orgId : OrganizationId} {currentId newId : ℕ}
    {serial : String} : findBySerialNumber (replaceCert pki env orgId currentId newId db) serial =
      (findBySerialNumber db serial).map (replacedAt env currentId newId) := by
  show List.find? _ (Table.modifyRows _ _ (Table.modifyRows _ _ db.certificates.rows)) = _
  rw [Table.find?_modifyRows, Table.find?_modifyRows, Option.map_map]
  · refine congrArg (fun f => Option.map f _) ?_
    funext c
    by_cases hid : c.id = currentId
    · simp [replacedAt, IssuedCertificate.replaced, IssuedCertificate.markedRevoked, hid]
    · simp [replacedAt, hid]
  · intro _
    rfl
  · intro _
    rfl

theorem inCrl_replaceCert {orgId : OrganizationId} {currentId newId : ℕ} {row : IssuedCertificate}
    (hrow : row ∈ (replaceCert pki env orgId currentId newId db).certificates.rows)
    (horg : row.organizationId = orgId) (hrevoked : row.revoked) :
    InCrl (replaceCert pki env orgId currentId newId db) orgId row.serialNumber := by
  rw [← listed_ledger_iff]
  rw [replaceCert, ledger_rebuild, Ledger.listed_publish_self]
  exact ⟨row, hrow, horg, hrevoked, rfl⟩

end Rows

/-! ### The invariant -/

/-- The bytes are a certificate with another serial number. -/
def Fresh (c : X509Certificate) (pem : CertPem) : Prop :=
  ∃ c', pem = .certificate c' ∧ c'.serial ≠ c.serial

/-- The row that the controller finds by the serial number of the certificate is its row. -/
structure RowOf (db : Db) (c : X509Certificate) (row : IssuedCertificate) : Prop where
  found : findBySerialNumber db c.serialHex = some row
  certPem : row.certPem = c
  serial : row.serialNumber = c.serial

/-- The request renews `c`, or a certificate that is revoked already. -/
def Renews (db : Db) (c : X509Certificate) (m : CertRequestMessage) : Prop :=
  ∃ id key, m = renewalRequest id key ∧
    (id.serialHex = c.serialHex ∨
      ∃ row, findBySerialNumber db id.serialHex = some row ∧ row.revoked)

/-- Once a renewal has replaced it, the row of the certificate is revoked, and it is on the list of its
organization if that is the one of the device. -/
structure After (d : Deployment) (db : Db) (row : IssuedCertificate) : Prop where
  revoked : row.revoked
  reason : row.revokeReason = some .renewed
  inCrl : ∀ device, db.devices.find? d.deviceId = some device →
    row.organizationId = device.organizationId → InCrl db row.organizationId row.serialNumber

/-- The process has just started with the certificate `c`, which the controller knows. Requests of
earlier processes may still be on their way, and so may the answers to them: one that grants a
renewal brings the certificate by which `c` was replaced. The answer that brought `c` itself has
been delivered as often as it will be. -/
structure Started (d : Deployment) (c : X509Certificate) (s : Link) : Prop where
  start : ∃ before, Bootstrap.step before .start = some s.agent
  cert : s.agent.files.cert = some (.certificate c)
  sent : ∀ m ∈ s.agent.sent, Renews s.db c m
  row : ∃ row, RowOf s.db c row ∧
    ∀ body ∈ s.responses, body.accepted → Fresh c (certPemBytes body) ∧ After d s.db row
  renewed : s.renewed = false

/-- Before the first renewal in this process. -/
structure Before (c : X509Certificate) (s : Link) : Prop where
  renewed : s.renewed = false
  answers : ∀ body ∈ s.responses, body.accepted = false
  agent : Unrenewed c s.agent
  sent : ∀ m ∈ s.agent.sent, Renews s.db c m

/-- The client has the key pair of `c`, every other certificate in the system is another one, and
none is there before `c` is revoked. -/
structure Inv (d : Deployment) (c : X509Certificate) (s : Link) : Prop where
  tls : ∀ p, s.agent.proc = some p → p.tls = c
  serves : ∀ p, s.agent.proc = some p → Serves (Fresh c) s.agent.files p.handler
  stored : s.renewed → Stored (Fresh c) s.agent.files
  sent : ∀ m ∈ s.agent.sent, ∃ id key, m = renewalRequest id key
  answers : ∀ body ∈ s.responses, body.accepted → Fresh c (certPemBytes body)
  row : ∃ row, RowOf s.db c row ∧ (Before c s ∨ After d s.db row)

variable {d : Deployment} {c : X509Certificate} {s t : Link}

theorem Started.wired (h : Started d c s) : s.agent.proc = some (.wired c c) := by
  obtain ⟨before, hstart⟩ := h.start
  have hcert := h.cert
  simp only [Bootstrap.step, Bootstrap.State.start] at hstart
  split at hstart
  · next id tls hproc hload htls =>
    rw [← Option.some.inj hstart] at hcert ⊢
    have hid := (Bootstrap.load_eq_ok_some.mp hload).1
    have htls := (Bootstrap.buildTls_eq_some htls).1
    have hcert : before.files.cert = some (.certificate c) := hcert
    rw [hcert] at hid htls
    cases hid
    cases htls
    rfl
  · cases hstart

theorem Started.inv (h : Started d c s) : Inv d c s := by
  have hproc := h.wired
  obtain ⟨row, hrow, hanswers⟩ := h.row
  have hunrenewed : Unrenewed c s.agent := by
    intro p hp
    cases hproc.symm.trans hp
    exact ⟨rfl, fun _ h => (nomatch h), rfl⟩
  have hcases : Before c s ∨ After d s.db row := by
    by_cases hsome : ∃ body ∈ s.responses, body.accepted
    · obtain ⟨body, hbody, ha⟩ := hsome
      exact .inr (hanswers body hbody ha).2
    · refine .inl ⟨h.renewed, fun body hbody => ?_, hunrenewed, h.sent⟩
      exact eq_false_of_ne_true fun ha => hsome ⟨body, hbody, ha⟩
  refine ⟨fun p hp => ?_, fun p hp => ?_, fun hr => ?_, fun m hm => ?_, fun body hbody ha => ?_,
    row, hrow, hcases⟩
  · cases hproc.symm.trans hp
    rfl
  · cases hproc.symm.trans hp
    trivial
  · rw [h.renewed] at hr
    cases hr
  · obtain ⟨id, key, hm, -⟩ := h.sent m hm
    exact ⟨id, key, hm⟩
  · exact (hanswers body hbody ha).1

/-! ### Steps of the agent -/

/-- A step of the agent keeps what holds before the first renewal. -/
theorem Before.withAgent {a : Bootstrap.Action} {agent : Bootstrap.State} (h : Before c s)
    (hstart : a ≠ .start) (ha : a.response = none) (hstep : Bootstrap.step s.agent a = some agent) :
    Before c (s.withAgent agent) := by
  have hagent := h.agent.step hstart ha hstep
  refine ⟨?_, h.answers, hagent, fun m hm => ?_⟩
  · rw [Link.withAgent, h.renewed, Bool.false_or, Option.any_eq_false]
    intro p hp
    rw [(hagent p hp).2.2]
    rfl
  · rcases sent_of_step hstep m hm with hm | ⟨p, id, key, hproc, htick, rfl⟩
    · exact h.sent m hm
    · have hid : id = c := (h.agent p hproc).2.1 id (by rw [htick]; rfl)
      exact ⟨id, key, rfl, .inl (by rw [hid])⟩

theorem Inv.withAgent {a : Bootstrap.Action} {agent : Bootstrap.State} (h : Inv d c s)
    (hstart : a ≠ .start) (hresponse : ∀ pem ∈ a.response, Fresh c pem)
    (hbefore : Before c s → a.response = none) (hstep : Bootstrap.step s.agent a = some agent) :
    Inv d c (s.withAgent agent) := by
  obtain ⟨hserves, hstored⟩ := serves_of_step hresponse hstep h.serves
  obtain ⟨row, hrow, hcases⟩ := h.row
  refine ⟨fun q hq => ?_, hserves, fun hr => ?_, fun m hm => ?_, h.answers, row, hrow, ?_⟩
  · obtain ⟨p, hp, htls⟩ := tls_of_step hstart hstep q hq
    rw [htls, h.tls p hp]
  · rcases Bool.or_eq_true_iff.mp hr with hr | hr
    · exact hstored (h.stored hr)
    · obtain ⟨p, hp, hpc⟩ := (Option.any_eq_true _ _).mp hr
      have hserved := hserves p hp
      rwa [of_decide_eq_true hpc] at hserved
  · rcases sent_of_step hstep m hm with hm | ⟨p, id, key, -, -, rfl⟩
    · exact h.sent m hm
    · exact ⟨id, key, rfl⟩
  · rcases hcases with hb | ha
    · exact .inl (hb.withAgent hstart (hbefore hb) hstep)
    · exact .inr ha

/-! ### Requests at the controller -/

theorem mem_answers {out : List Outgoing} {body : CertResponsePayload} (h : body ∈ d.answers out) :
    .certResponse d.deviceId body ∈ out := by
  obtain ⟨o, ho, hbody⟩ := List.mem_filterMap.mp h
  split at hbody
  · next deviceId body' =>
    split_ifs at hbody with hid
    cases hbody
    rwa [hid] at ho
  · cases hbody

theorem resolvedId_payload (d : Deployment) (m : CertRequestMessage) :
    (d.payload m).resolvedId d.requestTopic = some d.deviceId := by
  rw [CertRequestPayload.resolvedId]
  split_ifs <;> rfl

theorem type_args_renewalRequest (d : Deployment) (id : X509Certificate) (key : KeyPair)
    (device : Device) : ((d.payload (renewalRequest id key)).args device).type = .renewal := by
  show parseType (some "RENEWAL") = .renewal
  decide +kernel

/-- A request for `c` or for a revoked certificate is granted only if it is for `c`. -/
theorem RowOf.eq_of_currentCert {row current : IssuedCertificate} {q : CertRequestArgs}
    {id : X509Certificate} (hrow : RowOf s.db c row) (hq : q.currentSerial = some id.serialHex)
    (hid : id.serialHex = c.serialHex ∨
      ∃ row, findBySerialNumber s.db id.serialHex = some row ∧ row.revoked)
    (hcurrent : currentCert s.db q = some current) : current = row := by
  obtain ⟨hfound, howned⟩ := Option.filter_eq_some_iff.mp hcurrent
  rw [hq, Option.bind_some] at hfound
  have hactive : current.revoked = false := (of_decide_eq_true howned).1
  rcases hid with hid | ⟨row', hrow', hrevoked⟩
  · rw [hid, hrow.found] at hfound
    exact (Option.some.inj hfound).symm
  · cases hrow'.symm.trans hfound
    rw [hactive] at hrevoked
    cases hrevoked

/-- The row of `c` after a renewal of `c` or of another certificate. -/
theorem RowOf.replaced {pki : PkiContext} {env : Env} {db : Db} {row : IssuedCertificate}
    {request : CertificateRequest} {leaf : X509Certificate} {orgId : OrganizationId}
    {currentId newId : ℕ} (h : RowOf db c row) :
    RowOf (replaceCert pki env orgId currentId newId (issue env request leaf db)) c
      (replacedAt env currentId newId row) := by
  refine ⟨?_, ?_, ?_⟩
  · rw [findBySerialNumber_replaceCert, findBySerialNumber_issue h.found]
    rfl
  · rw [replacedAt]
    split_ifs
    · exact h.certPem
    · exact h.certPem
  · rw [replacedAt]
    split_ifs
    · exact h.serial
    · exact h.serial

/-- Once a renewal is granted, `c` is revoked: either it is the one renewed, or it was before. -/
theorem After.replaced {pki : PkiContext} {env : Env} {db : Db} {row : IssuedCertificate}
    {device : Device} {request : CertificateRequest} {leaf : X509Certificate} {currentId newId : ℕ}
    (hrow : RowOf db c row) (hdevice : db.devices.find? d.deviceId = some device)
    (h : row.id = currentId ∨ After d db row) :
    After d (replaceCert pki env device.organizationId currentId newId (issue env request leaf db))
      (replacedAt env currentId newId row) := by
  have hrevoked : (replacedAt env currentId newId row).revoked ∧
      (replacedAt env currentId newId row).revokeReason = some .renewed := by
    rw [replacedAt]
    split_ifs with hid
    · exact ⟨rfl, rfl⟩
    · have hafter := h.resolve_left hid
      exact ⟨hafter.revoked, hafter.reason⟩
  refine ⟨hrevoked.1, hrevoked.2, fun device' hdevice' horg => ?_⟩
  cases hdevice.symm.trans hdevice'
  rw [horg]
  exact inCrl_replaceCert (List.mem_of_find?_eq_some hrow.replaced.found) horg hrevoked.1

/-- What the controller makes of a renewal request: it refuses it and touches no certificate, or it
renews a certificate with the serial number of the request. -/
theorem request_cases (d : Deployment) (env : Env) (id : X509Certificate) (key : KeyPair)
    (db : Db) :
    let out := onCertRequest d.ctx env d.requestTopic (d.payload (renewalRequest id key)) db
    ((∀ body ∈ d.answers out.2, body.accepted = false) ∧ out.1.certificates = db.certificates ∧
        out.1.crls = db.crls ∧ out.1.devices = db.devices) ∨
      ∃ device q texts request leaf current newId, db.devices.find? d.deviceId = some device ∧
        q.currentSerial = some id.serialHex ∧ currentCert db q = some current ∧
        SerialUnused db leaf.serial ∧
        out.1 = replaceCert d.ctx.toPkiContext env device.organizationId current.id newId
          (issue env request leaf (insertRequest env q texts q.currentSerial db)) ∧
        ∀ body ∈ d.answers out.2, certPemBytes body = .certificate leaf := by
  intro out
  rcases onCertRequest_cases d.ctx env d.requestTopic (d.payload (renewalRequest id key)) db with
    ⟨hdb, hout⟩ | ⟨request, deviceId, device, result, hpayload, hid, hdevice, hprocessed, hout⟩
  · refine .inl ⟨fun body hbody => ?_, by rw [hdb], by rw [hdb], by rw [hdb]⟩
    obtain ⟨_, _, ho, haccepted⟩ := hout _ (mem_answers hbody)
    cases ho
    exact haccepted
  · cases hpayload
    cases (resolvedId_payload d _).symm.trans hid
    have htype := type_args_renewalRequest d id key device
    have hanswer (body : CertResponsePayload) (hbody : body ∈ d.answers out.2) : ∃ cert,
        result.certificate = some cert ∧ certPemBytes body = .certificate cert.certPem := by
      obtain ⟨cert, hcert, ho⟩ := hout _ (mem_answers hbody)
      cases ho
      exact ⟨cert, hcert, rfl⟩
    generalize hdb : out.1 = db'
    rw [show (onCertRequest _ _ _ _ _).1 = db' from hdb] at hprocessed
    cases hprocessed with
    | pending hinitial _ _ =>
      rw [htype] at hinitial
      cases hinitial
    | issued hmanifest _ _ _ _ =>
      rw [htype] at hmanifest
      cases hmanifest
    | rejected _ _ _ _ _ =>
      refine .inl ⟨fun body hbody => ?_, rfl, rfl, rfl⟩
      obtain ⟨cert, hcert, -⟩ := hanswer body hbody
      cases hcert
    | @renewed texts leaf current _ _ _ _ howned _ hserial =>
      refine .inr ⟨device, _, texts, _, leaf, current, _, hdevice, rfl, howned, hserial, rfl,
        fun body hbody => ?_⟩
      obtain ⟨cert, hcert, hbody⟩ := hanswer body hbody
      cases hcert
      exact hbody

/-- A refusal keeps the invariant. -/
theorem Inv.refused {db : Db} {bodies : List CertResponsePayload} (h : Inv d c s)
    (hrefused : ∀ body ∈ bodies, body.accepted = false)
    (hcertificates : db.certificates = s.db.certificates) (hcrls : db.crls = s.db.crls)
    (hdevices : db.devices = s.db.devices) :
    Inv d c { s with db := db, responses := s.responses ++ bodies } := by
  obtain ⟨row, hrow, hcases⟩ := h.row
  have hfind (serial : String) : findBySerialNumber db serial = findBySerialNumber s.db serial := by
    rw [findBySerialNumber, hcertificates]
    rfl
  refine ⟨h.tls, h.serves, h.stored, h.sent, fun body hbody haccepted => ?_, row,
    ⟨(hfind _).trans hrow.found, hrow.certPem, hrow.serial⟩, ?_⟩
  · rcases List.mem_append.mp hbody with hbody | hbody
    · exact h.answers body hbody haccepted
    · rw [hrefused body hbody] at haccepted
      cases haccepted
  · rcases hcases with hb | ha
    · refine .inl ⟨hb.renewed, fun body hbody => ?_, hb.agent, fun m hm => ?_⟩
      · exact (List.mem_append.mp hbody).elim (hb.answers body) (hrefused body)
      · obtain ⟨id, key, hm, hid⟩ := hb.sent m hm
        refine ⟨id, key, hm, ?_⟩
        rwa [hfind]
    · refine .inr ⟨ha.revoked, ha.reason, fun device hdevice horg => ?_⟩
      rw [show db.devices = _ from hdevices] at hdevice
      rw [InCrl, show db.crls = _ from hcrls]
      exact ha.inCrl device hdevice horg

/-- A renewal that is granted keeps the invariant: it revokes `c`, unless `c` was revoked before. -/
theorem Inv.granted {pki : PkiContext} {env : Env} {bodies : List CertResponsePayload}
    {id : X509Certificate} {key : KeyPair} {device : Device} {q : CertRequestArgs}
    {texts : RequestTexts} {request : CertificateRequest} {leaf : X509Certificate}
    {current : IssuedCertificate} {newId : ℕ} (h : Inv d c s)
    (hm : renewalRequest id key ∈ s.agent.sent)
    (hdevice : s.db.devices.find? d.deviceId = some device)
    (hq : q.currentSerial = some id.serialHex) (hcurrent : currentCert s.db q = some current)
    (hserial : SerialUnused s.db leaf.serial)
    (hbodies : ∀ body ∈ bodies, certPemBytes body = .certificate leaf) :
    Inv d c { s with
      db := replaceCert pki env device.organizationId current.id newId
        (issue env request leaf (insertRequest env q texts q.currentSerial s.db))
      responses := s.responses ++ bodies } := by
  obtain ⟨row, hrow, hcases⟩ := h.row
  have hfresh : leaf.serial ≠ c.serial := by
    rw [← hrow.serial]
    exact (hserial row (List.mem_of_find?_eq_some hrow.found)).symm
  have hrow' : RowOf (insertRequest env q texts q.currentSerial s.db) c row :=
    ⟨hrow.found, hrow.certPem, hrow.serial⟩
  have hrevoked : row.id = current.id ∨
      After d (insertRequest env q texts q.currentSerial s.db) row := by
    rcases hcases with hb | ha
    -- Before the first renewal, a request that is granted can only be one for `c`.
    · obtain ⟨id', _, hm, hid⟩ := hb.sent _ hm
      have hsame : id.serialHex = id'.serialHex := congrArg CertRequestMessage.currentSerial hm
      rw [← hsame] at hid
      rw [hrow.eq_of_currentCert hq hid hcurrent]
      exact .inl rfl
    · exact .inr ⟨ha.revoked, ha.reason, ha.inCrl⟩
  refine ⟨h.tls, h.serves, h.stored, h.sent, fun body hbody haccepted => ?_,
    replacedAt env current.id newId row, hrow'.replaced,
    .inr (After.replaced hrow' hdevice hrevoked)⟩
  rcases List.mem_append.mp hbody with hbody | hbody
  · exact h.answers body hbody haccepted
  · exact ⟨leaf, hbodies body hbody, hfresh⟩

theorem Inv.request {env : Env} {m : CertRequestMessage} (h : Inv d c s) (hm : m ∈ s.agent.sent) :
    let out := onCertRequest d.ctx env d.requestTopic (d.payload m) s.db
    Inv d c { s with db := out.1, responses := s.responses ++ d.answers out.2 } := by
  intro out
  obtain ⟨id, key, rfl⟩ := h.sent m hm
  rcases request_cases d env id key s.db with
    ⟨hrefused, hcertificates, hcrls, hdevices⟩ | ⟨device, q, texts, request, leaf, current, newId,
      hdevice, hq, hcurrent, hserial, hdb, hbodies⟩
  · exact h.refused hrefused hcertificates hcrls hdevices
  · rw [show out.1 = _ from hdb]
    exact h.granted hm hdevice hq hcurrent hserial hbodies

/-! ### Handshakes -/

/-- The invariant does not depend on the connection. -/
theorem Inv.withConnected (h : Inv d c s) (connected : Bool) :
    Inv d c { s with connected := connected } := by
  obtain ⟨row, hrow, hcases⟩ := h.row
  refine ⟨h.tls, h.serves, h.stored, h.sent, h.answers, row, hrow, hcases.imp_left fun hb => ?_⟩
  exact ⟨hb.renewed, hb.answers, hb.agent, hb.sent⟩

theorem Inv.step {a : Action} (h : Inv d c s) (hstep : step d s a = some t) : Inv d c t := by
  cases a with
  | agent a =>
    simp only [Reconnect.step] at hstep
    split_ifs at hstep with ha
    obtain ⟨hstart, hresponse⟩ := not_or.mp ha
    obtain ⟨agent, hagent, rfl⟩ := Option.map_eq_some_iff.mp hstep
    have hnone : a.response = none := by simpa using hresponse
    exact h.withAgent hstart (by simp [hnone]) (fun _ => hnone) hagent
  | request env m =>
    simp only [Reconnect.step] at hstep
    split_ifs at hstep with hm
    cases hstep
    exact h.request hm
  | respond body =>
    simp only [Reconnect.step] at hstep
    split_ifs at hstep with hbody
    obtain ⟨hmem, -, haccepted, -⟩ := hbody
    obtain ⟨agent, hagent, rfl⟩ := Option.map_eq_some_iff.mp hstep
    refine h.withAgent (a := .receive (certPemBytes body)) (fun hstart => nomatch hstart) ?_
      (fun hb => ?_) hagent
    · intro pem hpem
      cases hpem
      exact h.answers body hmem haccepted
    · rw [hb.answers body hmem] at haccepted
      cases haccepted
  | connectionLost =>
    simp only [Reconnect.step] at hstep
    split_ifs at hstep
    cases hstep
    exact h.withConnected false
  | handshake accepted =>
    simp only [Reconnect.step] at hstep
    split_ifs at hstep
    cases hstep
    exact h.withConnected accepted

/-- **Handshakes after a renewal.** In every run of one process, once `HandleRenewalResponse` has
returned without an error, a handshake never presents the certificate that is stored. It presents
the one with which the process started, and a renewal has revoked that one; it is on the revocation
list if its row belongs to the organization of the device. -/
theorem handshake_presents_revoked {u : Link} {accepted : Bool} (hs : Started d c s)
    (h : Reachable (step d) s t) (hrenewed : t.renewed)
    (hshake : step d t (.handshake accepted) = some u) :
    ¬ PresentsStored t ∧ presented t = some c ∧ RevokedByRenewal t.db c ∧
      ∀ device row, t.db.devices.find? d.deviceId = some device → RowOf t.db c row →
        row.organizationId = device.organizationId → InCrl t.db device.organizationId c.serial := by
  have hinv : Inv d c t := h.invariant (Inv d c) (fun h _ hstep => h.step hstep) hs.inv
  have hpresented : presented t = some c := by
    simp only [step] at hshake
    split_ifs at hshake with hup
    obtain ⟨p, hp⟩ := Option.isSome_iff_exists.mp hup.2
    rw [presented, hp, Option.map_some, hinv.tls p hp]
  obtain ⟨row, hrow, hcases⟩ := hinv.row
  have hafter : After d t.db row := by
    refine hcases.resolve_left fun hb => ?_
    rw [hb.renewed] at hrenewed
    cases hrenewed
  refine ⟨?_, hpresented, ⟨row, List.mem_of_find?_eq_some hrow.found, hrow.certPem, hafter.revoked,
    hafter.reason⟩, fun device row' hdevice hrow' horg => ?_⟩
  · -- What is stored has been issued since, under another serial number.
    rintro ⟨c', hc', hstored⟩
    cases hpresented.symm.trans hc'
    obtain ⟨pem, hpem, c', rfl, hserial⟩ := hinv.stored hrenewed
    cases hstored.symm.trans hpem
    exact hserial rfl
  · cases hrow.found.symm.trans hrow'.found
    rw [← horg, ← hrow.serial]
    exact hafter.inCrl device hdevice horg

/-! ### A renewal and a lost connection -/

namespace Renewal

/-- A controller that reads the key of a request from the length of its text. -/
def site : Deployment where
  ctx :=
    { parseCsr := fun pem => some ⟨[("CN", "d")], pem.toList.length⟩
      acceptsIpAddress := fun _ => true
      sha256 := fun s => s
      certValidityDays := 365
      crlValidityHours := 24
      crlUrlFor := fun _ => ""
      parseInstant := fun _ => none
      caCertPem := fun _ => ""
      brokerPem := ""
      getMessage := fun _ => "" }
  encodeCsr csr := String.ofList (List.replicate csr.publicKey 'k')
  topicRoot := "edgeguardian"
  deviceId := "d"

/-- A certificate of the device. -/
def leaf (serial : ℕ) (key : KeyPair) (now : Instant) : X509Certificate where
  issuer := 1
  serial := serial
  notBefore := now
  notAfter := now + Duration.ofDays 365
  subject := [("CN", "d")]
  publicKey := key
  sans := []
  crlUrl := ""

/-- The certificate with which the process starts. -/
def first : X509Certificate := leaf 5 1 0

/-- The certificate that is issued on day 360. -/
def second : X509Certificate := leaf 6 2 (Duration.ofDays 360)

/-- The database after the first certificate was issued. -/
def db : Db :=
  (onCertRequest site.ctx ⟨0, 5, ""⟩ site.requestTopic
    (some ⟨some "d", some "device-identity", some "d", none, some "k", some "manifest", none⟩)
    (register ⟨0, 0, ""⟩ 1 "d" ⟨none, none, none, none, none⟩ (Db.empty .empty)).2).1

/-- The device before the process starts. -/
def before : Bootstrap.State where
  files := ⟨some 1, some (.certificate first), some (.certificate (leaf 1 0 0)), none⟩
  proc := none
  sent := []
  attempts := []

/-- The process has started and is connected. -/
def start : Link where
  agent := before.withProc (.wired first first)
  db := db
  responses := []
  connected := true
  renewed := false

/-- The process renews its certificate on day 360 and loses the connection. -/
def run : List Action :=
  [.agent (.tryRenew (Duration.ofDays 360)), .agent .markAttempt, .agent (.stashKey (some 2)),
    .agent (.publish true), .request ⟨Duration.ofDays 360, 6, ""⟩ (renewalRequest first 2),
    .respond ⟨some "device-identity", true, "Certificate issued", some second, some ""⟩,
    .agent (.readStash true), .agent (.writeKey true), .agent (.writeCert true),
    .agent (.removeStash true), .agent .reload, .connectionLost]

theorem started : Started site first start where
  start := ⟨before, by decide +kernel⟩
  cert := rfl
  row := by
    obtain ⟨row, hfound, hcert, hserial⟩ : ∃ row ∈ findBySerialNumber db first.serialHex,
        row.certPem = first ∧ row.serialNumber = first.serial := by decide +kernel
    exact ⟨row, ⟨hfound, hcert, hserial⟩, fun _ hbody => nomatch hbody⟩
  sent m hm := nomatch hm
  renewed := rfl

/-- After the run, the client is about to reconnect with the first certificate. -/
theorem exists_handshake : ∃ t u, Reachable (step site) start t ∧ t.renewed = true ∧
    step site t (.handshake true) = some u ∧ presented t = some first ∧
      t.agent.files.cert = some (.certificate second) := by
  obtain ⟨t, hreach, hrenewed, hconnected, hpresented, hcert⟩ :
      ∃ t, Reachable (step site) start t ∧ t.renewed = true ∧ t.connected = false ∧
        presented t = some first ∧ t.agent.files.cert = some (.certificate second) :=
    exists_reaches_of_execBy run (by decide +kernel)
  obtain ⟨p, hp, -⟩ := Option.map_eq_some_iff.mp hpresented
  refine ⟨t, { t with connected := true }, hreach, hrenewed, ?_, hpresented, hcert⟩
  simp [step, hconnected, hp]

end Renewal

/-- The run of the renewal reaches a handshake, which presents the first certificate. -/
theorem handshake_presents_first :
    ∃ t u, (Started Renewal.site Renewal.first Renewal.start ∧
      Reachable (step Renewal.site) Renewal.start t ∧ t.renewed ∧
      step Renewal.site t (.handshake true) = some u) ∧
      ¬ PresentsStored t ∧ presented t = some Renewal.first ∧
        RevokedByRenewal t.db Renewal.first := by
  obtain ⟨t, u, hreach, hrenewed, hshake, -⟩ := Renewal.exists_handshake
  obtain ⟨hstored, hpresented, hrevoked, -⟩ :=
    handshake_presents_revoked Renewal.started hreach hrenewed hshake
  exact ⟨t, u, ⟨Renewal.started, hreach, hrenewed, hshake⟩, hstored, hpresented, hrevoked⟩

/-- A handshake after a renewal presents another certificate than the stored one. -/
theorem handshake_after_renewal :
    ¬ ∀ (d : Deployment) (c : X509Certificate) (s t u : Link) (accepted : Bool), Started d c s →
      Reachable (step d) s t → t.renewed → step d t (.handshake accepted) = some u →
        PresentsStored t := by
  intro h
  obtain ⟨t, u, hreach, hrenewed, hshake, hpresented, hcert⟩ := Renewal.exists_handshake
  obtain ⟨c, hc, hstored⟩ := h _ _ _ t u _ Renewal.started hreach hrenewed hshake
  cases hpresented.symm.trans hc
  cases hcert.symm.trans hstored

end EdgeGuardian.Reconnect
