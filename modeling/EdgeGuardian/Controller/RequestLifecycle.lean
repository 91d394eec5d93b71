import EdgeGuardian.Controller.Devices
import EdgeGuardian.Lib.Approval
import EdgeGuardian.Lib.Transition

/-!
# The life of a certificate request

A certificate request is saved pending and gets one verdict: it is approved when the certificate on
it is issued, or rejected by a user, with its device, or because a renewal does not own what it
renews. The calls of `CertificateService` are transactions, so that a failure anywhere, also inside
of signing, leaves neither a verdict without its certificate nor a certificate without its verdict.
Seen as a register of requests and grants, every call is a sequence of submissions and verdicts.

Source: `controller/src/main/java/com/edgeguardian/controller/service/CertificateService.java`.

## Main definitions

* `CertificateCall`, `CallAt`, `callStep`: the calls, and their steps.
* `requestRegister`: the requests and the certificates as a register.
* `RequestsSettled`, `RequestsPrecede`: what holds in a state, and between two states of a run.

## Main results

* `steps_requestRegister`: a committed call is a sequence of steps of the register.
* `requests_settled_and_precede`: the state machine of the requests along every run.
-/

namespace EdgeGuardian.Controller

open Transition

/-! ### Calls -/

/-- The methods of `CertificateService` that write. -/
inductive CertificateCall
  | processRequest (q : CertRequestArgs)
  | approve (requestId : ℕ) (expectedOrgId : OrganizationId) (reviewerUserId : Option UserId)
  | reject (requestId : ℕ) (expectedOrgId : OrganizationId) (reviewerUserId : Option UserId)
      (reason : Option String)
  | revoke (certificateId : ℕ) (expectedOrgId : OrganizationId) (userId : Option UserId)
  | revokeAllActiveForDevice (deviceId : String) (orgId : OrganizationId) (reason : RevokeReason)
      (actorUserId : Option UserId)
  | rejectPendingRequestsForDevice (deviceId : String) (orgId : OrganizationId)
      (reason : Option String) (actorUserId : Option UserId)
deriving DecidableEq, Repr

/-- The transaction of a call, without its result. -/
def CertificateCall.perform (pki : PkiContext) (env : Env) : CertificateCall → Service Unit
  | .processRequest q => do let _ ← Controller.processRequest pki env q
  | .approve requestId expectedOrgId reviewerUserId => do
    let _ ← Controller.approve pki env requestId expectedOrgId reviewerUserId
  | .reject requestId expectedOrgId reviewerUserId reason =>
    Controller.reject env requestId expectedOrgId reviewerUserId reason
  | .revoke certificateId expectedOrgId userId =>
    Controller.revoke pki env certificateId expectedOrgId userId
  | .revokeAllActiveForDevice deviceId orgId reason actorUserId => modify fun db =>
    (Controller.revokeAllActiveForDevice pki env deviceId orgId reason actorUserId db).2
  | .rejectPendingRequestsForDevice deviceId orgId reason actorUserId => modify fun db =>
    (Controller.rejectPendingRequestsForDevice env deviceId orgId reason actorUserId db).2

/-- A call with its clock reading and random serial, and with the answers of the certificate
authority, which may fail to sign at one time what it signs at another. -/
structure CallAt where
  pki : PkiContext
  env : Env
  call : CertificateCall

/-- The transaction of a call at its time. -/
def CallAt.perform (a : CallAt) : Service Unit := a.call.perform a.pki a.env

/-- A call; one that throws is rolled back. -/
def callStep (db : Db) (a : CallAt) : Option Db := some (a.perform.commit db)

/-! ### Requests and certificates as a register -/

/-- The verdicts on a certificate request. -/
def verdicts : Verdicts CertRequestState where
  pending := .pending
  approved := .approved
  rejected := .rejected
  approved_ne_pending := by decide
  rejected_ne_pending := by decide
  rejected_ne_approved := by decide

/-- Whom a request is for: its device, organization and name. -/
def CertificateRequest.subject (r : CertificateRequest) : String × OrganizationId × String :=
  (r.deviceId, r.organizationId, r.name)

/-- Whom a certificate was issued to. -/
def IssuedCertificate.subject (c : IssuedCertificate) : String × OrganizationId × String :=
  (c.deviceId, c.organizationId, c.name)

/-- The requests with their states, and the certificates as grants on them. -/
def requestRegister (db : Db) : Register (String × OrganizationId × String) CertRequestState where
  requests i := (db.requests.find? i).map fun r => (r.subject, r.state)
  grants k := (db.certificates.find? k).map fun c => (c.requestId, c.subject)

section Register

variable {pki : PkiContext} {env : Env} {db db' : Db}

/-- A change of certificates that keeps their request and subject. -/
theorem requestRegister_of_revised {p : IssuedCertificate → Prop} [DecidablePred p]
    {f : IssuedCertificate → IssuedCertificate} {hf : ∀ c, (f c).id = c.id}
    (hrequests : db'.requests = db.requests)
    (hcertificates : db'.certificates = db.certificates.modify p f hf)
    (hrecord : ∀ c, ((f c).requestId, (f c).subject) = (c.requestId, c.subject)) :
    requestRegister db' = requestRegister db := by
  rw [requestRegister, requestRegister, hrequests]
  congr 1
  funext k
  exact SerialTable.map_find?_of_modify hcertificates hrecord k

theorem requestRegister_markRevoked (env : Env) (p : IssuedCertificate → Prop) [DecidablePred p]
    (reason : RevokeReason) (db : Db) :
    requestRegister (markRevoked env p reason db) = requestRegister db :=
  requestRegister_of_revised rfl rfl fun _ => rfl

theorem requestRegister_superseded (pki : PkiContext) (env : Env) (q : CertRequestArgs) (db : Db) :
    requestRegister (superseded pki env q db) = requestRegister db := by
  rw [superseded, supersedeActiveCerts]
  split_ifs
  · rfl
  · exact requestRegister_markRevoked env (ActiveForName env q.deviceId q.name) .superseded db

theorem requestRegister_revokeAll (deviceId : String) (orgId : OrganizationId)
    (reason : RevokeReason) (actorUserId : Option UserId) :
    requestRegister (revokeAllActiveForDevice pki env deviceId orgId reason actorUserId db).2 =
      requestRegister db := by
  rw [revokeAllActiveForDevice]
  split_ifs
  · rfl
  · exact requestRegister_markRevoked env (ActiveForDevice env deviceId) reason db

theorem requestRegister_replaceCert (orgId : OrganizationId) (currentId newId : ℕ) :
    requestRegister (replaceCert pki env orgId currentId newId db) = requestRegister db := by
  have hmark := requestRegister_markRevoked env (fun c => c.id = currentId) .renewed db
  rw [← hmark]
  exact requestRegister_of_revised rfl rfl fun _ => rfl

theorem requestRegister_reviewRequest (requestId : ℕ) (reviewerUserId : Option UserId) :
    requestRegister (reviewRequest env requestId reviewerUserId db) = requestRegister db := by
  rw [requestRegister, requestRegister]
  congr 1
  funext i
  have hmodify : (reviewRequest env requestId reviewerUserId db).requests = _ := rfl
  exact SerialTable.map_find?_of_modify hmodify (fun _ => rfl) i

theorem requestRegister_insertRequest (q : CertRequestArgs) (t : RequestTexts)
    (currentSerial : Option String) :
    requestRegister (insertRequest env q t currentSerial db) =
      (requestRegister db).submit verdicts db.requests.next (q.deviceId, q.orgId, t.name) := by
  rw [requestRegister, Register.submit]
  congr 1
  funext i
  have hfind : (insertRequest env q t currentSerial db).requests.find? i = _ :=
    db.requests.find?_insert (newRequest env q t currentSerial) (fun _ => rfl) i
  rw [hfind]
  by_cases hi : i = db.requests.next
  · rw [if_pos hi, hi, Function.update_self]
    rfl
  · rw [if_neg hi, Function.update_of_ne hi]
    rfl

/-- A verdict written to the row of a pending request is an update of the register. -/
theorem requests_of_verdict {request : CertificateRequest} {state : CertRequestState}
    {f : CertificateRequest → CertificateRequest} {hf : ∀ r, (f r).id = r.id}
    (hrequests : db'.requests = db.requests.modify (fun r => r.id = request.id) f hf)
    (hrecord : ∀ r, ((f r).subject, (f r).state) = (r.subject, state))
    (h : (requestRegister db).requests request.id = some (request.subject, .pending)) :
    (requestRegister db').requests = Function.update (requestRegister db).requests request.id
      (some (request.subject, state)) := by
  funext i
  simp only [requestRegister] at h ⊢
  rw [hrequests, SerialTable.find?_modify, Option.map_map]
  by_cases hi : i = request.id
  · rw [hi, Function.update_self]
    obtain ⟨r, hr, hsubject⟩ := Option.map_eq_some_iff.mp h
    have hid : r.id = request.id := Table.key_of_find?_eq_some hr
    rw [hr, Option.map_some, Function.comp_apply, if_pos hid, hrecord, (Prod.mk.inj hsubject).1]
  · rw [Function.update_of_ne hi]
    refine Option.map_congr fun r hr => ?_
    have hid : r.id = i := Table.key_of_find?_eq_some hr
    have hne : ¬ r.id = request.id := fun heq => hi (hid.symm.trans heq)
    rw [Function.comp_apply, if_neg hne]

theorem requestRegister_issue {request : CertificateRequest} (leaf : X509Certificate)
    (h : (requestRegister db).requests request.id = some (request.subject, .pending)) :
    requestRegister (issue env request leaf db) =
      (requestRegister db).approve verdicts request.id db.certificates.next request.subject := by
  refine Register.ext (requests_of_verdict rfl (fun _ => rfl) h) (funext fun k => ?_)
  simp only [requestRegister, Register.approve]
  have hfind : (issue env request leaf db).certificates.find? k = _ :=
    db.certificates.find?_insert (newCertificate env request leaf) (fun _ => rfl) k
  rw [hfind]
  by_cases hk : k = db.certificates.next
  · rw [if_pos hk, hk, Function.update_self]
    rfl
  · rw [if_neg hk, Function.update_of_ne hk]

/-- The next numbers are those of no request and of no certificate. -/
theorem requests_next (db : Db) : (requestRegister db).requests db.requests.next = none :=
  Option.map_eq_none_iff.mpr db.requests.find?_next

theorem grants_next (db : Db) : (requestRegister db).grants db.certificates.next = none :=
  Option.map_eq_none_iff.mpr db.certificates.find?_next

theorem step_issue {request : CertificateRequest} (leaf : X509Certificate)
    (h : (requestRegister db).requests request.id = some (request.subject, .pending)) :
    Register.Step verdicts (requestRegister db) (requestRegister (issue env request leaf db)) := by
  rw [requestRegister_issue leaf h]
  exact .approve h (grants_next db)

theorem step_insertRequest (env : Env) (q : CertRequestArgs) (t : RequestTexts)
    (currentSerial : Option String) (db : Db) :
    Register.Step verdicts (requestRegister db)
      (requestRegister (insertRequest env q t currentSerial db)) := by
  rw [requestRegister_insertRequest]
  exact .submit _ (requests_next db)

/-- Pending requests that meet `p` are rejected. -/
theorem step_rejected {p : CertificateRequest → Prop} [DecidablePred p]
    {f : CertificateRequest → CertificateRequest} {hf : ∀ r, (f r).id = r.id}
    (hrequests : db'.requests = db.requests.modify p f hf)
    (hcertificates : db'.certificates = db.certificates)
    (hrecord : ∀ r, ((f r).subject, (f r).state) = (r.subject, .rejected))
    (hp : ∀ i, ∀ r ∈ db.requests.find? i, p r → r.state = .pending) :
    Register.Step verdicts (requestRegister db) (requestRegister db') := by
  have hreject : requestRegister db' = (requestRegister db).reject verdicts
      fun i => ∃ r ∈ db.requests.find? i, p r := by
    rw [requestRegister, Register.reject, hcertificates]
    congr 1
    funext i
    simp only [requestRegister]
    rw [hrequests, SerialTable.find?_modify, Option.map_map]
    rcases db.requests.find? i with _ | r
    · simp
    · simp only [Option.map_some, Function.comp_apply, Option.mem_some_iff, exists_eq_left']
      split_ifs
      · rw [hrecord]
        rfl
      · rfl
  rw [hreject]
  refine .reject _ fun i hi record hrecord => ?_
  obtain ⟨r, hr, hpr⟩ := hi
  obtain ⟨r', hr', rfl⟩ := Option.map_eq_some_iff.mp hrecord
  rw [hr] at hr'
  cases hr'
  exact hp i r hr hpr

/-- The request that was inserted last is pending. -/
theorem requests_insertRequest (env : Env) (q : CertRequestArgs) (t : RequestTexts)
    (currentSerial : Option String) {n : ℕ} (hn : db.requests.next = n) :
    (requestRegister (insertRequest env q t currentSerial db)).requests n =
      some ((newRequest env q t currentSerial n).subject, .pending) := by
  rw [requestRegister_insertRequest, hn]
  exact Function.update_self ..

/-- A row of the table says what the register says. -/
theorem state_eq_of_requests {i : ℕ} {r : CertificateRequest}
    {subject : String × OrganizationId × String} {state : CertRequestState}
    (h : (requestRegister db).requests i = some (subject, state))
    (hr : db.requests.find? i = some r) : r.state = state := by
  simp only [requestRegister, hr, Option.map_some] at h
  exact (Prod.mk.inj (Option.some.inj h)).2

theorem steps_processed {q : CertRequestArgs} {r : CertRequestResult}
    (h : Processed pki env q db r db') :
    Register.Steps verdicts (requestRegister db) (requestRegister db') := by
  have hnext : (superseded pki env q db).requests.next = db.requests.next := by
    rw [superseded, requests_supersedeActiveCerts]
  have hsame : requestRegister (superseded pki env q db) = requestRegister db :=
    requestRegister_superseded pki env q db
  cases h with
  | @pending t =>
    rw [← hsame]
    exact .single (step_insertRequest env q t none _)
  | @issued t leaf =>
    rw [← hsame]
    refine .tail (.single (step_insertRequest env q t none _)) ?_
    exact step_issue leaf (requests_insertRequest env q t none hnext)
  | @rejected t =>
    have hpending := requests_insertRequest (n := db.requests.next) env q t q.currentSerial rfl
    refine .tail (.single (step_insertRequest env q t q.currentSerial db)) ?_
    refine step_rejected rfl rfl (fun _ => rfl) fun i r hr hid => ?_
    have hi : i = db.requests.next := (Table.key_of_find?_eq_some hr).symm.trans hid
    rw [hi] at hr
    exact state_eq_of_requests hpending hr
  | @renewed t leaf current =>
    rw [requestRegister_replaceCert]
    refine .tail (.single (step_insertRequest env q t q.currentSerial db)) ?_
    exact step_issue leaf (requests_insertRequest env q t q.currentSerial rfl)

/-- A committed call is a sequence of submissions and verdicts. -/
theorem steps_requestRegister {call : CertificateCall}
    (h : (call.perform pki env).run db = .ok ((), db')) :
    Register.Steps verdicts (requestRegister db) (requestRegister db') := by
  cases call with
  | processRequest q =>
    obtain ⟨r, h⟩ := Tx.run_discard_eq_ok h
    exact steps_processed (processRequest_run_eq_ok.mp h)
  | approve requestId expectedOrgId reviewerUserId =>
    obtain ⟨cert, h⟩ := Tx.run_discard_eq_ok h
    obtain ⟨request, leaf, details, hfind, -, hstate, -, -, -, rfl⟩ := approve_cases h
    have hid : request.id = requestId := Table.key_of_find?_eq_some hfind
    have hreview : requestRegister (reviewRequest env requestId reviewerUserId db) =
        requestRegister db := requestRegister_reviewRequest requestId reviewerUserId
    rw [← hreview]
    refine .single (step_issue leaf ?_)
    rw [hreview, hid, requestRegister]
    simp only [hfind, Option.map_some, hstate]
  | reject requestId expectedOrgId reviewerUserId reason =>
    obtain ⟨request, details, hfind, -, hstate, rfl⟩ := reject_cases h
    refine .single (step_rejected rfl rfl (fun _ => rfl) fun i r hr hid => ?_)
    have hi : i = requestId := (Table.key_of_find?_eq_some hr).symm.trans hid
    rw [hi, hfind] at hr
    cases hr
    exact hstate
  | revoke certificateId expectedOrgId userId =>
    obtain ⟨cert, details, -, -, -, rfl⟩ := revoke_cases h
    have hmark := requestRegister_markRevoked env (fun c => c.id = certificateId) .adminRevoked db
    rw [← hmark]
    exact .refl
  | revokeAllActiveForDevice deviceId orgId reason actorUserId =>
    obtain ⟨-, rfl⟩ := Prod.mk.inj (Tx.run_modify_eq_ok.mp h)
    rw [requestRegister_revokeAll]
  | rejectPendingRequestsForDevice deviceId orgId reason actorUserId =>
    obtain ⟨-, rfl⟩ := Prod.mk.inj (Tx.run_modify_eq_ok.mp h)
    simp only [rejectPendingRequestsForDevice]
    split_ifs
    · exact .refl
    · exact .single (step_rejected rfl rfl (fun _ => rfl) fun _ _ _ hp => hp.2)

theorem steps_of_callStep {a : CallAt} (h : callStep db a = some db') :
    Register.Steps verdicts (requestRegister db) (requestRegister db') := by
  rcases Tx.eq_or_run_of_commit h with rfl | ⟨_, hrun⟩
  · exact .refl
  · exact steps_requestRegister hrun

/-- Every run of calls is a sequence of submissions and verdicts. -/
theorem steps_of_reaches {ok : Db → CallAt → Prop} (h : Reaches callStep ok db db') :
    Register.Steps verdicts (requestRegister db) (requestRegister db') :=
  h.invariant (fun u => Register.Steps verdicts (requestRegister db) (requestRegister u))
    (fun hu _ hstep => hu.trans (steps_of_callStep hstep)) .refl

end Register

/-! ### The state machine -/

/-- Every request is pending, approved or rejected; an approved request has one certificate, for
its device, organization and name, and the others have none. -/
structure RequestsSettled (db : Db) : Prop where
  verdict : ∀ r ∈ db.requests.rows, r.state = .pending ∨ r.state = .approved ∨ r.state = .rejected
  approved : ∀ r ∈ db.requests.rows, r.state = .approved →
    ∃ c ∈ db.certificates.rows, c.requestId = some r.id ∧ c.deviceId = r.deviceId ∧
      c.organizationId = r.organizationId ∧ c.name = r.name ∧
      ∀ c' ∈ db.certificates.rows, c'.requestId = some r.id → c' = c
  other : ∀ r ∈ db.requests.rows, r.state ≠ .approved →
    ∀ c ∈ db.certificates.rows, c.requestId ≠ some r.id

/-- Every request of the first database is in the second one, and its state is the same there, or
it was pending and has its verdict. -/
def RequestsPrecede (db db' : Db) : Prop :=
  ∀ r ∈ db.requests.rows, ∃ r' ∈ db'.requests.rows, r'.id = r.id ∧
    (r'.state = r.state ∨ r.state = .pending ∧ (r'.state = .approved ∨ r'.state = .rejected))

section StateMachine

variable {db db' : Db}

theorem requests_of_mem {r : CertificateRequest} (hr : r ∈ db.requests.rows) :
    (requestRegister db).requests r.id = some (r.subject, r.state) := by
  simp only [requestRegister]
  rw [Table.mem_rows_iff.mp hr]
  rfl

theorem grantedOn_of_mem {c : IssuedCertificate} {i : ℕ} (hc : c ∈ db.certificates.rows)
    (hi : c.requestId = some i) : (requestRegister db).GrantedOn i c.id := by
  refine ⟨c.subject, ?_⟩
  simp only [requestRegister]
  rw [Table.mem_rows_iff.mp hc, Option.map_some, hi]

theorem requestsSettled_of_settled (h : Register.Settled verdicts (requestRegister db)) :
    RequestsSettled db := by
  refine ⟨fun r hr => ?_, fun r hr hstate => ?_, fun r hr hstate c hc hid => ?_⟩
  · exact h.verdict r.id r.subject r.state (requests_of_mem hr)
  · have hrequest := requests_of_mem hr
    rw [hstate] at hrequest
    obtain ⟨k, hk, hunique⟩ := h.approved r.id r.subject hrequest
    obtain ⟨c, hc, hrecord⟩ := Option.map_eq_some_iff.mp hk
    obtain ⟨hid, hsubject⟩ := Prod.mk.inj hrecord
    obtain ⟨hdevice, hrest⟩ := Prod.mk.inj hsubject
    obtain ⟨horg, hname⟩ := Prod.mk.inj hrest
    have hmem : c ∈ db.certificates.rows := Table.mem_of_find?_eq_some hc
    refine ⟨c, hmem, hid, hdevice, horg, hname, fun c' hc' hid' => ?_⟩
    refine eq_of_id_eq hc' hmem ?_
    rw [hunique c'.id (grantedOn_of_mem hc' hid'), hunique c.id (grantedOn_of_mem hmem hid)]
  · exact h.other r.id r.subject r.state (requests_of_mem hr) hstate c.id (grantedOn_of_mem hc hid)

theorem requestsPrecede_of_precedes
    (h : Register.Precedes verdicts (requestRegister db) (requestRegister db')) :
    RequestsPrecede db db' := by
  intro r hr
  obtain ⟨state, hstate, hmoves⟩ := h r.id r.subject r.state (requests_of_mem hr)
  obtain ⟨r', hr', hrecord⟩ := Option.map_eq_some_iff.mp hstate
  have hid : r'.id = r.id := Table.key_of_find?_eq_some hr'
  obtain ⟨-, rfl⟩ := Prod.mk.inj hrecord
  exact ⟨r', Table.mem_of_find?_eq_some hr', hid, hmoves⟩

end StateMachine

/-- **The state machine of certificate requests.** In every state that a run of calls reaches from
a database without requests and certificates, exactly the approved requests have a certificate, one
each, for their device, organization and name; from there on a request changes its state only from
pending to a verdict, and then no more; and a call that throws changes no request and no
certificate. -/
theorem requests_settled_and_precede {db db' : Db}
    (hrequests : db.requests.rows = []) (hcertificates : db.certificates.rows = [])
    (h : Reachable callStep db db') :
    RequestsSettled db' ∧
      (∀ db'', Reachable callStep db' db'' → RequestsPrecede db' db'') ∧
      ∀ (a : CallAt) (e : ServiceError) (db'' : Db),
        a.perform.run db' = .error e → callStep db' a = some db'' →
          db''.requests = db'.requests ∧ db''.certificates = db'.certificates := by
  have hempty : requestRegister db = ⟨fun _ => none, fun _ => none⟩ := by
    refine Register.ext (funext fun i => ?_) (funext fun k => ?_)
    · simp [requestRegister, Table.find?, hrequests]
    · simp [requestRegister, Table.find?, hcertificates]
  have hsettled : Register.Settled verdicts (requestRegister db) := by
    rw [hempty]
    exact Register.settled_empty
  refine ⟨requestsSettled_of_settled (hsettled.steps (steps_of_reaches h)), ?_, ?_⟩
  · intro db'' h'
    exact requestsPrecede_of_precedes (Register.precedes_of_steps (steps_of_reaches h'))
  · intro a e db'' hrun hstep
    rw [callStep, Tx.commit_of_run_eq_error hrun, Option.some.injEq] at hstep
    rw [hstep]
    exact ⟨rfl, rfl⟩

/-! ### A device and its requests -/

namespace Review

/-- A certificate authority that reads the text `csr` only. -/
def pki : PkiContext where
  parseCsr csrPem := if csrPem = "csr" then some ⟨[("CN", "d")], 7⟩ else none
  acceptsIpAddress _ := true
  sha256 s := s
  certValidityDays := 365
  crlValidityHours := 24
  crlUrlFor _ := ""

/-- One device of organization 1, without requests and certificates. -/
def db : Db :=
  { Db.empty .empty with
    devices := (Table.empty : Table Device Device.deviceId).save
      (registeredDevice ⟨0, 0, ""⟩ 1 "d" ⟨none, none, none, none, none⟩ none) }

/-- The device asks for a certificate with the text `csrPem`. -/
def request (now : Instant) (type : CertRequestType) (csrPem : String)
    (currentSerial : Option String) : CallAt :=
  ⟨pki, ⟨now, now, ""⟩, .processRequest
    ⟨"d", 1, some "web", some "d", [], some csrPem, type, currentSerial⟩⟩

/-- Two requests wait; the first is approved, the second, which cannot be signed, is not, and is
rejected with its device; a renewal with an unknown serial is rejected at once. -/
def calls : List CallAt :=
  [request 1 .initial "csr" none, request 2 .initial "no csr" none,
    ⟨pki, ⟨3, 3, ""⟩, .approve 1 1 none⟩, ⟨pki, ⟨4, 4, ""⟩, .approve 2 1 none⟩,
    ⟨pki, ⟨5, 5, ""⟩, .rejectPendingRequestsForDevice "d" 1 none none⟩,
    request 6 .renewal "csr" (some "ff")]

end Review

open Review in
/-- A run with an approved and two rejected requests. -/
theorem requests_settled_after_review :
    ∃ db', (Review.db.requests.rows = [] ∧ Review.db.certificates.rows = [] ∧
      Reachable callStep Review.db db' ∧
        db'.requests.rows.map CertificateRequest.state = [.approved, .rejected, .rejected]) ∧
      RequestsSettled db' := by
  obtain ⟨db', hreach, hstates⟩ : ∃ db', Reachable callStep Review.db db' ∧
      db'.requests.rows.map CertificateRequest.state = [.approved, .rejected, .rejected] :=
    exists_reaches_of_execBy calls (by decide +kernel)
  exact ⟨db', ⟨rfl, rfl, hreach, hstates⟩, (requests_settled_and_precede rfl rfl hreach).1⟩

end EdgeGuardian.Controller
