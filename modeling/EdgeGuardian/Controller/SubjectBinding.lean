import EdgeGuardian.Controller.Listeners
import EdgeGuardian.Lib.Transition

/-!
# The subject of identity certificates

The broker takes the common name of a client certificate for the device id. A certificate named
`device-identity` is signed on three ways: a device enrols with a request, it sends a request that
is approved at once, or an administrator approves a request that was stored. On each of them the
subject is the one of the PKCS #10 request, which nothing compares with the device. So the subject
is the device along a run exactly as far as the clients ask for nothing else.

Source: `controller/src/main/java/com/edgeguardian/controller/service/CertificateService.java`,
`CertificateAuthorityService.java`, `mqtt/EnrollmentListener.java`, `mqtt/CertRequestListener.java`,
`deployments/helm/edgeguardian/templates/emqx.yaml`.

## Main definitions

* `Issuance`, `receive`: the messages and reviews that lead to certificates, and their effect.
* `SubjectBound`: every identity certificate carries the device id as its common name.
* `AsksForOwn`: a step signs no identity request for a subject other than the device.

## Main results

* `SubjectBound.processed`: what processing a certificate request preserves.
* `subjectBound_of_asksForOwn`: every run of such steps keeps subjects and devices together.
-/

namespace EdgeGuardian.Controller

/-! ### Messages and reviews -/

/-- What leads to a certificate: the two kinds of messages, and the review of a stored request. -/
inductive Issuance
  | enrollRequest (env env' : Env) (topic : Topic) (payload : Option EnrollRequestPayload)
  | certRequest (env : Env) (topic : Topic) (payload : Option CertRequestPayload)
  | approve (env : Env) (requestId : ℕ) (expectedOrgId : OrganizationId)
      (reviewerUserId : Option UserId)

/-- The database after a message or a review. -/
def receive (ctx : Context) (db : Db) : Issuance → Option Db
  | .enrollRequest env env' topic payload =>
    some (onEnrollRequest ctx env env' topic payload db).1
  | .certRequest env topic payload => some (onCertRequest ctx env topic payload db).1
  | .approve env requestId expectedOrgId reviewerUserId =>
    some ((approve ctx.toPkiContext env requestId expectedOrgId reviewerUserId).commit db)

/-- Every identity certificate carries the device id as the common name of its subject. -/
def SubjectBound (db : Db) : Prop :=
  ∀ c ∈ db.certificates.rows, c.name = "device-identity" →
    c.certPem.subject.commonName = some c.deviceId

instance (db : Db) : Decidable (SubjectBound db) := inferInstanceAs (Decidable (∀ _ ∈ _, _))

/-- The common name in a PKCS #10 request is the device id, if the request can be read. -/
def BoundCsr (pki : PkiContext) (csrPem deviceId : String) : Prop :=
  ∀ csr ∈ pki.parseCsr csrPem, csr.subject.commonName = some deviceId

/-- A request that is signed without review. -/
def SignedAtOnce (db : Db) (q : CertRequestArgs) : Prop :=
  q.type = .manifest ∨ q.type = .renewal ∧ (currentCert db q).isSome

/-- The identity request that a step would sign has the device id as its common name. -/
def AsksForOwn (ctx : Context) (db : Db) : Issuance → Prop
  | .enrollRequest env _ topic payload => ∀ request ∈ payload, ∀ deviceId token,
    EnrollAccepted ctx.toPkiContext env topic db request deviceId token →
      ∀ pem ∈ request.csrPem, BoundCsr ctx.toPkiContext pem deviceId
  | .certRequest _ topic payload => ∀ q ∈ certRequestCall topic payload db,
    SignedAtOnce db q → q.name = some "device-identity" →
      ∀ pem ∈ q.csrPem, BoundCsr ctx.toPkiContext pem q.deviceId
  | .approve _ requestId _ _ => ∀ request ∈ db.requests.find? requestId,
    request.name = "device-identity" →
      BoundCsr ctx.toPkiContext request.csrPem request.deviceId

/-! ### Where certificates come from -/

section Origin

variable {pki : PkiContext} {env : Env} {db db' : Db} {q : CertRequestArgs} {r : CertRequestResult}

/-- A row with the device, the name and the certificate of another one. -/
def IssuedCertificate.SameLeaf (b c : IssuedCertificate) : Prop :=
  c.deviceId = b.deviceId ∧ c.name = b.name ∧ c.certPem = b.certPem

/-- Every row of `db'` is a row of `db` as far as `SameLeaf` goes. -/
def LeavesOf (db db' : Db) : Prop :=
  ∀ c ∈ db'.certificates.rows, ∃ b ∈ db.certificates.rows, b.SameLeaf c

theorem LeavesOf.refl (db : Db) : LeavesOf db db := fun c hc => ⟨c, hc, rfl, rfl, rfl⟩

theorem LeavesOf.trans {db₁ db₂ db₃ : Db} (h : LeavesOf db₁ db₂) (h' : LeavesOf db₂ db₃) :
    LeavesOf db₁ db₃ := by
  intro c hc
  obtain ⟨b, hb, hdevice, hname, hcert⟩ := h' c hc
  obtain ⟨a, ha, hdevice', hname', hcert'⟩ := h b hb
  exact ⟨a, ha, hdevice.trans hdevice', hname.trans hname', hcert.trans hcert'⟩

theorem leavesOf_modify {p : IssuedCertificate → Prop} [DecidablePred p]
    {f : IssuedCertificate → IssuedCertificate} {hf : ∀ c, (f c).id = c.id}
    (hleaf : ∀ c : IssuedCertificate, c.SameLeaf (f c)) :
    LeavesOf db { db with certificates := db.certificates.modify p f hf } := by
  intro c hc
  rcases SerialTable.mem_modify.mp hc with ⟨b, hb, -, rfl⟩ | ⟨hc, -⟩
  · exact ⟨b, hb, hleaf b⟩
  · exact ⟨c, hc, rfl, rfl, rfl⟩

theorem leavesOf_markRevoked (p : IssuedCertificate → Prop) [DecidablePred p]
    (reason : RevokeReason) : LeavesOf db (markRevoked env p reason db) :=
  leavesOf_modify fun _ => ⟨rfl, rfl, rfl⟩

theorem leavesOf_superseded : LeavesOf db (superseded pki env q db) := by
  simp only [superseded, supersedeActiveCerts]
  split_ifs
  · exact .refl db
  · exact leavesOf_markRevoked _ _

theorem leavesOf_replaceCert (orgId : OrganizationId) (currentId newId : ℕ) :
    LeavesOf db (replaceCert pki env orgId currentId newId db) := by
  have hmodify : LeavesOf (markRevoked env (fun c => c.id = currentId) .renewed db)
      (replaceCert pki env orgId currentId newId db) := leavesOf_modify fun _ => ⟨rfl, rfl, rfl⟩
  exact (leavesOf_markRevoked _ _).trans hmodify

theorem subject_of_signCsr {orgId : OrganizationId} {csrPem : String} {sans : List String}
    {leaf : X509Certificate} (h : signCsr pki env orgId csrPem sans = some leaf) :
    ∃ csr, pki.parseCsr csrPem = some csr ∧ leaf.subject = csr.subject := by
  simp only [signCsr] at h
  obtain ⟨csr, hcsr, h⟩ := Option.bind_eq_some_iff.mp h
  obtain ⟨names, -, h⟩ := Option.bind_eq_some_iff.mp h
  cases h
  exact ⟨csr, hcsr, rfl⟩

/-- A certificate signed for a request: its subject is the one of the PKCS #10 request. -/
theorem subject_of_newCertificate {request : CertificateRequest} {leaf : X509Certificate} {id : ℕ}
    (hleaf : request.sign pki env = some leaf)
    (hbound : request.name = "device-identity" → BoundCsr pki request.csrPem request.deviceId)
    (hname : (newCertificate env request leaf id).name = "device-identity") :
    (newCertificate env request leaf id).certPem.subject.commonName = some request.deviceId := by
  obtain ⟨csr, hcsr, hsubject⟩ := subject_of_signCsr hleaf
  show leaf.subject.commonName = some request.deviceId
  rw [hsubject]
  exact hbound hname csr hcsr

end Origin

/-! ### Steps and runs -/

section Runs

variable {ctx : Context} {pki : PkiContext} {env : Env} {db db' : Db}

theorem SubjectBound.leavesOf (hbound : SubjectBound db) (h : LeavesOf db db') :
    SubjectBound db' := by
  intro c hc hname
  obtain ⟨b, hb, hdevice, hname', hcert⟩ := h c hc
  rw [hcert, hdevice]
  exact hbound b hb (hname'.symm.trans hname)

theorem SubjectBound.issue {request : CertificateRequest} {leaf : X509Certificate}
    (hbound : SubjectBound db) (hleaf : request.sign pki env = some leaf)
    (hcsr : request.name = "device-identity" → BoundCsr pki request.csrPem request.deviceId) :
    SubjectBound (issue env request leaf db) := by
  intro c hc hname
  rcases mem_certificates_issue.mp hc with hc | rfl
  · exact hbound c hc hname
  · exact subject_of_newCertificate hleaf hcsr hname

/-- Processing a request keeps subjects and devices together, if a request that is signed at once
has the device id as its common name. -/
theorem SubjectBound.processed {q : CertRequestArgs} {r : CertRequestResult}
    (hbound : SubjectBound db) (h : Processed pki env q db r db')
    (hcsr : SignedAtOnce db q → q.name = some "device-identity" →
      ∀ pem ∈ q.csrPem, BoundCsr pki pem q.deviceId) : SubjectBound db' := by
  cases h with
  | pending => exact hbound.leavesOf leavesOf_superseded
  | issued htype ht _ hleaf _ =>
    obtain ⟨hname, hpem⟩ := csrPem_of_texts ht
    have hsuperseded : SubjectBound (superseded pki env q db) :=
      hbound.leavesOf leavesOf_superseded
    exact SubjectBound.issue hsuperseded hleaf fun hidentity =>
      hcsr (.inl htype) (hname.trans (congrArg some hidentity)) _ hpem
  | rejected => exact hbound
  | renewed htype _ ht _ howned hleaf _ =>
    obtain ⟨hname, hpem⟩ := csrPem_of_texts ht
    have hsigned : SignedAtOnce db q := .inr ⟨htype, by rw [howned]; rfl⟩
    refine SubjectBound.leavesOf ?_ (leavesOf_replaceCert _ _ _)
    exact SubjectBound.issue hbound hleaf fun hidentity =>
      hcsr hsigned (hname.trans (congrArg some hidentity)) _ hpem

theorem SubjectBound.onEnrollRequest {env' : Env} {topic : Topic}
    {payload : Option EnrollRequestPayload} (hbound : SubjectBound db)
    (hask : AsksForOwn ctx db (.enrollRequest env env' topic payload)) :
    SubjectBound (onEnrollRequest ctx env env' topic payload db).1 := by
  rcases onEnrollRequest_cases ctx env env' topic payload db with
    ⟨h, -⟩ | ⟨request, hrequest, deviceId, token, haccepted, h | ⟨pem, r, hpem, h⟩⟩
  · rw [h]
    exact hbound
  · rw [h]
    exact hbound
  · have henrolled : SubjectBound (enrol ctx.toPkiContext env token deviceId request.facts db) :=
      hbound
    refine henrolled.processed h fun _ _ pem' hpem' => ?_
    cases hpem'
    have hid : (request.registered env token deviceId db).deviceId = deviceId :=
      deviceId_registeredDevice env db token.organizationId deviceId request.facts
    show BoundCsr _ pem (request.registered env token deviceId db).deviceId
    rw [hid]
    exact hask request hrequest deviceId token haccepted pem hpem

theorem SubjectBound.onCertRequest {topic : Topic} {payload : Option CertRequestPayload}
    (hbound : SubjectBound db) (hask : AsksForOwn ctx db (.certRequest env topic payload)) :
    SubjectBound (onCertRequest ctx env topic payload db).1 := by
  rw [onCertRequest_fst]
  rcases hcall : certRequestCall topic payload db with _ | q
  · exact hbound
  · rcases Tx.commit_eq_or (processRequest ctx.toPkiContext env q) db with h | ⟨r, h⟩
    · rw [Option.elim_some, h]
      exact hbound
    · exact hbound.processed (processRequest_run_eq_ok.mp h) (hask q hcall)

theorem SubjectBound.approve {requestId : ℕ} {expectedOrgId : OrganizationId}
    {reviewerUserId : Option UserId} (hbound : SubjectBound db)
    (hask : AsksForOwn ctx db (.approve env requestId expectedOrgId reviewerUserId)) :
    SubjectBound
      ((approve ctx.toPkiContext env requestId expectedOrgId reviewerUserId).commit db) := by
  rcases Tx.commit_eq_or (Controller.approve ctx.toPkiContext env requestId expectedOrgId
    reviewerUserId) db with h | ⟨cert, h⟩
  · rw [h]
    exact hbound
  · obtain ⟨request, leaf, details, hfind, -, -, hleaf, -, -, hdb⟩ := approve_cases h
    rw [hdb]
    have hreviewed : SubjectBound (reviewRequest env requestId reviewerUserId db) := hbound
    exact hreviewed.issue hleaf (hask request hfind)

/-- One message or review keeps subjects and devices together. -/
theorem SubjectBound.receive {a : Issuance} (hbound : SubjectBound db) (hask : AsksForOwn ctx db a)
    (h : receive ctx db a = some db') : SubjectBound db' := by
  cases a with
  | enrollRequest env env' topic payload =>
    cases h
    exact hbound.onEnrollRequest hask
  | certRequest env topic payload =>
    cases h
    exact hbound.onCertRequest hask
  | approve env requestId expectedOrgId reviewerUserId =>
    cases h
    exact hbound.approve hask

/-- **Subjects of identity certificates.** Along every run of enrolment requests, certificate
requests and approvals, from a database without devices, in which no identity request is signed
whose common name is not its device, every identity certificate carries its device id as common
name. -/
theorem subjectBound_of_asksForOwn {tokens : Table EnrollmentToken EnrollmentToken.token}
    (h : Transition.Reaches (receive ctx) (AsksForOwn ctx) (Db.empty tokens) db) :
    SubjectBound db := by
  refine h.invariant SubjectBound (fun hbound hask hstep => hbound.receive hask hstep) ?_
  intro c hc
  cases hc

end Runs

/-! ### A device that asks for the name of another -/

namespace BorrowedName

/-- A controller that reads a PKCS #10 request as one for the common name it is written as. -/
def ctx : Context where
  parseCsr pem := some ⟨[("CN", pem)], 7⟩
  acceptsIpAddress _ := true
  sha256 s := s
  certValidityDays := 365
  crlValidityHours := 24
  crlUrlFor _ := ""
  parseInstant _ := none
  caCertPem _ := ""
  brokerPem := ""
  getMessage _ := ""

/-- One enrolment token. -/
def tokens : Table EnrollmentToken EnrollmentToken.token :=
  Table.empty.save ⟨1, 1, "a", "a", none, none, 0, false⟩

/-- The device `d` enrols with a request for the common name `cn`. -/
def enrols (cn : String) : Issuance :=
  .enrollRequest ⟨1, 5, "edt"⟩ ⟨2, 6, ""⟩ ["edgeguardian", "device", "d", "enroll", "request"]
    (some ⟨some "a", some "d", ⟨none, none, none, none, none⟩, some cn, none, none⟩)

end BorrowedName

/-- A device that enrols with a request for its own name gets a certificate with that name. -/
theorem subjectBound_after_own_name :
    ∃ db, Transition.Reaches (receive BorrowedName.ctx) (AsksForOwn BorrowedName.ctx)
        (Db.empty BorrowedName.tokens) db ∧
      (∃ c ∈ db.certificates.rows, c.name = "device-identity") ∧ SubjectBound db := by
  have hask : AsksForOwn BorrowedName.ctx (Db.empty BorrowedName.tokens)
      (BorrowedName.enrols "d") := by
    rintro _ ⟨⟩ deviceId token haccepted _ ⟨⟩ csr hcsr
    have hid : "d" = deviceId := Option.some.inj haccepted.resolvedId
    cases hcsr
    rw [← hid]
    decide
  obtain ⟨db, hdb, hissued⟩ : ∃ db ∈ receive BorrowedName.ctx (Db.empty BorrowedName.tokens)
      (BorrowedName.enrols "d"), ∃ c ∈ db.certificates.rows, c.name = "device-identity" := by
    decide +kernel
  have hreach : Transition.Reaches (receive BorrowedName.ctx) (AsksForOwn BorrowedName.ctx)
      (Db.empty BorrowedName.tokens) db := .single ⟨_, hask, hdb⟩
  exact ⟨db, hreach, hissued, subjectBound_of_asksForOwn hreach⟩

/-- The device `d` enrols with a request for the common name `e`, and gets it. -/
theorem identity_for_another_name :
    ∃ db, Transition.Reachable (receive BorrowedName.ctx) (Db.empty BorrowedName.tokens) db ∧
      ¬ SubjectBound db :=
  Transition.exists_reaches_of_execBy [BorrowedName.enrols "e"] (by decide +kernel)

end EdgeGuardian.Controller
