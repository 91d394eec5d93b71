import EdgeGuardian.Controller.RequestLifecycle

/-!
# Which certificates can be renewed

A renewal is approved automatically, on the strength of the certificate that the request names by
its serial. The certificate has to be of the device and the name of the request, and not revoked.
That it has not expired, and that it belongs to the organization of the request, is not asked: a
certificate that the rest of the controller no longer counts as active, and one that a device has
kept from another organization, can be renewed.

Source: `controller/src/main/java/com/edgeguardian/controller/service/CertificateService.java`,
lines 93–134, `controller/README.md`, lines 80–84.

## Main definitions

* `Signable`: the request meets everything that is not about the named certificate.
* `Eligible`: the named certificate is of the same device, name and organization, and active.
* `DecidesByEligibility`: a certificate is issued iff the request is eligible.

## Main results

* `decidesByEligibility_iff`: when the decision is the one on eligibility.
-/

namespace EdgeGuardian.Controller

section Renewal

variable (pki : PkiContext) (env : Env) (db : Db) (q : CertRequestArgs)

/-- A renewal that names a serial and whose CSR can be signed: its texts are there, its device is
registered, and the serial of the new certificate is free. -/
structure Signable : Prop where
  renewal : q.type = .renewal
  serial : hasText q.currentSerial
  device : (db.devices.find? q.deviceId).isSome
  signs : ∃ t leaf, q.texts = some t ∧ signCsr pki env q.orgId t.csrPem q.sans = some leaf ∧
    SerialUnused db leaf.serial

/-- The certificate with this serial is of the same device, name and organization, and neither
revoked nor expired. -/
def Eligible : Prop :=
  ∃ c, q.currentSerial.bind (findBySerialNumber db) = some c ∧ c.deviceId = q.deviceId ∧
    some c.name = q.name ∧ c.organizationId = q.orgId ∧ c.revoked = false ∧ env.now < c.notAfter

/-- A certificate is issued iff the request is eligible, and otherwise the request is stored as
rejected and no certificate changes. -/
def DecidesByEligibility : Prop :=
  ∃ r db', (processRequest pki env q).run db = .ok (r, db') ∧
    ((∃ c ∈ r.certificate, c ∈ db'.certificates.rows ∧ c ∉ db.certificates.rows) ↔
      Eligible env db q) ∧
    (¬ Eligible env db q → (∃ row ∈ db'.requests.rows, row.id = r.request.id ∧
      row.state = .rejected) ∧ db'.certificates = db.certificates)

variable {pki env db q}

/-- Eligible requests own their certificate. -/
theorem currentCert_of_eligible (h : Eligible env db q) :
    ∃ c, currentCert db q = some c ∧ c.organizationId = q.orgId ∧ env.now < c.notAfter := by
  obtain ⟨c, hfind, hdevice, hname, horg, hrevoked, hnotAfter⟩ := h
  refine ⟨c, ?_, horg, hnotAfter⟩
  exact Option.filter_eq_some_iff.mpr ⟨hfind, decide_eq_true ⟨hrevoked, hdevice, hname⟩⟩

theorem eligible_of_currentCert {c : IssuedCertificate} (h : currentCert db q = some c)
    (horg : c.organizationId = q.orgId) (hnotAfter : env.now < c.notAfter) :
    Eligible env db q := by
  obtain ⟨hfind, howned⟩ := Option.filter_eq_some_iff.mp h
  obtain ⟨hrevoked, hdevice, hname⟩ := of_decide_eq_true howned
  exact ⟨c, hfind, hdevice, hname, horg, hrevoked, hnotAfter⟩

/-- The row of a rejected renewal. -/
theorem exists_rejected_row (t : RequestTexts) :
    ∃ row ∈ (rejectRequest db.requests.next
      (insertRequest env q t q.currentSerial db)).requests.rows,
      row.id = db.requests.next ∧ row.state = .rejected := by
  have hinserted : newRequest env q t q.currentSerial db.requests.next ∈
      (insertRequest env q t q.currentSerial db).requests.rows :=
    (SerialTable.mem_insert fun _ => rfl).mpr (.inr rfl)
  exact ⟨_, SerialTable.mem_modify.mpr (.inl ⟨_, hinserted, rfl, rfl⟩), rfl, rfl⟩

/-- The certificate that a renewal issues is a new row. -/
theorem mem_replaceCert_issue (pki : PkiContext) (env : Env) (q : CertRequestArgs)
    (t : RequestTexts) (leaf : X509Certificate) {current : IssuedCertificate}
    (hcurrent : current ∈ db.certificates.rows) :
    newCertificate env (newRequest env q t q.currentSerial db.requests.next) leaf
        db.certificates.next ∈
      (replaceCert pki env q.orgId current.id db.certificates.next
        (issue env (newRequest env q t q.currentSerial db.requests.next) leaf
          (insertRequest env q t q.currentSerial db))).certificates.rows := by
  have hne : db.certificates.next ≠ current.id :=
    (Nat.ne_of_lt (db.certificates.id_lt current hcurrent)).symm
  have hissued : newCertificate env (newRequest env q t q.currentSerial db.requests.next) leaf
      db.certificates.next ∈ (issue env (newRequest env q t q.currentSerial db.requests.next) leaf
        (insertRequest env q t q.currentSerial db)).certificates.rows :=
    mem_certificates_issue.mpr (.inr rfl)
  exact SerialTable.mem_modify.mpr
    (.inr ⟨SerialTable.mem_modify.mpr (.inr ⟨hissued, hne⟩), hne⟩)

/-- **When renewals are decided by eligibility.** For every database, time and renewal whose CSR can
be signed, a certificate is issued exactly for an eligible request, and else the request is rejected
without a change to the certificates, if and only if the certificate that the request names, where
the device owns it, is of the organization of the request and has not expired. -/
theorem decidesByEligibility_iff (h : Signable pki env db q) :
    DecidesByEligibility pki env db q ↔
      ∀ c, currentCert db q = some c → c.organizationId = q.orgId ∧ env.now < c.notAfter := by
  obtain ⟨htype, hserial, hdevice, t, leaf, ht, hleaf, hunused⟩ := h
  rcases hcurrent : currentCert db q with _ | current
  · have hineligible : ¬ Eligible env db q := by
      intro heligible
      obtain ⟨c, hc, -⟩ := currentCert_of_eligible heligible
      rw [hcurrent] at hc
      cases hc
    refine iff_of_true ⟨_, _, processRequest_run_eq_ok.mpr
      (.rejected htype hserial ht hdevice hcurrent), ?_, fun _ => ⟨exists_rejected_row t, rfl⟩⟩
      (by simp)
    simp [hineligible]
  · have hmem := mem_of_currentCert hcurrent
    have hrun := processRequest_run_eq_ok.mpr
      (.renewed htype hserial ht hdevice hcurrent hleaf hunused)
    have hnew := mem_replaceCert_issue pki env q t leaf hmem
    have hfresh : newCertificate env (newRequest env q t q.currentSerial db.requests.next) leaf
        db.certificates.next ∉ db.certificates.rows := fun hold =>
      absurd (db.certificates.id_lt _ hold) (Nat.lt_irrefl _)
    constructor
    · rintro ⟨r, db', hok, hissues, -⟩ c hc
      rw [hrun] at hok
      cases hok
      obtain ⟨c', hc', hright⟩ := currentCert_of_eligible (hissues.mp ⟨_, rfl, hnew, hfresh⟩)
      rw [hcurrent] at hc'
      cases hc
      cases hc'
      exact hright
    · intro hright
      obtain ⟨horg, hnotAfter⟩ := hright current rfl
      have heligible := eligible_of_currentCert hcurrent horg hnotAfter
      exact ⟨_, _, hrun, iff_of_true ⟨_, rfl, hnew, hfresh⟩ heligible,
        fun hnot => absurd heligible hnot⟩

end Renewal

namespace Expired

/-- The device asks to renew the certificate with serial 1. -/
def renewal : CertRequestArgs :=
  ⟨"d", 1, some "web", some "d", [], some "csr", .renewal, some "1"⟩

/-- One certificate with serial 1, issued at time 1 and valid for 365 days. -/
def db : Db :=
  Tx.commit (processRequest Review.pki ⟨1, 1, ""⟩ { renewal with type := .manifest }) Review.db

/-- A day after the certificate was issued, and a day after it has expired. -/
def early : Env := ⟨Duration.ofDays 1, 2, ""⟩

def late : Env := ⟨Duration.ofDays 366, 2, ""⟩

theorem signable_early : Signable Review.pki early db renewal :=
  ⟨rfl, by decide, by decide, _, _, rfl, rfl, by decide +kernel⟩

theorem signable_late : Signable Review.pki late db renewal :=
  ⟨rfl, by decide, by decide, _, _, rfl, rfl, by decide +kernel⟩

/-- What the certificate with serial 1 is. -/
theorem notAfter_of_currentCert {c : IssuedCertificate} (h : currentCert db renewal = some c) :
    c.organizationId = 1 ∧ c.notAfter = 1 + Duration.ofDays 365 := by
  have hall : (currentCert db renewal).all fun c =>
      c.organizationId = 1 ∧ c.notAfter = 1 + Duration.ofDays 365 := by decide +kernel
  rw [h] at hall
  simpa using hall

end Expired

open Expired in
/-- The renewal of a certificate that is still active is decided by eligibility. -/
theorem decidesByEligibility_early :
    Signable Review.pki early db renewal ∧ DecidesByEligibility Review.pki early db renewal := by
  refine ⟨signable_early, (decidesByEligibility_iff signable_early).mpr fun c hc => ?_⟩
  obtain ⟨horg, hnotAfter⟩ := notAfter_of_currentCert hc
  rw [hnotAfter]
  exact ⟨horg, by decide⟩

open Expired in
/-- An expired certificate is renewed. -/
theorem expired_certificate_renewed :
    ¬ ∀ (pki : PkiContext) (env : Env) (db : Db) (q : CertRequestArgs), Signable pki env db q →
        DecidesByEligibility pki env db q := by
  intro h
  obtain ⟨r, db', hrun, -, hrejects⟩ := h Review.pki late db renewal signable_late
  have hineligible : ¬ Eligible late db renewal := by
    intro heligible
    obtain ⟨c, hc, -, hlate⟩ := currentCert_of_eligible heligible
    rw [(notAfter_of_currentCert hc).2] at hlate
    exact absurd hlate (by decide)
  have hsame := congrArg (·.rows.length) (hrejects hineligible).2
  rw [← Tx.commit_of_run_eq_ok hrun] at hsame
  exact absurd hsame (by decide +kernel)

end EdgeGuardian.Controller
