import EdgeGuardian.Controller.CrlCompleteness

/-!
# One active certificate for each name of a device

A fresh request supersedes the certificates of its name that are still valid, and a renewal revokes
the one that it replaces, so that each leaves one active certificate of the name. Superseding takes
place when the request is made and not when it is signed. A request that waits for approval is
signed later, next to whatever was issued for the name in the meantime. Certificates that have
expired are not superseded, and stay unrevoked.

Source: `controller/src/main/java/com/edgeguardian/controller/service/CertificateService.java`,
`controller/README.md`.

## Main definitions

* `Active`, `OneActivePerName`: the property.
* `leftUnrevoked`, `Superseding`: the unrevoked certificates that an operation leaves beside the
  one it issues, and the operations that leave none.

## Main results

* `OneUnrevoked.step`: an operation that leaves none keeps one unrevoked certificate per name.
* `oneActivePerName_of_superseding`: runs of such operations.
-/

namespace EdgeGuardian.Controller

/-- A certificate that is not revoked and is valid beyond the time `t`. -/
def Active (t : Instant) (c : IssuedCertificate) : Prop := c.revoked = false ∧ t < c.notAfter

/-- At every time there is at most one active certificate per device and name. -/
def OneActivePerName (db : Db) : Prop :=
  ∀ t, ∀ c ∈ db.certificates.rows, ∀ c' ∈ db.certificates.rows, c.deviceId = c'.deviceId →
    c.name = c'.name → Active t c → Active t c' → c = c'

/-- At most one certificate per device and name is not revoked. -/
def OneUnrevoked (db : Db) : Prop :=
  ∀ c ∈ db.certificates.rows, ∀ c' ∈ db.certificates.rows, c.deviceId = c'.deviceId →
    c.name = c'.name → c.revoked = false → c'.revoked = false → c = c'

theorem OneUnrevoked.oneActivePerName {db : Db} (h : OneUnrevoked db) : OneActivePerName db :=
  fun _ c hc c' hc' hdevice hname hactive hactive' =>
    h c hc c' hc' hdevice hname hactive.1 hactive'.1

/-- The unrevoked certificates of the name for which an operation issues at once or by an approval,
and that it does not revoke: those that expired before a fresh request, and all of them at an
approval. -/
def leftUnrevoked (env : Env) (db : Db) : Operation → List IssuedCertificate
  | .processRequest q =>
    if q.type = .manifest then
      db.certificates.rows.filter fun c =>
        c.deviceId = q.deviceId ∧ some c.name = q.name ∧ c.revoked = false ∧ c.notAfter ≤ env.now
    else []
  | .approve requestId _ _ =>
    match db.requests.find? requestId with
    | some request => db.certificates.rows.filter fun c =>
      c.deviceId = request.deviceId ∧ c.name = request.name ∧ c.revoked = false
    | none => []
  | _ => []

/-- An operation that leaves no unrevoked certificate beside the one that it issues. -/
def Superseding (db : Db) (a : Env × Operation) : Prop := leftUnrevoked a.1 db a.2 = []

instance (db : Db) (a : Env × Operation) : Decidable (Superseding db a) :=
  inferInstanceAs (Decidable (_ = _))

/-! ### The rows that stay unrevoked -/

section Rows

variable {pki : PkiContext} {env : Env} {db db' : Db} {q : CertRequestArgs}

theorem mem_of_unrevoked_modify {p : IssuedCertificate → Prop} [DecidablePred p]
    {f : IssuedCertificate → IssuedCertificate} {hf : ∀ c, (f c).id = c.id}
    (hrevoked : ∀ c, (f c).revoked = true) {c : IssuedCertificate}
    (hc : c ∈ (db.certificates.modify p f hf).rows) (hun : c.revoked = false) :
    c ∈ db.certificates.rows ∧ ¬ p c := by
  rcases SerialTable.mem_modify.mp hc with ⟨b, -, -, rfl⟩ | hc
  · rw [hrevoked] at hun
    exact nomatch hun
  · exact hc

/-- A certificate that a fresh request leaves unrevoked was not active for its name. -/
theorem mem_of_unrevoked_superseded {c : IssuedCertificate}
    (hc : c ∈ (superseded pki env q db).certificates.rows) (hun : c.revoked = false) :
    c ∈ db.certificates.rows ∧ ¬ ActiveForName env q.deviceId q.name c := by
  rw [superseded, supersedeActiveCerts] at hc
  split_ifs at hc with hserials
  · refine ⟨hc, fun hactive => ?_⟩
    rw [serialsOf, List.map_eq_nil_iff, List.filter_eq_nil_iff] at hserials
    exact hserials c hc (decide_eq_true hactive)
  · exact mem_of_unrevoked_modify (fun _ => rfl) hc hun

theorem mem_of_unrevoked_revokeAll {deviceId : String} {orgId : OrganizationId}
    {reason : RevokeReason} {actorUserId : Option UserId} {c : IssuedCertificate}
    (hc : c ∈ (revokeAllActiveForDevice pki env deviceId orgId reason actorUserId
      db).2.certificates.rows)
    (hun : c.revoked = false) : c ∈ db.certificates.rows := by
  rw [revokeAllActiveForDevice] at hc
  split_ifs at hc
  · exact hc
  · exact (mem_of_unrevoked_modify (fun _ => rfl) hc hun).1

/-- A certificate that is unrevoked after a renewal is not the one replaced. -/
theorem mem_of_unrevoked_replaceCert {orgId : OrganizationId} {currentId newId : ℕ}
    {c : IssuedCertificate}
    (hc : c ∈ (replaceCert pki env orgId currentId newId db).certificates.rows)
    (hun : c.revoked = false) : c ∈ db.certificates.rows ∧ c.id ≠ currentId := by
  rcases SerialTable.mem_modify.mp hc with ⟨b, hb, hid, rfl⟩ | ⟨hc, hid⟩
  · exact absurd hid (mem_of_unrevoked_modify (fun _ => rfl) hb hun).2
  · exact ⟨(mem_of_unrevoked_modify (fun _ => rfl) hc hun).1, hid⟩

theorem mem_of_unrevoked_deleteDevice {deviceId : String} {actorUserId : Option UserId}
    (h : (deleteDevice pki env deviceId actorUserId).run db = .ok ((), db'))
    {c : IssuedCertificate} (hc : c ∈ db'.certificates.rows) (hun : c.revoked = false) :
    c ∈ db.certificates.rows := by
  obtain ⟨device, details, -, rfl⟩ := deleteDevice_cases h
  have hmem : c ∈ ((ledger (revokeAllActiveForDevice pki env deviceId device.organizationId
      .deviceDeleted actorUserId db).2).forget fun c => c.deviceId = deviceId).rows := by
    rw [← ledger_deleted]
    exact hc
  exact mem_of_unrevoked_revokeAll hmem.1 hun

end Rows

/-! ### Steps and runs -/

section Runs

variable {pki : PkiContext} {env : Env} {db db' : Db}

/-- It is kept by everything that adds no unrevoked certificate. -/
theorem OneUnrevoked.of_subset (h : OneUnrevoked db)
    (hsub : ∀ c ∈ db'.certificates.rows, c.revoked = false → c ∈ db.certificates.rows) :
    OneUnrevoked db' :=
  fun c hc c' hc' hdevice hname hun hun' =>
    h c (hsub c hc hun) c' (hsub c' hc' hun') hdevice hname hun hun'

/-- It is kept by a certificate whose name has no other unrevoked one. -/
theorem OneUnrevoked.issue {request : CertificateRequest} {leaf : X509Certificate}
    (h : OneUnrevoked db)
    (hname : ∀ c ∈ db.certificates.rows, c.deviceId = request.deviceId → c.name = request.name →
      c.revoked ≠ false) : OneUnrevoked (issue env request leaf db) := by
  intro c hc c' hc' hdevice hcname hun hun'
  rcases mem_certificates_issue.mp hc with hc | rfl <;>
    rcases mem_certificates_issue.mp hc' with hc' | rfl
  · exact h c hc c' hc' hdevice hcname hun hun'
  · exact absurd hun (hname c hc hdevice hcname)
  · exact absurd hun' (hname c' hc' hdevice.symm hcname.symm)
  · rfl

/-- A renewal issues beside the one unrevoked certificate of its name, and revokes it. -/
theorem OneUnrevoked.renewed {q : CertRequestArgs} {t : RequestTexts} {leaf : X509Certificate}
    {current : IssuedCertificate} (h : OneUnrevoked db) (ht : q.texts = some t)
    (howned : currentCert db q = some current) :
    OneUnrevoked (replaceCert pki env q.orgId current.id db.certificates.next
      (Controller.issue env (newRequest env q t q.currentSerial db.requests.next) leaf
        (insertRequest env q t q.currentSerial db))) := by
  have hcurrent := mem_of_currentCert howned
  obtain ⟨hun₀, hdevice₀, hname₀⟩ := of_decide_eq_true (Option.filter_eq_some_iff.mp howned).2
  rw [(csrPem_of_texts ht).1, Option.some.injEq] at hname₀
  -- No old certificate of the name is left unrevoked: it would be the current one.
  have hold : ∀ c ∈ db.certificates.rows, c.id ≠ current.id → c.deviceId = q.deviceId →
      c.name = t.name → c.revoked ≠ false := by
    intro c hc hid hdevice hname hun
    rw [h c hc current hcurrent (hdevice.trans hdevice₀.symm) (hname.trans hname₀.symm) hun
      hun₀] at hid
    exact hid rfl
  intro c hc c' hc' hdevice hname hun hun'
  obtain ⟨hc, hid⟩ := mem_of_unrevoked_replaceCert hc hun
  obtain ⟨hc', hid'⟩ := mem_of_unrevoked_replaceCert hc' hun'
  rcases mem_certificates_issue.mp hc with hc | rfl <;>
    rcases mem_certificates_issue.mp hc' with hc' | rfl
  · exact h c hc c' hc' hdevice hname hun hun'
  · exact absurd hun (hold c hc hid hdevice hname)
  · exact absurd hun' (hold c' hc' hid' hdevice.symm hname.symm)
  · rfl

theorem OneUnrevoked.processed {q : CertRequestArgs} {r : CertRequestResult}
    (h : OneUnrevoked db) (hleft : Superseding db (env, .processRequest q))
    (hprocessed : Processed pki env q db r db') : OneUnrevoked db' := by
  have hsuperseded : OneUnrevoked (superseded pki env q db) :=
    h.of_subset fun c hc hun => (mem_of_unrevoked_superseded hc hun).1
  cases hprocessed with
  | pending _ _ _ => exact hsuperseded
  | @issued t leaf htype ht _ _ _ =>
    refine OneUnrevoked.issue hsuperseded fun c hc hdevice hname hun => ?_
    obtain ⟨hc, hactive⟩ := mem_of_unrevoked_superseded hc hun
    have hname : some c.name = q.name := by rw [(csrPem_of_texts ht).1, hname, newRequest]
    have hexpired : c.notAfter ≤ env.now :=
      Nat.le_of_not_lt fun hlt => hactive ⟨hdevice, hname, hun, hlt⟩
    rw [Superseding, leftUnrevoked, if_pos htype, List.filter_eq_nil_iff] at hleft
    exact hleft c hc (decide_eq_true ⟨hdevice, hname, hun, hexpired⟩)
  | rejected _ _ _ _ _ => exact h
  | renewed _ _ ht _ howned _ _ => exact h.renewed ht howned

theorem OneUnrevoked.step {a : Env × Operation} (h : OneUnrevoked db) (hleft : Superseding db a)
    (hstep : step pki db a = some db') : OneUnrevoked db' := by
  obtain ⟨env, op⟩ := a
  have hrun := step_eq_some_iff.mp hstep
  cases op with
  | processRequest q =>
    obtain ⟨r, hrun⟩ := Tx.run_discard_eq_ok hrun
    exact h.processed hleft (processRequest_run_eq_ok.mp hrun)
  | approve requestId expectedOrgId reviewerUserId =>
    obtain ⟨r, hrun⟩ := Tx.run_discard_eq_ok hrun
    obtain ⟨request, leaf, details, hfind, -, -, -, -, -, rfl⟩ := approve_cases hrun
    simp only [Superseding, leftUnrevoked, hfind, List.filter_eq_nil_iff] at hleft
    refine OneUnrevoked.issue h fun c hc hdevice hname hun => ?_
    exact hleft c hc (decide_eq_true ⟨hdevice, hname, hun⟩)
  | reject requestId expectedOrgId reviewerUserId reason =>
    obtain ⟨request, details, -, -, -, rfl⟩ := reject_cases hrun
    exact h
  | revoke certificateId expectedOrgId userId =>
    obtain ⟨cert, details, -, -, -, rfl⟩ := revoke_cases hrun
    exact h.of_subset fun c hc hun => (mem_of_unrevoked_modify (fun _ => rfl) hc hun).1
  | revokeAllActiveForDevice deviceId orgId reason actorUserId =>
    obtain ⟨-, rfl⟩ := Prod.mk.inj (Tx.run_modify_eq_ok.mp hrun)
    exact h.of_subset fun c hc hun => mem_of_unrevoked_revokeAll hc hun
  | enrollDevice tokenValue deviceId facts =>
    obtain ⟨r, hrun⟩ := Tx.run_discard_eq_ok hrun
    obtain ⟨token, -, -, -, -, rfl⟩ := enrollDevice_run_eq_ok.mp hrun
    exact h
  | register orgId deviceId facts =>
    obtain ⟨-, hrun⟩ := Tx.run_require_bind_eq_ok.mp hrun
    obtain ⟨-, rfl⟩ := Prod.mk.inj (Tx.run_modify_eq_ok.mp hrun)
    exact h
  | deleteDevice deviceId actorUserId =>
    exact h.of_subset fun c hc hun => mem_of_unrevoked_deleteDevice hrun hc hun

end Runs

/-- **At most one active certificate per device and name**, in every run from an empty database in
which no operation issues a certificate next to an unrevoked one of the name. -/
theorem oneActivePerName_of_superseding {pki : PkiContext}
    {tokens : Table EnrollmentToken EnrollmentToken.token} {db : Db}
    (h : Transition.Reaches (step pki) Superseding (Db.empty tokens) db) : OneActivePerName db := by
  have hun : OneUnrevoked db := by
    refine h.invariant OneUnrevoked (fun hdb ha hstep => hdb.step ha hstep) ?_
    intro c hc
    cases hc
  exact hun.oneActivePerName

/-! ### Two requests that wait for approval -/

namespace Approvals

/-- The device asks for a certificate that an administrator has to approve. -/
def asks (now : Instant) : Env × Operation :=
  (⟨now, now, "edt"⟩, .processRequest
    ⟨"d", 1, some "tls", some "d", [], some "csr", .initial, none⟩)

/-- An administrator approves a request. -/
def approves (now : Instant) (requestId : ℕ) : Env × Operation :=
  (⟨now, now, "edt"⟩, .approve requestId 1 (some 7))

end Approvals

/-- Requests that are approved one after the other: the second one supersedes the certificate of the
first. -/
theorem oneActivePerName_after_approvals_in_turn :
    ∃ db, Transition.Reaches (step Reenrolment.pki) Superseding (Db.empty Reenrolment.tokens) db ∧
      (∃ c ∈ db.certificates.rows, Active 9 c) ∧ OneActivePerName db := by
  have hrun : ∃ db, Transition.Reaches (step Reenrolment.pki) Superseding
      (Db.empty Reenrolment.tokens) db ∧
      ∃ c ∈ db.certificates.rows, c.revoked = false ∧ 9 < c.notAfter :=
    Transition.exists_reaches_of_execBy
      [Reenrolment.enrol 1 "a", Approvals.asks 2, Approvals.approves 3 1, Approvals.asks 4,
        Approvals.approves 5 2]
      (by decide +kernel)
  obtain ⟨db, hreach, hactive⟩ := hrun
  exact ⟨db, hreach, hactive, oneActivePerName_of_superseding hreach⟩

/-- Two requests for one name that are both approved: nothing supersedes the first certificate, as
there was none yet when the second request was made. -/
theorem two_active_after_two_approvals :
    ∃ db, Transition.Reachable (step Reenrolment.pki) (Db.empty Reenrolment.tokens) db ∧
      ¬ OneActivePerName db := by
  have hrun : ∃ db, Transition.Reachable (step Reenrolment.pki) (Db.empty Reenrolment.tokens) db ∧
      ∃ c ∈ db.certificates.rows, ∃ c' ∈ db.certificates.rows, c.deviceId = c'.deviceId ∧
        c.name = c'.name ∧ (c.revoked = false ∧ 9 < c.notAfter) ∧
        (c'.revoked = false ∧ 9 < c'.notAfter) ∧ c.id ≠ c'.id :=
    Transition.exists_reaches_of_execBy
      [Reenrolment.enrol 1 "a", Approvals.asks 2, Approvals.asks 3, Approvals.approves 4 1,
        Approvals.approves 5 2]
      (by decide +kernel)
  obtain ⟨db, hreach, c, hc, c', hc', hdevice, hname, hactive, hactive', hne⟩ := hrun
  refine ⟨db, hreach, fun h => hne ?_⟩
  rw [h 9 c hc c' hc' hdevice hname hactive hactive']

end EdgeGuardian.Controller
