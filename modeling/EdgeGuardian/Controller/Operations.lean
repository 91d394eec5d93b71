import EdgeGuardian.Controller.Devices
import EdgeGuardian.Lib.RevocationLedger
import EdgeGuardian.Lib.Transition

/-!
# Runs of the controller's operations

A run is a sequence of committed transactions, each of one service method, with its own clock
reading and random numbers. As far as certificates and revocation lists are concerned, every
operation is a sequence of steps of a ledger: rows are issued, revoked together with the
publication of one list, or forgotten with their device.

## Main definitions

* `Operation`, `perform`, `step`: the operations and their committed steps.
* `ledger`: the certificates and the published lists of a database.
* `Revokes`, `Forgets`, `rebuildsFor`, `issuesFor`: the rows and the organization that an operation
  concerns.

## Main results

* `steps_ledger`: a committed operation is a sequence of ledger steps, under every policy that
  the rows it concerns meet.
-/

namespace EdgeGuardian.Controller

/-! ### Operations -/

/-- The service methods that write devices, certificates and revocation lists. -/
inductive Operation
  | processRequest (q : CertRequestArgs)
  | approve (requestId : ℕ) (expectedOrgId : OrganizationId) (reviewerUserId : Option UserId)
  | reject (requestId : ℕ) (expectedOrgId : OrganizationId) (reviewerUserId : Option UserId)
      (reason : Option String)
  | revoke (certificateId : ℕ) (expectedOrgId : OrganizationId) (userId : Option UserId)
  | revokeAllActiveForDevice (deviceId : String) (orgId : OrganizationId) (reason : RevokeReason)
      (actorUserId : Option UserId)
  | enrollDevice (tokenValue deviceId : String) (facts : DeviceFacts)
  | register (orgId : OrganizationId) (deviceId : String) (facts : DeviceFacts)
  | deleteDevice (deviceId : String) (actorUserId : Option UserId)
deriving DecidableEq, Repr

/-- The transaction of an operation, without its result. -/
def perform (pki : PkiContext) (env : Env) : Operation → Service Unit
  | .processRequest q => do let _ ← processRequest pki env q
  | .approve requestId expectedOrgId reviewerUserId => do
    let _ ← approve pki env requestId expectedOrgId reviewerUserId
  | .reject requestId expectedOrgId reviewerUserId reason =>
    reject env requestId expectedOrgId reviewerUserId reason
  | .revoke certificateId expectedOrgId userId => revoke pki env certificateId expectedOrgId userId
  | .revokeAllActiveForDevice deviceId orgId reason actorUserId =>
    modify fun db => (revokeAllActiveForDevice pki env deviceId orgId reason actorUserId db).2
  | .enrollDevice tokenValue deviceId facts => do
    let _ ← enrollDevice pki env tokenValue deviceId facts
  | .register orgId deviceId facts => do
    Tx.require (facts.Fits deviceId) .dataIntegrity
    modify fun db => (register env orgId deviceId facts db).2
  | .deleteDevice deviceId actorUserId => deleteDevice pki env deviceId actorUserId

/-- A committed operation; one that throws is no step. -/
def step (pki : PkiContext) (db : Db) (a : Env × Operation) : Option Db :=
  match (perform pki a.1 a.2).run db with
  | .ok (_, db') => some db'
  | .error _ => none

theorem step_eq_some_iff {pki : PkiContext} {db db' : Db} {a : Env × Operation} :
    step pki db a = some db' ↔ (perform pki a.1 a.2).run db = .ok ((), db') := by
  rw [step]
  rcases (perform pki a.1 a.2).run db with e | ⟨_, u⟩ <;> simp

/-! ### The ledger of a database -/

/-- What a certificate row says to a revocation ledger. -/
def columns : Ledger.Columns IssuedCertificate OrganizationId ℕ where
  org := IssuedCertificate.organizationId
  serial := IssuedCertificate.serialNumber
  expires := IssuedCertificate.notAfter
  revoked := fun c => c.revoked

/-- The certificates and the published revocation lists. -/
def ledger (db : Db) : Ledger IssuedCertificate OrganizationId ℕ where
  rows := {c | c ∈ db.certificates.rows}
  published := fun orgId => (db.crls.find? orgId).map fun crl =>
    {s | ∃ e ∈ crl.crlDer, e.serialNumber = s}

variable {pki : PkiContext} {env : Env} {db db' : Db}

theorem mem_crlEntries {orgId : OrganizationId} {s : ℕ} :
    (∃ e ∈ crlEntries env orgId db, e.serialNumber = s) ↔
      ∃ c ∈ db.certificates.rows, c.organizationId = orgId ∧ c.revoked ∧ c.serialNumber = s := by
  simp only [crlEntries, findByOrganizationIdOrderByCreatedAtDesc, List.mem_map, List.mem_filter,
    List.mem_insertionSort, decide_eq_true_eq]
  constructor
  · rintro ⟨_, ⟨c, ⟨⟨hc, horg⟩, hrev⟩, rfl⟩, rfl⟩
    exact ⟨c, hc, horg, hrev, rfl⟩
  · rintro ⟨c, hc, horg, hrev, rfl⟩
    exact ⟨_, ⟨c, ⟨⟨hc, horg⟩, hrev⟩, rfl⟩, rfl⟩

theorem ledger_rebuild (pki : PkiContext) (env : Env) (db : Db) (orgId : OrganizationId) :
    ledger (rebuild pki env orgId db) = Ledger.publish columns (ledger db) orgId := by
  simp only [ledger, Ledger.publish, rebuild]
  congr 1
  funext o
  by_cases ho : o = orgId
  · subst ho
    simp only [Table.find?_save, if_true, Option.map_some, Function.update_self]
    congr 1
    ext s
    exact mem_crlEntries
  · simp [Table.find?_save, ho]

theorem ledger_modify (p : IssuedCertificate → Prop) [DecidablePred p]
    (f : IssuedCertificate → IssuedCertificate) (hf : ∀ c, (f c).id = c.id) :
    ledger { db with certificates := db.certificates.modify p f hf } = (ledger db).revise p f := by
  rw [ledger, Ledger.revise]
  congr 1
  ext c
  exact SerialTable.mem_modify

theorem ledger_markRevoked (p : IssuedCertificate → Prop) [DecidablePred p]
    (reason : RevokeReason) : ledger (markRevoked env p reason db) =
      (ledger db).revise p (·.markedRevoked env reason) :=
  ledger_modify p _ _

theorem revises_markedRevoked (reason : RevokeReason) :
    columns.Revises (·.markedRevoked env reason) where
  org _ := rfl
  serial _ := rfl
  expires _ := rfl
  revoked _ := rfl

theorem ledger_issue (request : CertificateRequest) (leaf : X509Certificate) :
    ledger (issue env request leaf db) =
      (ledger db).issue (newCertificate env request leaf db.certificates.next) := by
  rw [ledger, Ledger.issue]
  congr 1
  ext c
  exact mem_certificates_issue.trans or_comm

theorem ledger_deleteDeviceRow (deviceId : String) :
    ledger (deleteDeviceRow deviceId db) = (ledger db).forget fun c => c.deviceId = deviceId := by
  rw [ledger, Ledger.forget, deleteDeviceRow]
  congr 1
  ext c
  exact SerialTable.mem_delete

/-- The row of a renewed certificate. -/
def IssuedCertificate.replaced (env : Env) (newId : ℕ) (c : IssuedCertificate) :
    IssuedCertificate :=
  { c.markedRevoked env .renewed with replacedBy := some newId }

theorem revises_replaced (newId : ℕ) : columns.Revises (·.replaced env newId) where
  org _ := rfl
  serial _ := rfl
  expires _ := rfl
  revoked _ := rfl

theorem ledger_replaceCert (orgId : OrganizationId) (currentId newId : ℕ) :
    ledger (replaceCert pki env orgId currentId newId db) = Ledger.publish columns
      ((ledger db).revise (fun c => c.id = currentId) (·.replaced env newId)) orgId := by
  rw [replaceCert, ledger_rebuild, ledger_modify, ledger_markRevoked,
    Ledger.revise_revise]
  · rfl
  · exact fun _ h => h

/-! ### The rows that an operation concerns -/

/-- The rows that an operation revokes, if it commits. -/
def Revokes (env : Env) (db : Db) : Operation → IssuedCertificate → Prop
  | .processRequest q, c =>
    if q.type = .renewal then currentCert db q = some c else ActiveForName env q.deviceId q.name c
  | .revoke certificateId _ _, c => c.id = certificateId
  | .revokeAllActiveForDevice deviceId _ _ _, c => ActiveForDevice env deviceId c
  | .deleteDevice deviceId _, c => ActiveForDevice env deviceId c
  | _, _ => False

/-- The organization whose list an operation rebuilds when it revokes. -/
def rebuildsFor (db : Db) : Operation → Option OrganizationId
  | .processRequest q => some q.orgId
  | .revoke certificateId _ _ =>
    (db.certificates.find? certificateId).map IssuedCertificate.organizationId
  | .revokeAllActiveForDevice _ orgId _ _ => some orgId
  | .deleteDevice deviceId _ => (db.devices.find? deviceId).map Device.organizationId
  | _ => none

/-- The organization for which an operation may issue a certificate. -/
def issuesFor : Operation → Option OrganizationId
  | .processRequest q => some q.orgId
  | .approve _ expectedOrgId _ => some expectedOrgId
  | _ => none

/-- The rows that the schema deletes with a device. -/
def Forgets : Operation → IssuedCertificate → Prop
  | .deleteDevice deviceId _, c => c.deviceId = deviceId
  | _, _ => False

instance (env : Env) (db : Db) : (op : Operation) → DecidablePred (Revokes env db op)
  | .processRequest q => fun c => inferInstanceAs (Decidable (if q.type = .renewal then
      currentCert db q = some c else ActiveForName env q.deviceId q.name c))
  | .revoke _ _ _ => fun _ => inferInstanceAs (Decidable (_ = _))
  | .revokeAllActiveForDevice _ _ _ _ => fun _ =>
    inferInstanceAs (Decidable (ActiveForDevice _ _ _))
  | .deleteDevice _ _ => fun _ => inferInstanceAs (Decidable (ActiveForDevice _ _ _))
  | .approve _ _ _ => fun _ => inferInstanceAs (Decidable False)
  | .reject _ _ _ _ => fun _ => inferInstanceAs (Decidable False)
  | .enrollDevice _ _ _ => fun _ => inferInstanceAs (Decidable False)
  | .register _ _ _ => fun _ => inferInstanceAs (Decidable False)

instance : (op : Operation) → DecidablePred (Forgets op)
  | .deleteDevice _ _ => fun _ => inferInstanceAs (Decidable (_ = _))
  | .processRequest _ => fun _ => inferInstanceAs (Decidable False)
  | .approve _ _ _ => fun _ => inferInstanceAs (Decidable False)
  | .reject _ _ _ _ => fun _ => inferInstanceAs (Decidable False)
  | .revoke _ _ _ => fun _ => inferInstanceAs (Decidable False)
  | .revokeAllActiveForDevice _ _ _ _ => fun _ => inferInstanceAs (Decidable False)
  | .enrollDevice _ _ _ => fun _ => inferInstanceAs (Decidable False)
  | .register _ _ _ => fun _ => inferInstanceAs (Decidable False)

/-! ### Operations as ledger steps -/

section Simulation

variable {P : Ledger.Policy IssuedCertificate OrganizationId}

theorem ledger_supersedeActiveCerts (pki : PkiContext) (env : Env) (deviceId : String)
    (orgId : OrganizationId) (name : Option String) (type : CertRequestType) (db : Db) :
    ledger (supersedeActiveCerts pki env deviceId orgId name type db) = ledger db ∨
      ledger (supersedeActiveCerts pki env deviceId orgId name type db) = Ledger.publish columns
        ((ledger db).revise (ActiveForName env deviceId name) (·.markedRevoked env .superseded))
        orgId := by
  simp only [supersedeActiveCerts]
  split_ifs
  · exact .inl rfl
  · refine .inr ?_
    rw [← ledger_markRevoked, ← ledger_rebuild pki env]
    rfl

theorem ledger_revokeAllActiveForDevice (pki : PkiContext) (env : Env) (deviceId : String)
    (orgId : OrganizationId) (reason : RevokeReason) (actorUserId : Option UserId) (db : Db) :
    ledger (revokeAllActiveForDevice pki env deviceId orgId reason actorUserId db).2 = ledger db ∨
      ledger (revokeAllActiveForDevice pki env deviceId orgId reason actorUserId db).2 =
        Ledger.publish columns ((ledger db).revise (ActiveForDevice env deviceId)
          (·.markedRevoked env reason)) orgId := by
  simp only [revokeAllActiveForDevice]
  split_ifs
  · exact .inl rfl
  · refine .inr ?_
    rw [← ledger_markRevoked, ← ledger_rebuild pki env]
    rfl

theorem step_ledger_issue {request : CertificateRequest} {leaf : X509Certificate}
    (hserial : SerialUnused db leaf.serial)
    (hfresh : P.fresh → ¬ (ledger db).Listed request.organizationId leaf.serial) :
    Ledger.Step columns P (ledger db) (ledger (issue env request leaf db)) := by
  rw [ledger_issue]
  exact .issue (by simp [columns, newCertificate]) hserial hfresh

/-- Revoking the rows that meet `p` and rebuilding the list is one step, and no step if there are
no such rows. -/
theorem steps_ledger_of_marked {p : IssuedCertificate → Prop} {reason : RevokeReason}
    {orgId : OrganizationId}
    (h : ledger db' = ledger db ∨ ledger db' = Ledger.publish columns
      ((ledger db).revise p (·.markedRevoked env reason)) orgId)
    (hrevoke : ∀ c ∈ db.certificates.rows, p c → P.revoke c orgId) :
    Ledger.Steps columns P (ledger db) (ledger db') := by
  rcases h with h | h
  · rw [h]
  · rw [h]
    exact .single (.revoke orgId (revises_markedRevoked reason) hrevoke)

theorem steps_ledger_superseded {q : CertRequestArgs}
    (hrevoke : ∀ c ∈ db.certificates.rows, ActiveForName env q.deviceId q.name c →
      P.revoke c q.orgId) :
    Ledger.Steps columns P (ledger db) (ledger (superseded pki env q db)) :=
  steps_ledger_of_marked
    (ledger_supersedeActiveCerts pki env q.deviceId q.orgId q.name q.type db) hrevoke

theorem steps_ledger_revokeAll {deviceId : String} {orgId : OrganizationId}
    {reason : RevokeReason} {actorUserId : Option UserId}
    (hrevoke : ∀ c ∈ db.certificates.rows, ActiveForDevice env deviceId c → P.revoke c orgId) :
    Ledger.Steps columns P (ledger db)
      (ledger (revokeAllActiveForDevice pki env deviceId orgId reason actorUserId db).2) :=
  steps_ledger_of_marked
    (ledger_revokeAllActiveForDevice pki env deviceId orgId reason actorUserId db) hrevoke

/-- The rows after revoking the certificates of a device are what became of the rows before. -/
theorem exists_follows_of_mem_revokeAll {deviceId : String} {orgId : OrganizationId}
    {reason : RevokeReason} {actorUserId : Option UserId} {c : IssuedCertificate}
    (hc : c ∈ (ledger
      (revokeAllActiveForDevice pki env deviceId orgId reason actorUserId db).2).rows) :
    ∃ b ∈ db.certificates.rows, columns.Follows b c ∧ c.deviceId = b.deviceId := by
  rcases ledger_revokeAllActiveForDevice pki env deviceId orgId reason actorUserId db with h | h
  · rw [h] at hc
    exact ⟨c, hc, .refl columns c, rfl⟩
  · rw [h] at hc
    rcases hc with ⟨b, hb, -, rfl⟩ | ⟨hc, -⟩
    · exact ⟨b, hb, ⟨rfl, rfl, rfl, fun _ => rfl⟩, rfl⟩
    · exact ⟨c, hc, .refl columns c, rfl⟩

/-- The ledger after the writes of `deleteDevice` that follow the revocation. -/
theorem ledger_deleted (deviceId : String) (orgId : OrganizationId) (reason : Option String)
    (actorUserId : Option UserId) (details : List (String × Json)) :
    ledger (log env orgId actorUserId "device_deleted" "device" deviceId details
      (removeDevice deviceId (deleteDeviceToken deviceId
        (rejectPendingRequestsForDevice env deviceId orgId reason actorUserId db).2))) =
      (ledger db).forget fun c => c.deviceId = deviceId := by
  have hreject :
      ledger (rejectPendingRequestsForDevice env deviceId orgId reason actorUserId db).2 =
        ledger db := by
    simp only [rejectPendingRequestsForDevice]
    split_ifs <;> rfl
  rw [← hreject]
  exact ledger_deleteDeviceRow deviceId

/-- An unused serial that is not listed is not listed after superseding either. -/
theorem not_listed_superseded {q : CertRequestArgs} {s : ℕ}
    (hserial : SerialUnused (superseded pki env q db) s) (h : ¬ (ledger db).Listed q.orgId s) :
    ¬ (ledger (superseded pki env q db)).Listed q.orgId s := by
  rcases ledger_supersedeActiveCerts pki env q.deviceId q.orgId q.name q.type db with hl | hl
  · rwa [superseded, hl]
  · have hmem : ∀ c ∈ ((ledger db).revise (ActiveForName env q.deviceId q.name)
        (·.markedRevoked env .superseded)).rows, c ∈ (ledger (superseded pki env q db)).rows := by
      intro c hc
      rw [superseded, hl]
      exact hc
    rw [superseded, hl]
    exact Ledger.not_listed_publish_self fun c hc => hserial c (hmem c hc)

/-- `processRequest` as ledger steps. -/
theorem steps_ledger_processed {q : CertRequestArgs} {r : CertRequestResult}
    (hrevoke : ∀ c ∈ db.certificates.rows, Revokes env db (.processRequest q) c →
      P.revoke c q.orgId)
    (hfresh : P.fresh → ¬ (ledger db).Listed q.orgId env.serial)
    (h : Processed pki env q db r db') : Ledger.Steps columns P (ledger db) (ledger db') := by
  cases h with
  | @pending t htype _ _ =>
    simp only [Revokes, htype] at hrevoke
    exact steps_ledger_superseded hrevoke
  | @issued t leaf htype _ _ hleaf hserial =>
    simp only [Revokes, htype] at hrevoke
    rw [serial_of_signCsr hleaf] at hserial
    refine .tail (steps_ledger_superseded hrevoke) (step_ledger_issue ?_ fun hP => ?_)
    · rwa [serial_of_signCsr hleaf]
    · rw [serial_of_signCsr hleaf]
      exact not_listed_superseded hserial (hfresh hP)
  | rejected _ _ _ _ _ => exact .refl
  | @renewed t leaf current htype _ _ _ howned hleaf hserial =>
    simp only [Revokes, htype, if_true] at hrevoke
    rw [ledger_replaceCert]
    refine .tail (.single (step_ledger_issue hserial fun hP => ?_))
      (.revoke q.orgId (revises_replaced _) fun c hc hid => ?_)
    · rw [serial_of_signCsr hleaf]
      exact hfresh hP
    · rcases mem_certificates_issue.mp hc with hc | rfl
      · obtain rfl := eq_of_id_eq hc (mem_of_currentCert howned) hid
        exact hrevoke c hc howned
      · exact absurd hid (db.certificates.id_lt current (mem_of_currentCert howned)).ne'

/-- **The simulation.** A committed operation is a sequence of ledger steps, under every policy
that the rows it revokes, forgets and issues meet. -/
theorem steps_ledger {op : Operation}
    (hrevoke : ∀ c ∈ db.certificates.rows, Revokes env db op c →
      ∀ orgId ∈ rebuildsFor db op, P.revoke c orgId)
    (hforget : ∀ b ∈ db.certificates.rows, Forgets op b → ∀ c, columns.Follows b c → P.forget c)
    (hfresh : P.fresh → ∀ orgId ∈ issuesFor op, ¬ (ledger db).Listed orgId env.serial)
    (h : (perform pki env op).run db = .ok ((), db')) :
    Ledger.Steps columns P (ledger db) (ledger db') := by
  cases op with
  | processRequest q =>
    obtain ⟨r, h⟩ := Tx.run_discard_eq_ok h
    exact steps_ledger_processed (fun c hc hr => hrevoke c hc hr q.orgId rfl)
      (fun hP => hfresh hP q.orgId rfl) (processRequest_run_eq_ok.mp h)
  | approve requestId expectedOrgId reviewerUserId =>
    obtain ⟨r, h⟩ := Tx.run_discard_eq_ok h
    obtain ⟨request, leaf, details, -, horg, -, hleaf, hserial, -, rfl⟩ := approve_cases h
    refine .single (step_ledger_issue hserial fun hP => ?_)
    rw [serial_of_signCsr hleaf]
    exact hfresh hP _ (congrArg some horg.symm)
  | reject requestId expectedOrgId reviewerUserId reason =>
    obtain ⟨request, details, -, -, -, rfl⟩ := reject_cases h
    exact .refl
  | revoke certificateId expectedOrgId userId =>
    obtain ⟨cert, details, hfind, -, -, rfl⟩ := revoke_cases h
    have hledger : ledger (rebuild pki env cert.organizationId
        (markRevoked env (fun c => c.id = certificateId) .adminRevoked db)) = Ledger.publish columns
          ((ledger db).revise (fun c => c.id = certificateId) (·.markedRevoked env .adminRevoked))
          cert.organizationId := by
      rw [ledger_rebuild, ledger_markRevoked]
    exact steps_ledger_of_marked (.inr hledger) fun c hc hid =>
      hrevoke c hc hid _ (Option.mem_map_of_mem _ hfind)
  | revokeAllActiveForDevice deviceId orgId reason actorUserId =>
    obtain ⟨-, rfl⟩ := Prod.mk.inj (Tx.run_modify_eq_ok.mp h)
    exact steps_ledger_revokeAll fun c hc hactive => hrevoke c hc hactive orgId rfl
  | enrollDevice tokenValue deviceId facts =>
    obtain ⟨r, h⟩ := Tx.run_discard_eq_ok h
    obtain ⟨token, -, -, -, -, rfl⟩ := enrollDevice_run_eq_ok.mp h
    exact .refl
  | register orgId deviceId facts =>
    obtain ⟨-, h⟩ := Tx.run_require_bind_eq_ok.mp h
    obtain ⟨-, rfl⟩ := Prod.mk.inj (Tx.run_modify_eq_ok.mp h)
    exact .refl
  | deleteDevice deviceId actorUserId =>
    obtain ⟨device, details, hfind, rfl⟩ := deleteDevice_cases h
    have hrevoked : Ledger.Steps columns P (ledger db) (ledger (revokeAllActiveForDevice pki env
        deviceId device.organizationId .deviceDeleted actorUserId db).2) :=
      steps_ledger_revokeAll fun c hc hactive =>
        hrevoke c hc hactive _ (Option.mem_map_of_mem _ hfind)
    refine .tail hrevoked ?_
    rw [ledger_deleted]
    refine .forget fun c hc hdevice => ?_
    obtain ⟨b, hb, hbc, hid⟩ := exists_follows_of_mem_revokeAll hc
    exact hforget b hb (hid.symm.trans hdevice) c hbc

end Simulation

end EdgeGuardian.Controller
