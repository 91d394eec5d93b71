import EdgeGuardian.Controller.Operations

/-!
# Completeness of the revocation lists

Every revoked certificate of an organization should be on the revocation list of that organization.
The revocation paths find certificates by their device, or by their serial number, and rebuild the
list of the organization that the caller passes, which is that of the device at the time. A device
that enrols with the token of another organization takes its certificates rows along under the old
organization, so the two can differ.

## Main definitions

* `InCrl`: a serial is an entry of the list stored for an organization.
* `CrlComplete`: every revoked certificate is on the list of its organization.
* `Aligned`: an operation revokes only certificates of the organization whose list it rebuilds.

## Main results

* `crlComplete_of_aligned`: the lists are complete along every run of aligned operations.
* `crl_incomplete_after_reenrolment`: a run after which a revoked certificate is on no list.
-/

namespace EdgeGuardian.Controller

/-- The serial is an entry of the list stored for the organization. -/
def InCrl (db : Db) (orgId : OrganizationId) (serial : ℕ) : Prop :=
  ∃ crl ∈ db.crls.find? orgId, ∃ e ∈ crl.crlDer, e.serialNumber = serial

instance (db : Db) (orgId : OrganizationId) (serial : ℕ) : Decidable (InCrl db orgId serial) :=
  inferInstanceAs (Decidable
    (∃ crl ∈ db.crls.find? orgId, ∃ e ∈ crl.crlDer, e.serialNumber = serial))

theorem listed_ledger_iff {db : Db} {orgId : OrganizationId} {serial : ℕ} :
    (ledger db).Listed orgId serial ↔ InCrl db orgId serial := by
  simp only [Ledger.Listed, ledger, InCrl, Option.mem_def, Option.map_eq_some_iff]
  constructor
  · rintro ⟨_, ⟨crl, hcrl, rfl⟩, hs⟩
    exact ⟨crl, hcrl, hs⟩
  · rintro ⟨crl, hcrl, hs⟩
    exact ⟨_, ⟨crl, hcrl, rfl⟩, hs⟩

/-- Every revoked certificate is on the list stored for its organization. -/
def CrlComplete (db : Db) : Prop :=
  ∀ c ∈ db.certificates.rows, c.revoked → InCrl db c.organizationId c.serialNumber

instance (db : Db) : Decidable (CrlComplete db) :=
  inferInstanceAs (Decidable (∀ c ∈ db.certificates.rows,
    c.revoked → InCrl db c.organizationId c.serialNumber))

theorem complete_ledger_iff {db : Db} : (ledger db).Complete columns ↔ CrlComplete db :=
  forall₂_congr fun _ _ => imp_congr_right fun _ => listed_ledger_iff

/-- The operation revokes only certificates of the organization whose list it rebuilds. -/
def Aligned (db : Db) (a : Env × Operation) : Prop :=
  ∀ c ∈ db.certificates.rows, Revokes a.1 db a.2 c →
    ∀ orgId ∈ rebuildsFor db a.2, c.organizationId = orgId

instance (db : Db) (a : Env × Operation) : Decidable (Aligned db a) :=
  inferInstanceAs (Decidable (∀ c ∈ db.certificates.rows, Revokes a.1 db a.2 c →
    ∀ orgId ∈ rebuildsFor db a.2, c.organizationId = orgId))

/-- What an aligned operation may do to the ledger. -/
def alignedPolicy : Ledger.Policy IssuedCertificate OrganizationId where
  revoke c orgId := c.organizationId = orgId
  forget _ := True
  fresh := False

theorem CrlComplete.step {pki : PkiContext} {db db' : Db} {a : Env × Operation}
    (hdb : CrlComplete db) (ha : Aligned db a) (h : step pki db a = some db') :
    CrlComplete db' := by
  have hsteps : Ledger.Steps columns alignedPolicy (ledger db) (ledger db') :=
    steps_ledger ha (fun _ _ _ _ _ => trivial) (fun hfresh => hfresh.elim) (step_eq_some_iff.mp h)
  exact complete_ledger_iff.mp ((complete_ledger_iff.mpr hdb).steps (fun _ _ h => h) hsteps)

/-- **Completeness of the lists.** Along every run of committed operations, from a database without
devices, in which every operation revokes only certificates of the organization whose list it
rebuilds, every revoked certificate is on the list of its organization. -/
theorem crlComplete_of_aligned {pki : PkiContext}
    {tokens : Table EnrollmentToken EnrollmentToken.token} {db : Db}
    (h : Transition.Reaches (step pki) Aligned (Db.empty tokens) db) : CrlComplete db := by
  refine h.invariant CrlComplete (fun hdb ha hstep => hdb.step ha hstep) ?_
  intro c hc
  cases hc

/-! ### A device that changes its organization -/

namespace Reenrolment

/-- A certificate authority that reads every request as one of the device `d`. -/
def pki : PkiContext where
  parseCsr _ := some ⟨[("CN", "d")], 7⟩
  acceptsIpAddress _ := true
  sha256 s := s
  certValidityDays := 365
  crlValidityHours := 24
  crlUrlFor _ := ""

/-- One enrolment token for each of the organizations 1 and 2. -/
def tokens : Table EnrollmentToken EnrollmentToken.token where
  rows :=
    [{ id := 1, organizationId := 1, token := "a", name := "a", expiresAt := none, maxUses := none,
       useCount := 0, revoked := false },
     { id := 2, organizationId := 2, token := "b", name := "b", expiresAt := none, maxUses := none,
       useCount := 0, revoked := false }]
  nodup := by decide

/-- The device enrols with a token. -/
def enrol (now : Instant) (token : String) : Env × Operation :=
  (⟨now, now, "edt"⟩, .enrollDevice token "d" ⟨none, none, none, none, none⟩)

/-- The device asks for its identity certificate, as `EnrollmentListener` does for it. -/
def request (now : Instant) (orgId : OrganizationId) : Env × Operation :=
  (⟨now, now, "edt"⟩, .processRequest
    ⟨"d", orgId, some "device-identity", some "d", [], some "csr", .manifest, none⟩)

end Reenrolment

/-- A device that enrols twice with tokens of one organization meets the condition. -/
theorem crlComplete_after_enrolling_twice :
    ∃ db, Transition.Reaches (step Reenrolment.pki) Aligned (Db.empty Reenrolment.tokens) db ∧
      (∃ c ∈ db.certificates.rows, c.revoked) ∧ CrlComplete db := by
  have hrun : ∃ db, Transition.Reaches (step Reenrolment.pki) Aligned
      (Db.empty Reenrolment.tokens) db ∧ ∃ c ∈ db.certificates.rows, c.revoked :=
    Transition.exists_reaches_of_execBy
      [Reenrolment.enrol 1 "a", Reenrolment.request 2 1, Reenrolment.enrol 3 "a",
        Reenrolment.request 4 1]
      (by decide +kernel)
  obtain ⟨db, hreach, hrevoked⟩ := hrun
  exact ⟨db, hreach, hrevoked, crlComplete_of_aligned hreach⟩

/-- A device that enrols with the token of a second organization: its first certificate belongs to
the first organization, is superseded, and the list that is rebuilt is that of the second. -/
theorem crl_incomplete_after_reenrolment :
    ∃ db, Transition.Reachable (step Reenrolment.pki) (Db.empty Reenrolment.tokens) db ∧
      ¬ CrlComplete db :=
  Transition.exists_reaches_of_execBy
    [Reenrolment.enrol 1 "a", Reenrolment.request 2 1, Reenrolment.enrol 3 "b",
      Reenrolment.request 4 2]
    (by decide +kernel)

end EdgeGuardian.Controller
