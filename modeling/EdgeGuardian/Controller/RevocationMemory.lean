import EdgeGuardian.Controller.CrlCompleteness

/-!
# Revocations are remembered

A serial on the revocation list of an organization should stay on it while the certificate is
valid. The list is rebuilt from the certificate rows that there are, so this rests on the rows: a
deleted device takes its certificate rows along, also those that are revoked and not expired, and
the next list of the organization is made without them.

Time is the clock reading of the last operation; a run does not go back in time.

## Main definitions

* `TimedDb`, `timedStep`: a database with a clock, and its committed operations.
* `Retaining`: an operation deletes no certificate that is still valid, and draws no serial number
  that the list of the organization holds.

## Main results

* `inCrl_of_retaining`: along every run of such operations, a listed serial stays listed until the
  certificate expires.
* `crl_forgets_deleted_device`: a run that loses a revocation.
-/

namespace EdgeGuardian.Controller

/-- A database and the time of its last operation. -/
structure TimedDb where
  db : Db
  clock : Instant

/-- A committed operation, not before the last one. -/
def timedStep (pki : PkiContext) (s : TimedDb) (a : Env × Operation) : Option TimedDb :=
  if s.clock ≤ a.1.now then (step pki s.db a).map fun db => ⟨db, a.1.now⟩ else none

theorem timedStep_eq_some_iff {pki : PkiContext} {s t : TimedDb} {a : Env × Operation} :
    timedStep pki s a = some t ↔
      s.clock ≤ a.1.now ∧ step pki s.db a = some t.db ∧ t.clock = a.1.now := by
  rw [timedStep]
  split_ifs with h
  · rw [Option.map_eq_some_iff]
    constructor
    · rintro ⟨db, hdb, rfl⟩
      exact ⟨h, hdb, rfl⟩
    · rintro ⟨-, hdb, hclock⟩
      exact ⟨t.db, hdb, by rw [← hclock]⟩
  · exact iff_of_false (fun h' => nomatch h') fun h' => h h'.1

/-- The operation deletes no certificate that is still valid, and does not draw a serial number
that the list of the organization holds. -/
def Retaining (s : TimedDb) (a : Env × Operation) : Prop :=
  (∀ c ∈ s.db.certificates.rows, Forgets a.2 c → c.notAfter ≤ a.1.now) ∧
    ∀ orgId ∈ issuesFor a.2, ¬ InCrl s.db orgId a.1.serial

instance (s : TimedDb) (a : Env × Operation) : Decidable (Retaining s a) :=
  inferInstanceAs (Decidable ((∀ c ∈ s.db.certificates.rows, Forgets a.2 c → c.notAfter ≤ a.1.now) ∧
    ∀ orgId ∈ issuesFor a.2, ¬ InCrl s.db orgId a.1.serial))

/-- What a retaining operation at the time `now` may do to the ledger. -/
def retainingPolicy (now : Instant) : Ledger.Policy IssuedCertificate OrganizationId where
  revoke _ _ := True
  forget c := c.notAfter ≤ now
  fresh := True

variable {pki : PkiContext} {s t : TimedDb} {a : Env × Operation} {c : IssuedCertificate}

theorem steps_ledger_of_retaining (ha : Retaining s a) (h : timedStep pki s a = some t) :
    Ledger.Steps columns (retainingPolicy t.clock) (ledger s.db) (ledger t.db) := by
  obtain ⟨-, hstep, hclock⟩ := timedStep_eq_some_iff.mp h
  rw [hclock]
  refine steps_ledger (fun _ _ _ _ _ => trivial) (fun b hb hforget d hbd => ?_)
    (fun _ orgId horg => ?_) (step_eq_some_iff.mp hstep)
  · show d.notAfter ≤ a.1.now
    rw [show d.notAfter = b.notAfter from hbd.expires]
    exact ha.1 b hb hforget
  · rw [listed_ledger_iff]
    exact ha.2 orgId horg

/-- A certificate that is valid after a retaining operation is not one that it may forget. -/
theorem not_forget_of_valid (h : t.clock < c.notAfter) :
    ∀ b, columns.expires b = columns.expires c → ¬ (retainingPolicy t.clock).forget b := by
  intro b hb hforget
  have hle : b.notAfter ≤ t.clock := hforget
  rw [show b.notAfter = c.notAfter from hb] at hle
  exact absurd h (not_lt_of_ge hle)

theorem clock_le_of_timedStep (h : timedStep pki s a = some t) : s.clock ≤ t.clock := by
  obtain ⟨hle, -, hclock⟩ := timedStep_eq_some_iff.mp h
  rwa [hclock]

theorem clock_le_of_reaches (h : Transition.Reaches (timedStep pki) Retaining s t) :
    s.clock ≤ t.clock :=
  h.invariant (fun u => s.clock ≤ u.clock)
    (fun hle _ hstep => hle.trans (clock_le_of_timedStep hstep)) le_rfl

/-- The serials are unique and the listed certificates revoked. -/
theorem sound_of_reaches (hs : (ledger s.db).Sound columns)
    (h : Transition.Reaches (timedStep pki) Retaining s t) : (ledger t.db).Sound columns :=
  h.invariant (fun u => (ledger u.db).Sound columns)
    (fun hsound ha hstep => hsound.steps trivial (steps_ledger_of_retaining ha hstep)) hs

/-- A certificate row is there while the certificate is valid. -/
theorem present_of_reaches (hs : (ledger s.db).Present columns c)
    (h : Transition.Reaches (timedStep pki) Retaining s t) (hvalid : t.clock < c.notAfter) :
    (ledger t.db).Present columns c := by
  refine h.invariant (fun u => u.clock < c.notAfter → (ledger u.db).Present columns c)
    (fun hu ha hstep hvalid => ?_) (fun _ => hs) hvalid
  have hbefore := hu (lt_of_le_of_lt (clock_le_of_timedStep hstep) hvalid)
  exact hbefore.steps (not_forget_of_valid hvalid) (steps_ledger_of_retaining ha hstep)

/-- A revoked certificate on the list is there, revoked and on the list, while it is valid. -/
theorem remembered_of_reaches (hs : (ledger s.db).Remembered columns c)
    (h : Transition.Reaches (timedStep pki) Retaining s t) (hvalid : t.clock < c.notAfter) :
    (ledger t.db).Remembered columns c := by
  refine h.invariant (fun u => u.clock < c.notAfter → (ledger u.db).Remembered columns c)
    (fun hu ha hstep hvalid => ?_) (fun _ => hs) hvalid
  have hbefore := hu (lt_of_le_of_lt (clock_le_of_timedStep hstep) hvalid)
  exact hbefore.steps (not_forget_of_valid hvalid) (steps_ledger_of_retaining ha hstep)

/-- **Revocations are remembered.** Take a run of committed operations from a database without
devices, in which no operation deletes a certificate that is still valid and no listed serial is
drawn again. A certificate seen at some point, whose serial is on the list of its organization at a
later point, is on that list at every point after, until it expires. -/
theorem inCrl_of_retaining {tokens : Table EnrollmentToken EnrollmentToken.token}
    {s₁ s₂ s₃ : TimedDb}
    (h₁ : Transition.Reaches (timedStep pki) Retaining ⟨Db.empty tokens, 0⟩ s₁)
    (hc : c ∈ s₁.db.certificates.rows)
    (h₂ : Transition.Reaches (timedStep pki) Retaining s₁ s₂)
    (hlisted : InCrl s₂.db c.organizationId c.serialNumber)
    (h₃ : Transition.Reaches (timedStep pki) Retaining s₂ s₃) (hvalid : s₃.clock < c.notAfter) :
    InCrl s₃.db c.organizationId c.serialNumber := by
  have hempty : (ledger (Db.empty tokens)).Sound columns :=
    ⟨fun b hb => (List.not_mem_nil hb).elim, fun b hb => (List.not_mem_nil hb).elim⟩
  have hsound : (ledger s₂.db).Sound columns := sound_of_reaches hempty (h₁.trans h₂)
  have hpresent : (ledger s₂.db).Present columns c :=
    present_of_reaches (Ledger.present_of_mem hc) h₂
      (lt_of_le_of_lt (clock_le_of_reaches h₃) hvalid)
  have hremembered : (ledger s₂.db).Remembered columns c :=
    hsound.remembered hpresent (listed_ledger_iff.mpr hlisted)
  exact listed_ledger_iff.mp (remembered_of_reaches hremembered h₃ hvalid).2

/-! ### A deleted device -/

namespace Deletion

/-- The database at the start, with an enrolment token of organization 1. -/
def start : TimedDb := ⟨Db.empty Reenrolment.tokens, 0⟩

/-- A device enrols in organization 1 and gets a certificate with the serial `serial`. -/
def joins (deviceId : String) (now : Instant) (serial : ℕ) : List (Env × Operation) :=
  [(⟨now, serial, deviceId⟩, .enrollDevice "a" deviceId ⟨none, none, none, none, none⟩),
   (⟨now, serial, "edt"⟩, .processRequest
    ⟨deviceId, 1, some "device-identity", some deviceId, [], some "csr", .manifest, none⟩)]

/-- An administrator of organization 1 revokes a certificate. -/
def revokes (certificateId : ℕ) (now : Instant) : Env × Operation :=
  (⟨now, 0, ""⟩, .revoke certificateId 1 none)

/-- The certificate of the first device is issued and revoked. -/
def revokeFirst : List (Env × Operation) := joins "d" 1 5 ++ [revokes 1 2]

/-- The certificate of a second device is issued and revoked, which rebuilds the list. -/
def revokeSecond : List (Env × Operation) := joins "e" 4 6 ++ [revokes 2 5]

end Deletion

/-- Without the deletion, the first revocation is on the list that the second one rebuilds. -/
theorem inCrl_after_second_revocation :
    ∃ s₁ s₂ s₃ c, Transition.Reaches (timedStep Reenrolment.pki) Retaining Deletion.start s₁ ∧
      c ∈ s₁.db.certificates.rows ∧
      Transition.Reaches (timedStep Reenrolment.pki) Retaining s₁ s₂ ∧
      InCrl s₂.db c.organizationId c.serialNumber ∧
      Transition.Reaches (timedStep Reenrolment.pki) Retaining s₂ s₃ ∧ s₃.clock < c.notAfter ∧
      InCrl s₃.db c.organizationId c.serialNumber := by
  have hrun : ∃ s₂ ∈ Transition.execBy (timedStep Reenrolment.pki) Retaining Deletion.start
      Deletion.revokeFirst, ∃ s₃ ∈ Transition.execBy (timedStep Reenrolment.pki) Retaining s₂
      Deletion.revokeSecond, ∃ c ∈ s₂.db.certificates.rows,
        InCrl s₂.db c.organizationId c.serialNumber ∧ s₃.clock < c.notAfter := by
    decide +kernel
  obtain ⟨s₂, h₂, s₃, h₃, c, hc, hlisted, hvalid⟩ := hrun
  have hreach₂ := Transition.reaches_of_execBy h₂
  have hreach₃ := Transition.reaches_of_execBy h₃
  exact ⟨s₂, s₂, s₃, c, hreach₂, hc, .refl, hlisted, hreach₃, hvalid,
    inCrl_of_retaining hreach₂ hc .refl hlisted hreach₃ hvalid⟩

/-- The first device is deleted between the two revocations, and its valid certificate with it: the
list that the second revocation rebuilds does not hold the first. -/
theorem crl_forgets_deleted_device :
    ∃ s₂ s₃ c, Transition.Reachable (timedStep Reenrolment.pki) Deletion.start s₂ ∧
      c ∈ s₂.db.certificates.rows ∧ InCrl s₂.db c.organizationId c.serialNumber ∧
      Transition.Reachable (timedStep Reenrolment.pki) s₂ s₃ ∧ s₃.clock < c.notAfter ∧
      ¬ InCrl s₃.db c.organizationId c.serialNumber := by
  have hrun : ∃ s₂ ∈ Transition.exec (timedStep Reenrolment.pki) Deletion.start
      Deletion.revokeFirst, ∃ s₃ ∈ Transition.exec (timedStep Reenrolment.pki) s₂
      ((⟨3, 0, ""⟩, .deleteDevice "d" none) :: Deletion.revokeSecond),
      ∃ c ∈ s₂.db.certificates.rows, InCrl s₂.db c.organizationId c.serialNumber ∧
        s₃.clock < c.notAfter ∧ ¬ InCrl s₃.db c.organizationId c.serialNumber := by
    decide +kernel
  obtain ⟨s₂, h₂, s₃, h₃, c, hc, hlisted, hvalid, hlost⟩ := hrun
  exact ⟨s₂, s₃, c, Transition.reaches_of_execBy h₂, hc, hlisted, Transition.reaches_of_execBy h₃,
    hvalid, hlost⟩

end EdgeGuardian.Controller
