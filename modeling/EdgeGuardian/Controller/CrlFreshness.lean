import EdgeGuardian.Controller.Certificates

/-!
# Freshness of the published revocation lists

A revocation list says until when it is valid, and the broker that fetches it refuses every device
of the organization once this time has passed. `getOrBuild` hands out the list that is stored and
builds one only where there is none, so that the age of a list is decided by the rebuilds: a list
is current as long as the last one is less than the configured validity ago.

Source: `controller/src/main/java/com/edgeguardian/controller/service/CrlService.java`,
`controller/src/main/java/com/edgeguardian/controller/api/PkiController.java`,
`controller/src/main/resources/db/migration/V4__pki.sql`.

## Main definitions

* `getOrBuild`: the list of an organization, and the database after.
* `CrlOperation`, `CrlOperation.apply`, `afterHistory`: rebuilds and fetches with their times.
* `Current`: a list at a time within its validity.
* `lastBuilt`: when the list of an organization was last built, read off the history.

## Main results

* `tracks_afterHistory`: every stored list was built when the history says so.
* `current_iff_builtRecently`: when a fetch returns a current list.
-/

namespace EdgeGuardian.Controller

/-! ### Fetching a list -/

/-- The row that `rebuild` saves. -/
def rebuiltCrl (pki : PkiContext) (env : Env) (orgId : OrganizationId) (db : Db) :
    CertificateRevocationList where
  organizationId := orgId
  crlNumber := ((db.crls.find? orgId).map CertificateRevocationList.crlNumber).getD 0 + 1
  crlDer := crlEntries env orgId db
  thisUpdate := env.now
  nextUpdate := env.now + Duration.ofHours pki.crlValidityHours
  revokedCount := (crlEntries env orgId db).length

/-- `CrlService.getOrBuild`: the list returned, and the database after. -/
def getOrBuild (pki : PkiContext) (env : Env) (orgId : OrganizationId) (db : Db) :
    CertificateRevocationList × Db :=
  match db.crls.find? orgId with
  | some crl => (crl, db)
  | none => (rebuiltCrl pki env orgId db, rebuild pki env orgId db)

/-- What happens to the lists, at the time of the clock reading that it comes with. -/
inductive CrlOperation
  /-- `CrlService.rebuild`, as every revocation calls it. -/
  | rebuild (orgId : OrganizationId)
  /-- `PkiController.getCrl`. -/
  | getOrBuild (orgId : OrganizationId)
  /-- Certificates are issued, revoked or deleted. -/
  | writeCertificates (certificates : SerialTable IssuedCertificate IssuedCertificate.id)

/-- The database after an operation. -/
def CrlOperation.apply (pki : PkiContext) (db : Db) (a : Env × CrlOperation) : Db :=
  match a.2 with
  | .rebuild orgId => Controller.rebuild pki a.1 orgId db
  | .getOrBuild orgId => (Controller.getOrBuild pki a.1 orgId db).2
  | .writeCertificates certificates => { db with certificates := certificates }

/-- The database after a history of operations. -/
def afterHistory (pki : PkiContext) (db : Db) (history : List (Env × CrlOperation)) : Db :=
  history.foldl (CrlOperation.apply pki) db

/-! ### The age of a list -/

/-- The list is within its validity at the time `t`. -/
def Current (crl : CertificateRevocationList) (t : Instant) : Prop :=
  crl.thisUpdate ≤ t ∧ t < crl.nextUpdate

/-- When the list of every organization was last built, after one more operation: by a rebuild, or
by the first fetch. -/
def noteBuilt (built : OrganizationId → Option Instant) (a : Env × CrlOperation) :
    OrganizationId → Option Instant :=
  match a.2 with
  | .rebuild orgId => Function.update built orgId (some a.1.now)
  | .getOrBuild orgId => Function.update built orgId ((built orgId).or (some a.1.now))
  | .writeCertificates _ => built

/-- When the list of an organization was last built. -/
def lastBuilt (history : List (Env × CrlOperation)) : OrganizationId → Option Instant :=
  history.foldl noteBuilt fun _ => none

/-- The list of the organization was never built, or less than its validity before `t`. -/
def BuiltRecently (pki : PkiContext) (history : List (Env × CrlOperation))
    (orgId : OrganizationId) (t : Instant) : Prop :=
  ∀ built ∈ lastBuilt history orgId, t < built + Duration.ofHours pki.crlValidityHours

/-- The times of a history and of a fetch after it do not decrease. -/
def InOrder (history : List (Env × CrlOperation)) (t : Instant) : Prop :=
  (history.map (fun a => a.1.now) ++ [t]).Pairwise (· ≤ ·)

instance (history : List (Env × CrlOperation)) (t : Instant) : Decidable (InOrder history t) :=
  inferInstanceAs (Decidable (List.Pairwise _ _))

/-! ### What is stored -/

section Tracks

variable {pki : PkiContext} {env : Env} {db : Db} {orgId : OrganizationId}

/-- The stored lists were built at the times `built`. -/
def Tracks (pki : PkiContext) (db : Db) (built : OrganizationId → Option Instant) : Prop :=
  ∀ orgId, (db.crls.find? orgId).map (fun crl => (crl.thisUpdate, crl.nextUpdate)) =
    (built orgId).map fun t => (t, t + Duration.ofHours pki.crlValidityHours)

theorem find?_crls_rebuild (pki : PkiContext) (env : Env) (db : Db) (orgId o : OrganizationId) :
    (rebuild pki env orgId db).crls.find? o =
      if o = orgId then some (rebuiltCrl pki env orgId db) else db.crls.find? o :=
  Table.find?_save db.crls (rebuiltCrl pki env orgId db) o

theorem Tracks.rebuild {built : OrganizationId → Option Instant} (h : Tracks pki db built)
    (env : Env) (orgId : OrganizationId) : Tracks pki (rebuild pki env orgId db)
      (Function.update built orgId (some env.now)) := by
  intro o
  rw [find?_crls_rebuild]
  by_cases ho : o = orgId
  · subst ho
    rw [if_pos rfl, Function.update_self]
    rfl
  · rw [if_neg ho, Function.update_of_ne ho]
    exact h o

theorem Tracks.apply {built : OrganizationId → Option Instant} (h : Tracks pki db built)
    (a : Env × CrlOperation) : Tracks pki (CrlOperation.apply pki db a) (noteBuilt built a) := by
  obtain ⟨env, op⟩ := a
  cases op with
  | rebuild orgId => exact h.rebuild env orgId
  | getOrBuild orgId =>
    have horg := h orgId
    simp only [CrlOperation.apply, noteBuilt, Controller.getOrBuild]
    rcases hcrl : db.crls.find? orgId with _ | crl <;> rw [hcrl] at horg
    · have hnone : built orgId = none := Option.map_eq_none_iff.mp horg.symm
      rw [hnone, Option.none_or]
      exact h.rebuild env orgId
    · obtain ⟨t, ht, -⟩ := Option.map_eq_some_iff.mp horg.symm
      rw [ht, Option.some_or, ← ht, Function.update_eq_self]
      exact h
  | writeCertificates certificates => exact h

/-- Every stored list was built when the history says so. -/
theorem tracks_afterHistory (pki : PkiContext) (hdb : db.crls.rows = [])
    (history : List (Env × CrlOperation)) :
    Tracks pki (afterHistory pki db history) (lastBuilt history) := by
  have hrun : ∀ (history : List (Env × CrlOperation)) (db : Db)
      (built : OrganizationId → Option Instant), Tracks pki db built →
        Tracks pki (history.foldl (CrlOperation.apply pki) db) (history.foldl noteBuilt built) := by
    intro history
    induction history with
    | nil => exact fun _ _ h => h
    | cons a history ih => exact fun _ _ h => ih _ _ (h.apply a)
  refine hrun history db _ fun orgId => ?_
  simp [Table.find?, hdb]

theorem noteBuilt_le {known : OrganizationId → Option Instant} {a : Env × CrlOperation}
    {t : Instant} (ha : a.1.now ≤ t) (h : ∀ o, ∀ built ∈ known o, built ≤ t) :
    ∀ o, ∀ built ∈ noteBuilt known a o, built ≤ t := by
  intro o built hbuilt
  obtain ⟨env, op⟩ := a
  cases op with
  | rebuild orgId =>
    simp only [noteBuilt] at hbuilt
    by_cases ho : o = orgId
    · rw [ho, Function.update_self] at hbuilt
      cases hbuilt
      exact ha
    · rw [Function.update_of_ne ho] at hbuilt
      exact h o built hbuilt
  | getOrBuild orgId =>
    simp only [noteBuilt] at hbuilt
    by_cases ho : o = orgId
    · rw [ho, Function.update_self] at hbuilt
      rcases Option.or_eq_some_iff.mp hbuilt with hbuilt | ⟨-, hbuilt⟩
      · exact h orgId built hbuilt
      · cases hbuilt
        exact ha
    · rw [Function.update_of_ne ho] at hbuilt
      exact h o built hbuilt
  | writeCertificates _ => exact h o built hbuilt

/-- A list is never built after the times of the history. -/
theorem lastBuilt_le {history : List (Env × CrlOperation)} {t built : Instant}
    (ht : ∀ a ∈ history, a.1.now ≤ t) (h : lastBuilt history orgId = some built) : built ≤ t := by
  have hrun : ∀ (history : List (Env × CrlOperation)) (known : OrganizationId → Option Instant),
      (∀ a ∈ history, a.1.now ≤ t) → (∀ o, ∀ b ∈ known o, b ≤ t) →
        ∀ o, ∀ b ∈ history.foldl noteBuilt known o, b ≤ t := by
    intro history
    induction history with
    | nil => exact fun _ _ hknown => hknown
    | cons a history ih =>
      intro known ht hknown
      exact ih _ (fun b hb => ht b (List.mem_cons_of_mem a hb))
        (noteBuilt_le (ht a List.mem_cons_self) hknown)
  exact hrun history (fun _ => none) ht (fun _ _ hb => nomatch hb) orgId built h

end Tracks

/-- **Freshness of a list.** After every history of rebuilds and fetches from a database without
lists, at times that do not decrease, the list that a fetch returns is current iff the list of the
organization was never built, or less than its validity ago. -/
theorem current_iff_builtRecently {pki : PkiContext} {db : Db} {env : Env}
    {history : List (Env × CrlOperation)} {orgId : OrganizationId}
    (hvalidity : 0 < pki.crlValidityHours) (hdb : db.crls.rows = [])
    (horder : InOrder history env.now) :
    Current (getOrBuild pki env orgId (afterHistory pki db history)).1 env.now ↔
      BuiltRecently pki history orgId env.now := by
  have htracks := tracks_afterHistory pki hdb history orgId
  have hle : ∀ a ∈ history, a.1.now ≤ env.now := by
    intro a ha
    have hpair := (List.pairwise_append.mp horder).2.2
    exact hpair _ (List.mem_map_of_mem ha) _ (List.mem_singleton_self _)
  rw [getOrBuild, BuiltRecently]
  rcases hcrl : (afterHistory pki db history).crls.find? orgId with _ | crl <;>
    rw [hcrl] at htracks
  · have hnone : lastBuilt history orgId = none := Option.map_eq_none_iff.mp htracks.symm
    have hpos : 0 < Duration.ofHours pki.crlValidityHours := by
      rw [Duration.ofHours]
      omega
    rw [hnone]
    exact iff_of_true ⟨le_refl env.now, Nat.lt_add_of_pos_right hpos⟩ fun _ hb => nomatch hb
  · obtain ⟨built, hbuilt, htimes⟩ := Option.map_eq_some_iff.mp htracks.symm
    obtain ⟨hthis, hnext⟩ := Prod.mk.inj htimes
    have hbefore : built ≤ env.now := lastBuilt_le hle hbuilt
    rw [hbuilt]
    simp only [Current, ← hthis, ← hnext, Option.mem_some_iff, forall_eq']
    exact and_iff_right hbefore

/-! ### A day without revocations -/

/-- The list of organization 1 is fetched for the first time, and again an hour later. -/
theorem current_after_an_hour :
    Current (getOrBuild default ⟨3600000, 0, ""⟩ 1 (afterHistory default (Db.empty .empty)
      [(⟨0, 0, ""⟩, .getOrBuild 1)])).1 3600000 :=
  (current_iff_builtRecently (by decide) rfl (by decide)).mpr (by
    intro built hb
    cases hb
    decide)

/-- The list of organization 1 is fetched for the first time, nothing is revoked for a day, and the
list that is fetched then has expired. -/
theorem expired_after_a_day :
    ¬ ∀ (pki : PkiContext) (db : Db) (history : List (Env × CrlOperation)) (env : Env)
      (orgId : OrganizationId), 0 < pki.crlValidityHours → db.crls.rows = [] →
        InOrder history env.now →
          Current (getOrBuild pki env orgId (afterHistory pki db history)).1 env.now := by
  intro h
  have hcurrent := h default (Db.empty .empty) [(⟨0, 0, ""⟩, .getOrBuild 1)] ⟨86400000, 0, ""⟩ 1
    (by decide) rfl (by decide)
  have hnext : (86400000 : ℕ) < 86400000 := hcurrent.2
  omega

end EdgeGuardian.Controller
