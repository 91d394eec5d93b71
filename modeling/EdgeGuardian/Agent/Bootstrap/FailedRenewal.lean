import EdgeGuardian.Agent.Bootstrap.IdentityStore

/-!
# Renewal responses that cannot be used

`HandleRenewalResponse` moves the stashed key and the certificate of the response over the files of
the identity, removes the stash, and only then reads back what it has written. A response that is no
certificate, or a CA file that is missing, is found out after the old key and the old certificate
are gone. All operations on files succeed here.

Source: `agent/internal/bootstrap/renewal.go`, lines 165–198, `identity.go`, `files.go`.

## Main definitions

* `Renewer`, `Renewer.handleRenewalResponse`: the renewer with its directory, and the response.
* `Renewer.Untouched`: the four files and the identity are as they were.

## Main results

* `Renewer.untouched_of_error_iff`: when an error leaves everything as it was.
-/

namespace EdgeGuardian.Agent.Bootstrap

open FileStore

/-- The identity directory, and the fields of `Renewer` that a response changes. -/
structure Renewer where
  dir : Directory
  identity : Option Identity
  consecutiveFailed : ℕ
  lastAttempt : Option Instant

/-- How a call ends. -/
inductive Response
  | renewed (id : Identity)
  | failed (message : String)
  /-- A missing identity is read for the log entry. -/
  | panicked
deriving DecidableEq, Repr

namespace Renewer

/-- The file of the stashed key. -/
def newKeyPath : String := Manager.keyPath ++ ".new"

/-- The directory after `Replace` without a CA, and `removeIfExists`. -/
def swapped (dir : Directory) (newKeyPem certPem : Content) : Directory :=
  Function.update (overwrite (Manager.persist (fun _ => []) ⟨newKeyPem, certPem, none⟩) dir)
    newKeyPath none

/-- `HandleRenewalResponse`. -/
def handleRenewalResponse (certPem : Content) (r : Renewer) : Response × Renewer :=
  match r.identity with
  | none => (.failed "no active identity to renew", r)
  | some _ =>
    match r.dir newKeyPath with
    | none =>
      (.failed ("read stashed renewal key: expected file not found: " ++ newKeyPath), r)
    | some newKeyPem =>
      let dir := swapped r.dir newKeyPem certPem
      match Manager.load dir with
      | .error e => (.failed ("reload identity after renewal: " ++ e), { r with dir := dir })
      | .ok none =>
        (.panicked,
          { dir := dir, identity := none, consecutiveFailed := 0, lastAttempt := none })
      | .ok (some updated) =>
        (.renewed updated,
          { dir := dir, identity := some updated, consecutiveFailed := 0, lastAttempt := none })

/-- The four files of the identity, and the identity in memory, are the same. -/
structure Untouched (r r' : Renewer) : Prop where
  key : r'.dir Manager.keyPath = r.dir Manager.keyPath
  cert : r'.dir Manager.certPath = r.dir Manager.certPath
  ca : r'.dir Manager.caPath = r.dir Manager.caPath
  newKey : r'.dir newKeyPath = r.dir newKeyPath
  identity : r'.identity = r.identity

section Swapped

variable (dir : Directory) (newKeyPem certPem : Content)

theorem swapped_key : swapped dir newKeyPem certPem Manager.keyPath = some newKeyPem := by
  have hne : Manager.keyPath ≠ newKeyPath := by decide
  have hcert : Manager.keyPath ≠ Manager.certPath := by decide
  simp [swapped, Manager.persist, overwrite, Manager.writeAtomic, Function.update_of_ne hne,
    Function.update_of_ne hcert]

theorem swapped_cert : swapped dir newKeyPem certPem Manager.certPath = some certPem := by
  have hne : Manager.certPath ≠ newKeyPath := by decide
  simp [swapped, Manager.persist, overwrite, Manager.writeAtomic, Function.update_of_ne hne]

theorem swapped_ca : swapped dir newKeyPem certPem Manager.caPath = dir Manager.caPath := by
  have hne : Manager.caPath ≠ newKeyPath := by decide
  have hkey : Manager.caPath ≠ Manager.keyPath := by decide
  have hcert : Manager.caPath ≠ Manager.certPath := by decide
  simp [swapped, Manager.persist, overwrite, Manager.writeAtomic, Function.update_of_ne hne,
    Function.update_of_ne hkey, Function.update_of_ne hcert]

theorem swapped_newKey : swapped dir newKeyPem certPem newKeyPath = none :=
  Function.update_self _ _ _

/-- `Load` of the swapped files fails iff the response is no certificate or there is no CA. -/
theorem load_swapped :
    (∃ e, Manager.load (swapped dir newKeyPem certPem) = .error e) ↔
      certPem.parseCertificate = none ∨ dir Manager.caPath = none := by
  rw [Manager.load, swapped_key, swapped_cert, swapped_ca]
  rcases hparse : certPem.parseCertificate with _ | c
  · simp [hparse]
  · rcases dir Manager.caPath with _ | ca
    · simp [hparse]
    · simp [hparse]

end Swapped

/-- **A failed renewal.** An error leaves the files and the identity as they were if and only if
nothing was begun, for want of an identity or of a stashed key, or else the response is a
certificate and there is a CA. -/
theorem untouched_of_error_iff (certPem : Content) (r : Renewer) :
    (∀ message, (handleRenewalResponse certPem r).1 = .failed message →
        Untouched r (handleRenewalResponse certPem r).2) ↔
      r.identity = none ∨ r.dir newKeyPath = none ∨
        certPem.parseCertificate.isSome ∧ (r.dir Manager.caPath).isSome := by
  rw [handleRenewalResponse]
  rcases hidentity : r.identity with _ | id
  · simp only [true_or, iff_true]
    intro _ _
    exact ⟨rfl, rfl, rfl, rfl, rfl⟩
  · rcases hstash : r.dir newKeyPath with _ | newKeyPem
    · simp only [true_or, or_true, iff_true]
      intro _ _
      exact ⟨rfl, rfl, rfl, rfl, rfl⟩
    · have hload := load_swapped r.dir newKeyPem certPem
      have hstarted : (some id = none ∨ some newKeyPem = none ∨
          certPem.parseCertificate.isSome ∧ (r.dir Manager.caPath).isSome) ↔
            ¬ (certPem.parseCertificate = none ∨ r.dir Manager.caPath = none) := by
        simp [Option.isSome_iff_ne_none]
      rw [hstarted, ← hload]
      dsimp only
      rcases Manager.load (swapped r.dir newKeyPem certPem) with e | _ | updated
      · refine iff_of_false (fun h => ?_) (by simp)
        have hnewKey := (h _ rfl).newKey
        rw [hstash] at hnewKey
        exact absurd ((swapped_newKey r.dir newKeyPem certPem).symm.trans hnewKey) (by simp)
      · simp
      · simp

/-- A renewer with its first identity and a stashed key. -/
def enrolled : Renewer where
  dir := Function.update Manager.Stops.enrolled newKeyPath (some (.privateKey 11))
  identity := some (Identity.ofFiles (Manager.Stops.leaf 1 10)
    (.certificate (Manager.Stops.leaf 1 10)) (.certificate (Manager.Stops.leaf 0 0)))
  consecutiveFailed := 1
  lastAttempt := some 0

/-- A truncated response is written over the certificate, and the old key is gone. -/
theorem touched_by_truncated_response :
    ¬ ∀ (certPem : Content) (r : Renewer) (message : String),
        (handleRenewalResponse certPem r).1 = .failed message →
          Untouched r (handleRenewalResponse certPem r).2 := by
  intro h
  have huntouched := h (.other [45, 45]) enrolled
    "reload identity after renewal: parse identity.crt" (by decide +kernel)
  have hkey := huntouched.key
  exact absurd hkey (by decide +kernel)

end Renewer

end EdgeGuardian.Agent.Bootstrap
