import EdgeGuardian.Controller.Operations
import EdgeGuardian.Controller.RequestLifecycle
import EdgeGuardian.Lib.RenewalChain

/-!
# Chains of renewed certificates

Four paths revoke certificates: a new request supersedes what is active under its name, a renewal
replaces the certificate that it renews, and users revoke one certificate or all of a device. Only
the renewal names a successor. All of them take rows that are not revoked, so that the columns of a
revoked row are written once, and the rows that renewals connect form chains.

Source: `controller/src/main/java/com/edgeguardian/controller/service/CertificateService.java`.

## Main definitions

* `certificateChain`: the certificates as rows of a chain.
* `ReasonGiven`: a call does not revoke the certificates of a device as renewed.
* `RenewalsLinked`, `RevokedStay`: what holds in a state, and between two states of a run.

## Main results

* `steps_certificateChain`: a committed call is a sequence of steps of the chain.
* `renewals_linked_and_stay`: the chains of renewals along every run.
-/

namespace EdgeGuardian.Controller

open Transition

/-! ### Certificates as a chain -/

/-- What a certificate says of its revocation: when, and why. -/
abbrev RevokeEntry := Option Instant × Option RevokeReason

/-- The entry of a renewal. -/
def RenewedEntry (e : RevokeEntry) : Prop := e.2 = some .renewed

/-- A certificate as a row of a chain, issued to a device under a name. -/
def IssuedCertificate.link (c : IssuedCertificate) : Link (String × String) RevokeEntry where
  subject := (c.deviceId, c.name)
  revoked := c.revoked
  entry := (c.revokedAt, c.revokeReason)
  replacedBy := c.replacedBy

/-- The certificates by their numbers. -/
def certificateChain (db : Db) : Chain (String × String) RevokeEntry :=
  fun k => (db.certificates.find? k).map IssuedCertificate.link

/-- The steps of a chain of certificates. -/
abbrev CertificateSteps : Chain (String × String) RevokeEntry →
    Chain (String × String) RevokeEntry → Prop :=
  Chain.Steps (none, none) RenewedEntry

section Chain

variable {pki : PkiContext} {env : Env} {db db' : Db}

theorem below_next (db : Db) : (certificateChain db).Below db.certificates.next := by
  intro k l hk
  obtain ⟨c, hc, -⟩ := Option.map_eq_some_iff.mp hk
  have hid : c.id = k := Table.key_of_find?_eq_some hc
  rw [← hid]
  exact db.certificates.id_lt c (Table.mem_of_find?_eq_some hc)

theorem certificateChain_markRevoked (env : Env) (p : IssuedCertificate → Prop) [DecidablePred p]
    (reason : RevokeReason) (db : Db) :
    certificateChain (markRevoked env p reason db) = (certificateChain db).revoke
      (fun k => ∃ c ∈ db.certificates.find? k, p c) (some env.now, some reason) := by
  funext k
  have hfind : (markRevoked env p reason db).certificates.find? k = _ :=
    db.certificates.find?_modify p (·.markedRevoked env reason) (fun _ => rfl) k
  rw [certificateChain, hfind, Option.map_map, Chain.revoke, certificateChain]
  rcases db.certificates.find? k with _ | c
  · simp
  · simp only [Option.map_some, Function.comp_apply, Option.mem_some_iff, exists_eq_left']
    split_ifs
    · rfl
    · rfl

/-- Rows that are not revoked are revoked, and not as renewed. -/
theorem step_markRevoked {p : IssuedCertificate → Prop} [DecidablePred p] {reason : RevokeReason}
    (hreason : reason ≠ .renewed)
    (hp : ∀ k, ∀ c ∈ db.certificates.find? k, p c → c.revoked = false)
    (hdb' : db'.certificates = (markRevoked env p reason db).certificates) :
    CertificateSteps (certificateChain db) (certificateChain db') := by
  have hsame : certificateChain db' = certificateChain (markRevoked env p reason db) := by
    funext k
    rw [certificateChain, hdb', certificateChain]
  rw [hsame, certificateChain_markRevoked]
  refine .single (.revoke _ (fun hrenewed => hreason (Option.some.inj hrenewed)) ?_)
  rintro k ⟨c, hc, hpc⟩ l hl
  obtain ⟨c', hc', rfl⟩ := Option.map_eq_some_iff.mp hl
  rw [hc] at hc'
  cases hc'
  exact hp k c hc hpc

theorem steps_superseded (pki : PkiContext) (env : Env) (q : CertRequestArgs) (db : Db) :
    CertificateSteps (certificateChain db) (certificateChain (superseded pki env q db)) := by
  rw [superseded, supersedeActiveCerts]
  split_ifs
  · exact .refl
  · exact step_markRevoked (by decide) (fun _ _ _ hactive => hactive.2.2.1) rfl

theorem certificateChain_issue (env : Env) (request : CertificateRequest)
    (leaf : X509Certificate) (db : Db) :
    certificateChain (issue env request leaf db) = (certificateChain db).issue (none, none)
      db.certificates.next (request.deviceId, request.name) := by
  funext k
  have hfind : (issue env request leaf db).certificates.find? k = _ :=
    db.certificates.find?_insert (newCertificate env request leaf) (fun _ => rfl) k
  rw [certificateChain, hfind, Chain.issue]
  by_cases hk : k = db.certificates.next
  · rw [if_pos hk, hk, Function.update_self]
    rfl
  · rw [if_neg hk, Function.update_of_ne hk]
    rfl

theorem find?_replaceCert (orgId : OrganizationId) (currentId newId k : ℕ) :
    (replaceCert pki env orgId currentId newId db).certificates.find? k =
      (db.certificates.find? k).map fun c =>
        if c.id = currentId then c.replaced env newId else c := by
  have hmark : (markRevoked env (fun c => c.id = currentId) .renewed db).certificates.find? k = _ :=
    db.certificates.find?_modify (fun c => c.id = currentId) (·.markedRevoked env .renewed)
      (fun _ => rfl) k
  have hreplace : (replaceCert pki env orgId currentId newId db).certificates.find? k = _ :=
    (markRevoked env (fun c => c.id = currentId) .renewed db).certificates.find?_modify
      (fun c => c.id = currentId) (fun c => { c with replacedBy := some newId }) (fun _ => rfl) k
  rw [hreplace, hmark, Option.map_map]
  congr 1
  funext c
  simp only [Function.comp_apply]
  by_cases hc : c.id = currentId
  · have hid : (c.markedRevoked env .renewed).id = currentId := hc
    rw [if_pos hc, if_pos hid, if_pos hc]
    rfl
  · rw [if_neg hc, if_neg hc, if_neg hc]

/-- A renewal: the new certificate is inserted under the next number, and the old one names it. -/
theorem certificateChain_renewed (pki : PkiContext) (env : Env) {request : CertificateRequest}
    {current : IssuedCertificate} (leaf : X509Certificate) (orgId : OrganizationId)
    (hcurrent : current ∈ db.certificates.rows)
    (hsubject : (request.deviceId, request.name) = current.link.subject) :
    certificateChain (replaceCert pki env orgId current.id db.certificates.next
        (issue env request leaf db)) =
      (certificateChain db).renew (none, none) current.id db.certificates.next
        current.link.subject (some env.now, some .renewed) := by
  funext k
  rw [certificateChain, find?_replaceCert, Option.map_map, Chain.renew]
  by_cases hk : k = current.id
  · have hfind : (issue env request leaf db).certificates.find? current.id = some current :=
      Table.mem_rows_iff.mp (mem_certificates_issue.mpr (.inl hcurrent))
    rw [hk, hfind, Function.update_self, Option.map_some, Function.comp_apply, if_pos rfl]
    rfl
  · have hissue := congrFun (certificateChain_issue env request leaf db) k
    rw [Function.update_of_ne hk, ← hsubject, ← hissue, certificateChain]
    refine Option.map_congr fun c hc => ?_
    have hid : c.id = k := Table.key_of_find?_eq_some hc
    have hne : ¬ c.id = current.id := fun heq => hk (hid.symm.trans heq)
    rw [Function.comp_apply, if_neg hne]

theorem subject_of_currentCert {q : CertRequestArgs} {t : RequestTexts}
    {current : IssuedCertificate} (ht : q.texts = some t) (h : currentCert db q = some current) :
    current.revoked = false ∧ (q.deviceId, t.name) = current.link.subject := by
  obtain ⟨-, howned⟩ := Option.filter_eq_some_iff.mp h
  obtain ⟨hrevoked, hdevice, hname⟩ := of_decide_eq_true howned
  have htext : q.name = some t.name := (csrPem_of_texts ht).1
  have hname' : current.name = t.name := Option.some.inj (hname.trans htext)
  rw [IssuedCertificate.link, hdevice, hname']
  exact ⟨hrevoked, rfl⟩

theorem step_issued (request : CertificateRequest) (leaf : X509Certificate)
    (hdb' : db'.certificates = (issue env request leaf db).certificates) :
    CertificateSteps (certificateChain db) (certificateChain db') := by
  have hsame : certificateChain db' = certificateChain (issue env request leaf db) := by
    funext k
    rw [certificateChain, hdb', certificateChain]
  rw [hsame, certificateChain_issue]
  exact .single (.issue _ (below_next db))

theorem certificateSteps_processed {q : CertRequestArgs} {r : CertRequestResult}
    (h : Processed pki env q db r db') :
    CertificateSteps (certificateChain db) (certificateChain db') := by
  cases h with
  | pending => exact steps_superseded pki env q db
  | @issued t leaf =>
    have hinsert : certificateChain (insertRequest env q t none (superseded pki env q db)) =
        certificateChain (superseded pki env q db) := rfl
    refine (steps_superseded pki env q db).trans ?_
    rw [← hinsert]
    exact step_issued _ leaf rfl
  | rejected => exact .refl
  | @renewed t leaf current _ _ ht _ howned =>
    obtain ⟨hrevoked, hsubject⟩ := subject_of_currentCert ht howned
    have hmem : current ∈ db.certificates.rows := mem_of_currentCert howned
    have hlink : certificateChain db current.id = some current.link := by
      rw [certificateChain, Table.mem_rows_iff.mp hmem]
      rfl
    have hrow : current ∈ (insertRequest env q t q.currentSerial db).certificates.rows := hmem
    have hrequest : ((newRequest env q t q.currentSerial db.requests.next).deviceId,
        (newRequest env q t q.currentSerial db.requests.next).name) = current.link.subject :=
      hsubject
    have hrenewed : certificateChain (replaceCert pki env q.orgId current.id db.certificates.next
          (issue env (newRequest env q t q.currentSerial db.requests.next) leaf
            (insertRequest env q t q.currentSerial db))) =
        (certificateChain db).renew (none, none) current.id db.certificates.next
          current.link.subject (some env.now, some .renewed) :=
      certificateChain_renewed pki env leaf q.orgId hrow hrequest
    rw [hrenewed]
    exact .single (.renew hlink hrevoked (below_next db) rfl)

/-- The reason for which a call revokes all certificates of a device. -/
def CertificateCall.revokeAllReason : CertificateCall → Option RevokeReason
  | .revokeAllActiveForDevice _ _ reason _ => some reason
  | _ => none

/-- The call does not revoke the certificates of a device as renewed, which no caller does. -/
def ReasonGiven (_ : Db) (a : CallAt) : Prop := a.call.revokeAllReason ≠ some .renewed

instance (db : Db) (a : CallAt) : Decidable (ReasonGiven db a) :=
  inferInstanceAs (Decidable (_ ≠ _))

/-- A committed call is a sequence of issuances, revocations and renewals. -/
theorem steps_certificateChain {a : CallAt} (hreason : ReasonGiven db a)
    (h : a.perform.run db = .ok ((), db')) :
    CertificateSteps (certificateChain db) (certificateChain db') := by
  obtain ⟨pki, env, call⟩ := a
  cases call with
  | processRequest q =>
    obtain ⟨r, h⟩ := Tx.run_discard_eq_ok h
    exact certificateSteps_processed (processRequest_run_eq_ok.mp h)
  | approve requestId expectedOrgId reviewerUserId =>
    obtain ⟨cert, h⟩ := Tx.run_discard_eq_ok h
    obtain ⟨request, leaf, details, -, -, -, -, -, -, rfl⟩ := approve_cases h
    have hreview : certificateChain (reviewRequest env requestId reviewerUserId db) =
        certificateChain db := rfl
    rw [← hreview]
    exact step_issued request leaf rfl
  | reject requestId expectedOrgId reviewerUserId reason =>
    obtain ⟨request, details, -, -, -, rfl⟩ := reject_cases h
    exact .refl
  | revoke certificateId expectedOrgId userId =>
    obtain ⟨cert, details, hfind, -, hrevoked, rfl⟩ := revoke_cases h
    refine step_markRevoked (by decide) (fun k c hc hid => ?_) rfl
    have hk : k = certificateId := (Table.key_of_find?_eq_some hc).symm.trans hid
    rw [hk, hfind] at hc
    cases hc
    exact hrevoked
  | revokeAllActiveForDevice deviceId orgId reason actorUserId =>
    obtain ⟨-, rfl⟩ := Prod.mk.inj (Tx.run_modify_eq_ok.mp h)
    simp only [revokeAllActiveForDevice]
    split_ifs
    · exact .refl
    · exact step_markRevoked (fun h => hreason (congrArg some h))
        (fun _ _ _ hactive => hactive.2.1) rfl
  | rejectPendingRequestsForDevice deviceId orgId reason actorUserId =>
    obtain ⟨-, rfl⟩ := Prod.mk.inj (Tx.run_modify_eq_ok.mp h)
    simp only [rejectPendingRequestsForDevice]
    split_ifs <;> exact .refl

/-- Every run of calls is a sequence of issuances, revocations and renewals. -/
theorem certificateSteps_of_reaches (h : Reaches callStep ReasonGiven db db') :
    CertificateSteps (certificateChain db) (certificateChain db') := by
  refine h.invariant (fun u => CertificateSteps (certificateChain db) (certificateChain u))
    (fun {u a v} hu hreason hstep => hu.trans ?_) .refl
  rcases Tx.eq_or_run_of_commit hstep with rfl | ⟨_, hrun⟩
  · exact .refl
  · exact steps_certificateChain hreason hrun

end Chain

/-! ### Links and revoked rows -/

/-- A certificate has a successor iff it was revoked as renewed; the successor is a row with a
larger number, of the same device and name; and no two certificates have the same one. -/
structure RenewalsLinked (db : Db) : Prop where
  replaced : ∀ c ∈ db.certificates.rows,
    (c.replacedBy.isSome ↔ c.revokeReason = some .renewed)
  successor : ∀ c ∈ db.certificates.rows, ∀ n, c.replacedBy = some n →
    c.id < n ∧ ∃ c' ∈ db.certificates.rows,
      c'.id = n ∧ c'.deviceId = c.deviceId ∧ c'.name = c.name
  injective : ∀ c ∈ db.certificates.rows, ∀ c' ∈ db.certificates.rows, ∀ n,
    c.replacedBy = some n → c'.replacedBy = some n → c = c'

/-- Every revoked certificate of the first database is in the second one, revoked, with the same
time, reason and successor. -/
def RevokedStay (db db' : Db) : Prop :=
  ∀ c ∈ db.certificates.rows, c.revoked → ∃ c' ∈ db'.certificates.rows,
    c'.id = c.id ∧ c'.revoked ∧ c'.revokedAt = c.revokedAt ∧ c'.revokeReason = c.revokeReason ∧
      c'.replacedBy = c.replacedBy

section Rows

variable {db db' : Db}

theorem certificateChain_of_mem {c : IssuedCertificate} (hc : c ∈ db.certificates.rows) :
    certificateChain db c.id = some c.link := by
  rw [certificateChain, Table.mem_rows_iff.mp hc]
  rfl

theorem renewalsLinked_of_linked (h : Chain.Linked RenewedEntry (certificateChain db)) :
    RenewalsLinked db := by
  refine ⟨fun c hc => h.replaced c.id c.link (certificateChain_of_mem hc), fun c hc n hn => ?_,
    fun c hc c' hc' n hn hn' => ?_⟩
  · obtain ⟨hlt, l, hl, hsubject⟩ := h.successor c.id c.link n (certificateChain_of_mem hc) hn
    obtain ⟨c', hc', rfl⟩ := Option.map_eq_some_iff.mp hl
    obtain ⟨hdevice, hname⟩ := Prod.mk.inj hsubject
    exact ⟨hlt, c', Table.mem_of_find?_eq_some hc', Table.key_of_find?_eq_some hc', hdevice, hname⟩
  · have hid : c.id = c'.id := h.injective c.id c'.id c.link c'.link n
      (certificateChain_of_mem hc) (certificateChain_of_mem hc') hn hn'
    exact eq_of_id_eq hc hc' hid

theorem revokedStay_of_preserves
    (h : Chain.Preserves (certificateChain db) (certificateChain db')) : RevokedStay db db' := by
  intro c hc hrevoked
  obtain ⟨l, hl, hsame⟩ := h c.id c.link (certificateChain_of_mem hc)
  obtain ⟨c', hc', rfl⟩ := Option.map_eq_some_iff.mp hl
  have hlink : c'.link = c.link := hsame hrevoked
  injection hlink with _ hrev hentry hreplaced
  obtain ⟨hat, hreason⟩ := Prod.mk.inj hentry
  exact ⟨c', Table.mem_of_find?_eq_some hc', Table.key_of_find?_eq_some hc', hrev.trans hrevoked,
    hat, hreason, hreplaced⟩

end Rows

/-- **Chains of renewals.** In every state that a run of calls reaches from a database without
certificates, where the certificates of a device are never revoked as renewed, exactly the renewed
certificates have a successor, each its own, with a larger number and of the same device and name;
and from there on a revoked certificate keeps its time, reason and successor. -/
theorem renewals_linked_and_stay {db db' : Db} (hcertificates : db.certificates.rows = [])
    (h : Reaches callStep ReasonGiven db db') :
    RenewalsLinked db' ∧
      ∀ db'', Reaches callStep ReasonGiven db' db'' → RevokedStay db' db'' := by
  have hblank : ¬ RenewedEntry (none, none) := fun hrenewed => nomatch hrenewed
  have hempty : certificateChain db = fun _ => none := by
    funext k
    simp [certificateChain, Table.find?, hcertificates]
  have hlinked : Chain.Linked RenewedEntry (certificateChain db) := by
    rw [hempty]
    exact Chain.linked_empty
  refine ⟨renewalsLinked_of_linked (hlinked.steps hblank (certificateSteps_of_reaches h)), ?_⟩
  intro db'' h'
  exact revokedStay_of_preserves (Chain.preserves_of_steps (certificateSteps_of_reaches h'))

/-! ### A device that renews twice -/

namespace Renewing

/-- The certificate is issued, renewed, and renewed again; the last one is revoked. -/
def calls : List CallAt :=
  [Review.request 1 .manifest "csr" none, Review.request 2 .renewal "csr" (some "1"),
    Review.request 3 .renewal "csr" (some "2"), ⟨Review.pki, ⟨4, 4, ""⟩, .revoke 3 1 none⟩]

end Renewing

/-- A run with a chain of three certificates, the last of which is revoked by a user. -/
theorem renewals_linked_after_renewing_twice :
    ∃ db', (Review.db.certificates.rows = [] ∧ Reaches callStep ReasonGiven Review.db db' ∧
      db'.certificates.rows.map IssuedCertificate.replacedBy = [some 2, some 3, none]) ∧
      RenewalsLinked db' := by
  obtain ⟨db', hreach, hchain⟩ : ∃ db', Reaches callStep ReasonGiven Review.db db' ∧
      db'.certificates.rows.map IssuedCertificate.replacedBy = [some 2, some 3, none] :=
    exists_reaches_of_execBy Renewing.calls (by decide +kernel)
  exact ⟨db', ⟨rfl, hreach, hchain⟩, (renewals_linked_and_stay rfl hreach).1⟩

end EdgeGuardian.Controller
