import EdgeGuardian.Controller.Model
import EdgeGuardian.Lib.Transition
import Mathlib.Logic.Function.Basic

/-!
# One certificate authority for each organization

The store reads the certificate authority of an organization, or generates one and inserts its row.
The table has a unique key on the organization. A thread whose insert violates the key has lost the
race and reads the row of the winner back. The PEM of the certificate is cached in a map that the
threads use without a lock. Every call of the repository and of the map is atomic, and what a thread
does between two of them is private; any number of threads run at once, and every call may fail.

The argument is one of rely and guarantee. A thread relies on rows never being replaced, and keeps
this itself; so what it has read stays true while others run.

Source: `controller/src/main/java/com/edgeguardian/controller/service/pki/OrganizationCaStore.java`,
`controller/src/main/resources/db/migration/V4__pki.sql`.

## Main definitions

* `OrganizationCa`, `CaLibrary`, `createdCa`: the row, and how it is made.
* `CaStore.Call`, `CaStore.advance`: the three methods, and the next operation of a thread.
* `CaStore.State`, `CaStore.step`: the threads.
* `CaStore.OneCa`: what is returned and cached is what is stored.

## Main results

* `CaStore.advance_spec`: what one operation guarantees.
* `CaStore.one_ca_per_organization`: all threads agree with the stored row, which stays.
-/

namespace EdgeGuardian.Controller

/-- `OrganizationCa`: a row of `organization_cas`. -/
structure OrganizationCa where
  organizationId : OrganizationId
  caCertPem : String
  caKeyEncrypted : List UInt8
  caKeyIv : List UInt8
  subject : String
  notBefore : Instant
  notAfter : Instant
deriving DecidableEq, Repr

/-- The cryptography that the store calls, and its configuration. A method that throws gives
`none`. -/
structure CaLibrary (Cert : Type) where
  /-- `selfSign`, with the serial number that it draws. -/
  selfSign : KeyPair → String → ℕ → Instant → Instant → Option Cert
  /-- `PemCodec.write`. -/
  write : Cert → String
  /-- `PemCodec.parseCertificate`. -/
  parseCertificate : String → Option Cert
  /-- `CaKeyEncryption.encrypt`. -/
  encrypt : KeyPair → List UInt8 → Option (List UInt8)
  /-- `CaKeyEncryption.decrypt`. -/
  decrypt : List UInt8 → List UInt8 → Option KeyPair
  caValidityDays : ℕ

/-- `LoadedCa`. -/
structure LoadedCa (Cert : Type) where
  certificate : Cert
  privateKey : KeyPair
deriving DecidableEq, Repr

/-- What `create` draws: a key pair, a serial number, the time and an initialization vector. -/
structure CaMaterial where
  keyPair : KeyPair
  serial : ℕ
  now : Instant
  iv : List UInt8
deriving DecidableEq, Repr

/-- The row that `create` saves. -/
def createdCa {Cert : Type} (lib : CaLibrary Cert) (orgId : OrganizationId) (m : CaMaterial) :
    Option OrganizationCa := do
  let expiry := m.now + Duration.ofDays lib.caValidityDays
  let subject := "CN=EdgeGuardian CA Org-" ++ toString orgId ++ ",O=EdgeGuardian"
  let caCert ← lib.selfSign m.keyPair subject m.serial m.now expiry
  let encryptedKey ← lib.encrypt m.keyPair m.iv
  return {
    organizationId := orgId
    caCertPem := lib.write caCert
    caKeyEncrypted := encryptedKey
    caKeyIv := m.iv
    subject := subject
    notBefore := m.now
    notAfter := expiry }

theorem organizationId_createdCa {Cert : Type} {lib : CaLibrary Cert} {orgId : OrganizationId}
    {m : CaMaterial} {ca : OrganizationCa} (h : createdCa lib orgId m = some ca) :
    ca.organizationId = orgId := by
  obtain ⟨cert, -, h⟩ := Option.bind_eq_some_iff.mp h
  obtain ⟨key, -, h⟩ := Option.bind_eq_some_iff.mp h
  rw [← Option.some.inj h]

namespace CaStore

open Transition

/-! ### The methods -/

/-- The methods of the store. -/
inductive Call
  | getOrCreate (orgId : OrganizationId)
  | getCaCertPem (orgId : OrganizationId)
  | loadForSigning (orgId : OrganizationId)
deriving DecidableEq, Repr

/-- The organization of a call. -/
def Call.orgId : Call → OrganizationId
  | .getOrCreate orgId | .getCaCertPem orgId | .loadForSigning orgId => orgId

/-- What the methods return. -/
inductive Result (Cert : Type)
  | ca (ca : OrganizationCa)
  | pem (pem : String)
  | loaded (loaded : LoadedCa Cert)
deriving DecidableEq, Repr

/-- What a call makes of the row that `getOrCreate` gives it. -/
def Call.result {Cert : Type} (lib : CaLibrary Cert) (ca : OrganizationCa) :
    Call → Option (Result Cert)
  | .getOrCreate _ => some (.ca ca)
  | .getCaCertPem _ => some (.pem ca.caCertPem)
  | .loadForSigning _ => do
    let certificate ← lib.parseCertificate ca.caCertPem
    let privateKey ← lib.decrypt ca.caKeyEncrypted ca.caKeyIv
    return .loaded ⟨certificate, privateKey⟩

/-- What the threads share: the table and the cache. -/
structure Shared where
  rows : Table OrganizationCa OrganizationCa.organizationId
  caCertCache : OrganizationId → Option String

/-- Where a thread is. -/
inductive Pc (Cert : Type)
  | ready
  /-- Before `caRepository.findByOrganizationId` of `getOrCreate`. -/
  | finding
  /-- In `create`, before the key pair is generated. -/
  | creating
  /-- Before `caRepository.save`. -/
  | saving (ca : OrganizationCa)
  /-- In the handler of the violation, before `caRepository.findByOrganizationId`. -/
  | recovering
  /-- `getOrCreate` has given the row. -/
  | got (ca : OrganizationCa)
  | returned (r : Result Cert)
  | threw
deriving DecidableEq, Repr

/-- How the next operation of a thread goes. -/
inductive Event
  | ok
  /-- The operation throws, and has no effect. -/
  | fails
  /-- The key pair, serial number, time and initialization vector are drawn. -/
  | draws (m : CaMaterial)
  /-- The insert violates another constraint: there is no such organization. -/
  | violates
  /-- The insert is executed, and its answer is lost. -/
  | answerLost
deriving DecidableEq, Repr

section Threads

variable {Cert : Type} (lib : CaLibrary Cert)

/-- The insert of a row, `none` where its key is taken. -/
def Shared.insert (shared : Shared) (ca : OrganizationCa) : Option Shared :=
  if (shared.rows.find? ca.organizationId).isSome then none
  else some { shared with rows := shared.rows.save ca }

/-- The cache after a call. Only `getCaCertPem` puts a PEM into it. -/
def Shared.cached (shared : Shared) (ca : OrganizationCa) : Call → Shared
  | .getCaCertPem orgId =>
    { shared with
      caCertCache := Function.update shared.caCertCache orgId (some ca.caCertPem) }
  | .getOrCreate _ | .loadForSigning _ => shared

/-- The first operation of a call: `getCaCertPem` looks into the cache. -/
def Shared.entered (shared : Shared) : Call → Pc Cert
  | .getCaCertPem orgId => (shared.caCertCache orgId).elim .finding fun pem => .returned (.pem pem)
  | .getOrCreate _ | .loadForSigning _ => .finding

/-- The next operation of a thread. -/
def advance (call : Call) (shared : Shared) : Pc Cert → Event → Option (Shared × Pc Cert)
  | .ready, .ok => some (shared, shared.entered call)
  | .finding, .ok => some (shared, (shared.rows.find? call.orgId).elim .creating .got)
  | .creating, .draws m => some (shared, (createdCa lib call.orgId m).elim .threw .saving)
  | .saving ca, .ok =>
    match shared.insert ca with
    | some shared' => some (shared', .got ca)
    | none => some (shared, .recovering)
  | .saving _, .violates => some (shared, .recovering)
  | .saving ca, .answerLost => (shared.insert ca).map fun shared' => (shared', .threw)
  -- "CA missing after concurrent insert".
  | .recovering, .ok => some (shared, (shared.rows.find? call.orgId).elim .threw .got)
  | .got ca, .ok =>
    match call.result lib ca with
    | some r => some (shared.cached ca call, .returned r)
    | none => some (shared, .threw)
  | .finding, .fails | .creating, .fails | .saving _, .fails | .recovering, .fails =>
    some (shared, .threw)
  | _, _ => none

/-- What the threads share, and where they are. -/
structure State (ι : Type*) (Cert : Type) extends Shared where
  pc : ι → Pc Cert

/-- A step of one thread. -/
def step {ι : Type*} [DecidableEq ι] (calls : ι → Call) (s : State ι Cert) (a : ι × Event) :
    Option (State ι Cert) :=
  (advance lib (calls a.1) s.toShared (s.pc a.1) a.2).map fun r =>
    ⟨r.1, Function.update s.pc a.1 r.2⟩

end Threads

/-! ### Rely and guarantee -/

variable {Cert : Type} {lib : CaLibrary Cert} {call : Call} {shared shared' : Shared}
  {pc pc' : Pc Cert} {e : Event} {ca : OrganizationCa}

/-- No row is replaced. -/
def Kept (shared shared' : Shared) : Prop :=
  ∀ orgId ca, shared.rows.find? orgId = some ca → shared'.rows.find? orgId = some ca

/-- What is cached is stored. -/
def CacheAgrees (shared : Shared) : Prop :=
  ∀ orgId pem, shared.caCertCache orgId = some pem →
    ∃ ca, shared.rows.find? orgId = some ca ∧ ca.caCertPem = pem

/-- What a thread knows of the stored row. -/
def Knows (lib : CaLibrary Cert) (call : Call) (shared : Shared) : Pc Cert → Prop
  | .saving ca => ca.organizationId = call.orgId
  | .got ca => shared.rows.find? call.orgId = some ca
  | .returned r => ∃ ca, shared.rows.find? call.orgId = some ca ∧ call.result lib ca = some r
  | .ready | .finding | .creating | .recovering | .threw => True

theorem Kept.refl (shared : Shared) : Kept shared shared := fun _ _ h => h

theorem Kept.trans {shared'' : Shared} (h : Kept shared shared') (h' : Kept shared' shared'') :
    Kept shared shared'' :=
  fun orgId ca hca => h' orgId ca (h orgId ca hca)

/-- What a thread knows stays true while rows are kept. -/
theorem Knows.of_kept (hknows : Knows lib call shared pc) (hkept : Kept shared shared') :
    Knows lib call shared' pc := by
  cases pc with
  | saving => exact hknows
  | got ca => exact hkept _ ca hknows
  | returned r =>
    obtain ⟨ca, hca, hr⟩ := hknows
    exact ⟨ca, hkept _ ca hca, hr⟩
  | ready | finding | creating | recovering | threw => trivial

/-- **An insert.** It replaces nothing, leaves the cache as it is, and its row is stored. -/
theorem insert_spec (h : shared.insert ca = some shared') :
    Kept shared shared' ∧ shared'.caCertCache = shared.caCertCache ∧
      shared'.rows.find? ca.organizationId = some ca := by
  rw [Shared.insert] at h
  split_ifs at h with hfree
  rw [Bool.not_eq_true, Option.isSome_eq_false_iff, Option.isNone_iff_eq_none] at hfree
  rw [← Option.some.inj h]
  refine ⟨fun orgId ca' hca' => ?_, rfl, ?_⟩
  · rw [Table.find?_save]
    split_ifs with hid
    · rw [hid, hfree] at hca'
      exact absurd hca'.symm (Option.some_ne_none _)
    · exact hca'
  · rw [Table.find?_save, if_pos rfl]

theorem CacheAgrees.of_kept (h : CacheAgrees shared) (hkept : Kept shared shared')
    (hcache : shared'.caCertCache = shared.caCertCache) : CacheAgrees shared' := by
  intro orgId pem hpem
  rw [hcache] at hpem
  obtain ⟨ca, hca, hsame⟩ := h orgId pem hpem
  exact ⟨ca, hkept orgId ca hca, hsame⟩

/-- A PEM of the stored row may be cached. -/
theorem CacheAgrees.cached (h : CacheAgrees shared)
    (hca : shared.rows.find? call.orgId = some ca) : CacheAgrees (shared.cached ca call) := by
  cases call with
  | getOrCreate | loadForSigning => exact h
  | getCaCertPem orgId =>
    intro orgId' pem hpem
    by_cases hid : orgId' = orgId
    · subst hid
      simp only [Shared.cached, Function.update_self] at hpem
      exact ⟨ca, hca, Option.some.inj hpem⟩
    · simp only [Shared.cached, Function.update_of_ne hid] at hpem
      exact h orgId' pem hpem

theorem kept_cached : Kept shared (shared.cached ca call) := by
  cases call <;> exact Kept.refl _

/-- A thread that has looked into the cache knows the stored PEM, or nothing. -/
theorem CacheAgrees.knows_entered (h : CacheAgrees shared) :
    Knows lib call shared (shared.entered call) := by
  cases call with
  | getOrCreate | loadForSigning => trivial
  | getCaCertPem orgId =>
    rw [Shared.entered]
    rcases hpem : shared.caCertCache orgId with _ | pem
    · trivial
    · obtain ⟨ca, hca, rfl⟩ := h orgId pem hpem
      exact ⟨ca, hca, rfl⟩

/-- **One operation of a thread.** It replaces no row, keeps the cache in agreement with the rows,
and the thread knows the stored row afterwards. -/
theorem advance_spec (hcache : CacheAgrees shared) (hknows : Knows lib call shared pc)
    (h : advance lib call shared pc e = some (shared', pc')) :
    Kept shared shared' ∧ CacheAgrees shared' ∧ Knows lib call shared' pc' := by
  have hquiet : Knows lib call shared pc' → shared' = shared →
      Kept shared shared' ∧ CacheAgrees shared' ∧ Knows lib call shared' pc' := by
    rintro hpc' rfl
    exact ⟨Kept.refl _, hcache, hpc'⟩
  have hinserted : ∀ ca, shared.insert ca = some shared' → Knows lib call shared' pc' →
      Kept shared shared' ∧ CacheAgrees shared' ∧ Knows lib call shared' pc' := by
    intro ca hinsert hpc'
    obtain ⟨hkept, hsame, -⟩ := insert_spec hinsert
    exact ⟨hkept, hcache.of_kept hkept hsame, hpc'⟩
  unfold advance at h
  split at h
  · cases h
    exact hquiet hcache.knows_entered rfl
  · cases h
    refine hquiet ?_ rfl
    rcases hca : shared.rows.find? call.orgId with _ | ca
    · trivial
    · exact hca
  · cases h
    refine hquiet ?_ rfl
    rcases hca : createdCa lib call.orgId _ with _ | ca
    · trivial
    · exact organizationId_createdCa hca
  · rename_i ca
    split at h
    · rename_i hinsert
      cases h
      refine hinserted ca hinsert ?_
      have hid : ca.organizationId = call.orgId := hknows
      rw [Knows, ← hid]
      exact (insert_spec hinsert).2.2
    · cases h
      exact hquiet trivial rfl
  · cases h
    exact hquiet trivial rfl
  · rename_i ca
    obtain ⟨_, hinsert, h⟩ := Option.map_eq_some_iff.mp h
    cases h
    exact hinserted ca hinsert trivial
  · cases h
    refine hquiet ?_ rfl
    rcases hca : shared.rows.find? call.orgId with _ | ca
    · trivial
    · exact hca
  · rename_i ca
    split at h
    · rename_i r hr
      cases h
      exact ⟨kept_cached, hcache.cached hknows, ca, kept_cached _ ca hknows, hr⟩
    · cases h
      exact hquiet trivial rfl
  all_goals first
    | (cases h; exact hquiet trivial rfl)
    | exact absurd h.symm (Option.some_ne_none _)

/-! ### Threads -/

section Runs

variable {ι : Type*} {calls : ι → Call} {s₀ s t : State ι Cert} {a : ι × Event}

/-- What has been returned was made of the stored row, and what is cached is the stored PEM. -/
structure OneCa (lib : CaLibrary Cert) (calls : ι → Call) (s : State ι Cert) : Prop where
  returned : ∀ i r, s.pc i = .returned r →
    ∃ ca, s.rows.find? (calls i).orgId = some ca ∧ (calls i).result lib ca = some r
  cached : ∀ orgId pem, s.caCertCache orgId = some pem →
    ∃ ca, s.rows.find? orgId = some ca ∧ ca.caCertPem = pem

/-- The states from which runs start: no call has begun, and what is cached is stored. -/
structure Starting (s : State ι Cert) : Prop where
  pc : ∀ i, s.pc i = .ready
  cached : CacheAgrees s.toShared

/-- The invariant: the cache agrees with the rows, and every thread knows the stored row. -/
structure CaInv (lib : CaLibrary Cert) (calls : ι → Call) (s : State ι Cert) : Prop where
  cached : CacheAgrees s.toShared
  knows : ∀ i, Knows lib (calls i) s.toShared (s.pc i)

theorem Starting.caInv (h : Starting s) : CaInv lib calls s := by
  refine ⟨h.cached, fun i => ?_⟩
  rw [h.pc i]
  trivial

theorem CaInv.oneCa (h : CaInv lib calls s) : OneCa lib calls s := by
  refine ⟨fun i r hr => ?_, h.cached⟩
  have hknows := h.knows i
  rwa [hr] at hknows

variable [DecidableEq ι]

theorem CaInv.step (hs : CaInv lib calls s) (h : CaStore.step lib calls s a = some t) :
    CaInv lib calls t ∧ Kept s.toShared t.toShared := by
  obtain ⟨⟨shared', pc'⟩, hadvance, rfl⟩ := Option.map_eq_some_iff.mp h
  obtain ⟨hkept, hcache, hknows⟩ := advance_spec hs.cached (hs.knows a.1) hadvance
  refine ⟨⟨hcache, fun i => ?_⟩, hkept⟩
  show Knows lib (calls i) shared' (Function.update s.pc a.1 pc' i)
  by_cases hi : i = a.1
  · rw [hi, Function.update_self]
    exact hknows
  · rw [Function.update_of_ne hi]
    exact (hs.knows i).of_kept hkept

/-- No run replaces a row. -/
theorem CaInv.kept_of_reaches (hs : CaInv lib calls s)
    (h : Reachable (CaStore.step lib calls) s t) : Kept s.toShared t.toShared := by
  have ht : CaInv lib calls t ∧ Kept s.toShared t.toShared :=
    h.invariant (fun t => CaInv lib calls t ∧ Kept s.toShared t.toShared)
      (fun hu _ hstep => ⟨(hu.1.step hstep).1, hu.2.trans (hu.1.step hstep).2⟩) ⟨hs, Kept.refl _⟩
  exact ht.2

end Runs

/-- **One certificate authority for each organization.** In every interleaving of any number of
calls, all calls of one organization that have returned were made of the one row that is stored for
it, the cached PEM is the PEM of that row, and no later step replaces a row. -/
theorem one_ca_per_organization {ι : Type*} [DecidableEq ι] {calls : ι → Call}
    {s₀ s : State ι Cert} (h₀ : Starting s₀) (h : Reachable (CaStore.step lib calls) s₀ s) :
    OneCa lib calls s ∧ ∀ t, Reachable (CaStore.step lib calls) s t →
      ∀ orgId ca, s.rows.find? orgId = some ca → t.rows.find? orgId = some ca := by
  have hs : CaInv lib calls s :=
    h.invariant (CaInv lib calls) (fun hu _ hstep => (hu.step hstep).1) h₀.caInv
  exact ⟨hs.oneCa, fun t ht => hs.kept_of_reaches ht⟩

/-! ### Two threads that create at once -/

namespace Race

/-- Certificates as texts, and a key that is stored behind its initialization vector. -/
def textLibrary : CaLibrary String where
  selfSign keyPair subject serial _ _ :=
    some (subject ++ "#" ++ toString serial ++ "#" ++ toString keyPair)
  write cert := cert
  parseCertificate pem := some pem
  encrypt keyPair iv := some (iv ++ [UInt8.ofNat keyPair])
  decrypt encrypted iv := encrypted[iv.length]?.map UInt8.toNat
  caValidityDays := 3650

/-- Two threads find no row, and a third asks for the PEM later. -/
def calls : ℕ → Call
  | 0 => .getOrCreate 1
  | 1 => .loadForSigning 1
  | _ => .getCaCertPem 1

/-- No row is stored, and no call has begun. -/
def nothing : State ℕ String where
  rows := Table.empty
  caCertCache := fun _ => none
  pc := fun _ => .ready

/-- The second thread loses the race, and reads the row of the first one back. -/
def race : List (ℕ × Event) :=
  [(0, .ok), (0, .ok), (1, .ok), (1, .ok), (0, .draws ⟨7, 101, 20, [1]⟩),
    (1, .draws ⟨9, 102, 21, [2]⟩), (0, .ok), (1, .ok), (1, .ok), (0, .ok), (1, .ok), (2, .ok),
    (2, .ok), (2, .ok)]

end Race

open Race in
/-- The thread that has lost the race signs with the key of the one that has won it. -/
theorem one_ca_per_organization_of_race :
    ∃ s, (Reachable (CaStore.step textLibrary calls) nothing s ∧
        s.pc 1 = .returned (.loaded ⟨"CN=EdgeGuardian CA Org-1,O=EdgeGuardian#101#7", 7⟩) ∧
        s.pc 2 = .returned (.pem "CN=EdgeGuardian CA Org-1,O=EdgeGuardian#101#7")) ∧
      OneCa textLibrary calls s := by
  have hstart : Starting nothing := by
    refine ⟨fun _ => rfl, fun orgId pem hpem => ?_⟩
    exact absurd hpem.symm (Option.some_ne_none _)
  obtain ⟨s, hs⟩ : ∃ s, Reachable (CaStore.step textLibrary calls) nothing s ∧
      s.pc 1 = .returned (.loaded ⟨"CN=EdgeGuardian CA Org-1,O=EdgeGuardian#101#7", 7⟩) ∧
      s.pc 2 = .returned (.pem "CN=EdgeGuardian CA Org-1,O=EdgeGuardian#101#7") :=
    exists_reaches_of_execBy race (by decide +kernel)
  exact ⟨s, hs, (one_ca_per_organization hstart hs.1).1⟩

end CaStore

end EdgeGuardian.Controller
