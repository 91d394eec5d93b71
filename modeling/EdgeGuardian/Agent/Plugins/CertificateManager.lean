import EdgeGuardian.Agent.Bootstrap.IdentityStore
import EdgeGuardian.Agent.Bootstrap.Renewer

/-!
# The certificates of the manifest

The certificate manager brings one certificate of the manifest to its place: it generates a key,
asks for a certificate, and renews it with a new key, which it stashes beside the old one. The
answer is not handled where it arrives: the handler of `cert/response` leaves it in the store, and
the next reconcile cycle installs it, with the key that is stashed then. Inside of the renewal
window every cycle without an answer stashes another key and sends another request.

A step of the model is one access to the store, one access to a file, or the part of a cycle that
nothing else can observe. The certificate, the key and the stashed key are files by their paths, and
each write replaces a file as a whole.

Source: `agent/plugins/certificate/certificate.go`, `agent/cmd/agent/main.go`, lines 171–194.

## Main definitions

* `CertificateSpec`, `State`, `Action`, `step`: the manager for one certificate.
* `Paired`: the key at `keyPath` is the one of the certificate at `certPath`.
* `AnswersLast`: an answer is installed only if it is to the last request.

## Main results

* `Inv.step`: the stashed key, or else the key in place, is the one of the last request.
-/

namespace EdgeGuardian.Agent.Plugins

open Bootstrap (CertRequestMessage Content Directory createCsr)

/-! ### The resource -/

/-- A certificate of the manifest, the fields of `spec.Fields`. The two paths are taken as the
system resolves them, so that different texts are different files. -/
structure CertificateSpec where
  name : String
  commonName : String
  sans : List String
  certPath : String
  keyPath : String
  keyAlgo : String
deriving DecidableEq, Repr

/-- Where the key of a renewal is stashed. -/
def CertificateSpec.newKeyPath (spec : CertificateSpec) : String := spec.keyPath ++ ".new"

/-- The certificate, with its temporary file, and the two keys are different files. -/
structure CertificateSpec.Separate (spec : CertificateSpec) : Prop where
  key : spec.certPath ≠ spec.keyPath
  newKey : spec.certPath ≠ spec.newKeyPath
  tmpKey : spec.certPath ++ ".tmp" ≠ spec.keyPath
  tmpNewKey : spec.certPath ++ ".tmp" ≠ spec.newKeyPath

/-- `defaultRenewBeforeDays`. -/
def defaultRenewBeforeDays : ℕ := 30

/-! ### Files -/

/-- `ParsePKCS8PrivateKey` of the first PEM block. -/
def parsePrivateKey : Content → Option KeyPair
  | .privateKey key => some key
  | _ => none

/-- `LoadPrivateKey`. -/
def loadPrivateKey (files : Directory) (path : String) : Option KeyPair :=
  (files path).bind parsePrivateKey

/-- `WriteAtomic`: the temporary file is gone, and the file has the new contents. -/
def writeAtomic (files : Directory) (path : String) (data : Content) : Directory :=
  Function.update (Function.update files (path ++ ".tmp") none) path (some data)

/-- `GenerateKeyPair`, with what the random source gives. -/
def generateKeyPair (algo : String) (random : KeyPair) : Option KeyPair :=
  if algo = "rsa-2048" ∨ algo = "ecdsa-p256" ∨ algo = "" then some random else none

/-! ### The manager -/

/-- A request that the manager makes: a renewal has a new key, any other one the key in place. -/
structure Attempt where
  renewal : Bool
  key : KeyPair
deriving DecidableEq, Repr

/-- Where a reconcile cycle is. -/
inductive Pc
  | idle
  /-- There is no answer in the store. -/
  | checking
  /-- `installCert` is called. -/
  | installing (certPem : CertPem)
  /-- The stashed key, if there was one, is in place. -/
  | keySwapped (certPem : CertPem)
  /-- `installCert` has returned without an error. -/
  | installed
deriving DecidableEq, Repr

/-- The manager of one certificate. -/
structure State where
  files : Directory
  /-- The entry `cert:<name>` of the store; an empty text counts as none. -/
  pending : Option CertPem
  pc : Pc
  /-- What has been published or queued, the newest first. -/
  sent : List CertRequestMessage
  /-- The requests made, the newest first, also those that could not be sent. -/
  attempts : List Attempt

/-- What a cycle meets: the time, the random source, and whether its calls succeed. -/
structure Cycle where
  now : Instant
  key : KeyPair
  renewalKey : KeyPair
  keyWritten : Bool
  stashWritten : Bool
  published : Bool
deriving DecidableEq, Repr

/-- The steps of the manager and of the handler of `cert/response`. A call that fails has
`ok = false`. -/
inductive Action
  /-- The beginning of `reconcileCert`; an error reads as no answer. -/
  | getMeta (ok : Bool)
  /-- The rest of `reconcileCert` without an answer. -/
  | check (cycle : Cycle)
  /-- `installCert` up to the rename of the stashed key. -/
  | swapKey (ok : Bool)
  /-- The rest of `installCert`. -/
  | writeCert (ok : Bool)
  /-- The end of `reconcileCert`, whose error is dropped. -/
  | clearMeta (ok : Bool)
  /-- The handler stores an answer. -/
  | saveMeta (certPem : CertPem) (ok : Bool)
deriving DecidableEq, Repr

section Steps

variable (spec : CertificateSpec) (cycle : Cycle) (s : State)

/-- The files once there is a key, `none` if that fails. -/
def ensureKey (files : Directory) : Option Directory :=
  match files spec.keyPath with
  | some _ => some files
  | none => do
    let key ← generateKeyPair spec.keyAlgo cycle.key
    guard cycle.keyWritten
    return writeAtomic files spec.keyPath (.privateKey key)

/-- The arguments of the requester. -/
def certRequest (key : KeyPair) (reqType serial : String) : CertRequestMessage where
  name := spec.name
  commonName := spec.commonName
  sans := spec.sans
  csr := createCsr key spec.commonName
  reqType := reqType
  currentSerial := serial

/-- `requestCert`. -/
def requestCert (reqType : String) : State :=
  match loadPrivateKey s.files spec.keyPath with
  | none => s
  | some key =>
    { s with
      attempts := ⟨false, key⟩ :: s.attempts
      sent := if cycle.published then certRequest spec key reqType "" :: s.sent else s.sent }

/-- `requestRenewal`. -/
def requestRenewal (serial : String) : State :=
  match (generateKeyPair spec.keyAlgo cycle.renewalKey).filter fun _ => cycle.stashWritten with
  | none => s
  | some key =>
    { s with
      files := writeAtomic s.files spec.newKeyPath (.privateKey key)
      attempts := ⟨true, key⟩ :: s.attempts
      sent := if cycle.published then certRequest spec key "renewal" serial :: s.sent else s.sent }

/-- The third part of `reconcileCert`. -/
def checkCertificate : State :=
  match s.files spec.certPath with
  | none => requestCert spec cycle s "manifest"
  | some certPem =>
    match certPem.parseCertificate with
    | none => s
    | some cert =>
      if cert.notAfter < cycle.now then requestCert spec cycle s "initial"
      else if cert.notAfter < cycle.now + Duration.ofDays defaultRenewBeforeDays then
        requestRenewal spec cycle s cert.serialHex
      else s

/-- A cycle without an answer in the store. -/
def check : State :=
  match ensureKey spec cycle s.files with
  | none => { s with pc := .idle }
  | some files => { checkCertificate spec cycle { s with files := files } with pc := .idle }

/-- The files once the stashed key, if there is one, is in place. -/
def swapKey (files : Directory) : Directory :=
  match files spec.newKeyPath with
  | none => files
  | some key => Function.update (Function.update files spec.newKeyPath none) spec.keyPath (some key)

/-- One step of the manager. -/
def step : Action → Option State
  | .getMeta ok =>
    match s.pc with
    | .idle => some { s with pc := (s.pending.filter fun _ => ok).elim .checking .installing }
    | _ => none
  | .check cycle =>
    match s.pc with
    | .checking => some (check spec cycle s)
    | _ => none
  | .swapKey ok =>
    match s.pc with
    | .installing certPem =>
      if ok then some { s with files := swapKey spec s.files, pc := .keySwapped certPem }
      else some { s with pc := .idle }
    | _ => none
  | .writeCert ok =>
    match s.pc with
    | .keySwapped certPem =>
      if ok then
        some { s with
          files := writeAtomic s.files spec.certPath (.ofCertPem certPem)
          pc := .installed }
      else some { s with pc := .idle }
    | _ => none
  | .clearMeta ok =>
    match s.pc with
    | .installed => some { s with pc := .idle, pending := s.pending.filter fun _ => !ok }
    | _ => none
  | .saveMeta certPem ok =>
    some { s with
      pending := if ok then (some certPem).filter fun pem => pem ≠ .malformed [] else s.pending }

end Steps

/-- The key at `keyPath` is the one of the certificate at `certPath`. -/
def Paired (spec : CertificateSpec) (files : Directory) : Prop :=
  ∃ c, files spec.certPath = some (.certificate c) ∧
    files spec.keyPath = some (.privateKey c.publicKey)

/-- The action begins a cycle. -/
def Action.begins : Action → Bool
  | .getMeta _ => true
  | _ => false

/-- Where a cycle begins with an answer in the store, it is a certificate for the key of the last
request, and a key is stashed only if that was a renewal. -/
def AnswersLast (spec : CertificateSpec) (s : State) (a : Action) : Prop :=
  a.begins → ∀ certPem ∈ s.pending, ∃ last ∈ s.attempts.head?,
    certPem.parse.map X509Certificate.publicKey = some last.key ∧
      ((s.files spec.newKeyPath).isSome → last.renewal)

instance (spec : CertificateSpec) (s : State) (a : Action) : Decidable (AnswersLast spec s a) :=
  inferInstanceAs (Decidable (_ → ∀ _ ∈ _, _))

/-! ### Paths -/

section Paths

variable {spec : CertificateSpec} {files : Directory} {path q : String} {data : Content}

theorem ne_append_of_length {p suffix : String} (h : 0 < suffix.length) : p ≠ p ++ suffix := by
  intro heq
  have hlength := congrArg String.length heq
  rw [String.length_append] at hlength
  omega

theorem keyPath_ne_newKeyPath (spec : CertificateSpec) : spec.keyPath ≠ spec.newKeyPath :=
  ne_append_of_length (by decide)

@[simp] theorem writeAtomic_self : writeAtomic files path data path = some data := by
  simp [writeAtomic]

theorem writeAtomic_of_ne (hpath : q ≠ path) (htmp : q ≠ path ++ ".tmp") :
    writeAtomic files path data q = files q := by
  rw [writeAtomic, Function.update_of_ne hpath, Function.update_of_ne htmp]

/-- Generating the key does not touch a stashed one. -/
theorem writeAtomic_keyPath_newKeyPath :
    writeAtomic files spec.keyPath data spec.newKeyPath = files spec.newKeyPath := by
  refine writeAtomic_of_ne (keyPath_ne_newKeyPath spec).symm ?_
  simp [CertificateSpec.newKeyPath]

/-- The key that an installation leaves in place. -/
def nextKey (spec : CertificateSpec) (files : Directory) : Option Content :=
  files spec.newKeyPath <|> files spec.keyPath

@[simp] theorem swapKey_keyPath : swapKey spec files spec.keyPath = nextKey spec files := by
  rcases hnew : files spec.newKeyPath with _ | key
  · simp [swapKey, nextKey, hnew]
  · simp [swapKey, nextKey, hnew]

@[simp] theorem swapKey_newKeyPath : swapKey spec files spec.newKeyPath = none := by
  rcases hnew : files spec.newKeyPath with _ | key
  · simp [swapKey, hnew]
  · simp [swapKey, hnew, Function.update_of_ne (keyPath_ne_newKeyPath spec).symm]

end Paths

/-! ### The invariant -/

/-- The key of a request is where the manager has put it: the key of a renewal is stashed until it
is swapped in, and any other one is in place. -/
def KeyInPlace (spec : CertificateSpec) (files : Directory) (last : Attempt) : Prop :=
  (if last.renewal then nextKey spec files else files spec.keyPath) = some (.privateKey last.key)

/-- What holds at each point of a cycle. -/
def Pc.Inv (spec : CertificateSpec) (s : State) : Pc → Prop
  | .idle | .checking => True
  | .installing certPem =>
    (∀ last, s.attempts.head? = some last → (s.files spec.newKeyPath).isSome → last.renewal) ∧
      ∃ c, certPem = .certificate c ∧ nextKey spec s.files = some (.privateKey c.publicKey)
  | .keySwapped certPem =>
    ∃ c, certPem = .certificate c ∧ s.files spec.keyPath = some (.privateKey c.publicKey)
  | .installed => Paired spec s.files

/-- The key of the last request is in place, and the cycle is on its way to a pair. -/
structure Inv (spec : CertificateSpec) (s : State) : Prop where
  last : ∀ last, s.attempts.head? = some last → KeyInPlace spec s.files last
  pc : s.pc.Inv spec s

section Invariant

variable {spec : CertificateSpec} {s t : State} {a : Action} {cycle : Cycle}

theorem Inv.at_pc {pc : Pc} (h : Inv spec s) (hpc : s.pc = pc) : pc.Inv spec s := by
  rw [← hpc]
  exact h.pc

/-- A key that is there stays, and none is stashed or removed. -/
theorem keyInPlace_ensureKey {files files' : Directory} {last : Attempt}
    (h : KeyInPlace spec files last) (hensure : ensureKey spec cycle files = some files') :
    KeyInPlace spec files' last := by
  simp only [ensureKey] at hensure
  split at hensure
  · cases hensure
    exact h
  · next hnone =>
    simp only [Option.bind_eq_bind, Option.bind_eq_some_iff, Option.guard_eq_some',
      Option.pure_def, Option.some.injEq] at hensure
    obtain ⟨key, -, -, -, rfl⟩ := hensure
    -- Without a key in place, the last request was a renewal whose key is still stashed.
    rw [KeyInPlace] at h ⊢
    cases hrenewal : last.renewal with
    | false => simp [hrenewal, hnone] at h
    | true =>
      simp only [hrenewal, if_true, nextKey, hnone] at h ⊢
      rw [writeAtomic_keyPath_newKeyPath]
      rcases hnew : files spec.newKeyPath with _ | stashed
      · simp [hnew] at h
      · simpa [hnew] using h

/-- A request records the key with which it is made. -/
theorem keyInPlace_checkCertificate
    (h : ∀ last, s.attempts.head? = some last → KeyInPlace spec s.files last) :
    ∀ last, (checkCertificate spec cycle s).attempts.head? = some last →
      KeyInPlace spec (checkCertificate spec cycle s).files last := by
  have hrequest (reqType : String) : ∀ last,
      (requestCert spec cycle s reqType).attempts.head? = some last →
        KeyInPlace spec (requestCert spec cycle s reqType).files last := by
    rw [requestCert]
    split
    · exact h
    · next key hload =>
      intro last hlast
      cases hlast
      simp only [loadPrivateKey, Option.bind_eq_some_iff] at hload
      obtain ⟨content, hcontent, hkey⟩ := hload
      cases content <;> cases hkey
      exact hcontent
  have hrenewal (serial : String) : ∀ last,
      (requestRenewal spec cycle s serial).attempts.head? = some last →
        KeyInPlace spec (requestRenewal spec cycle s serial).files last := by
    rw [requestRenewal]
    split
    · exact h
    · intro last hlast
      cases hlast
      simp [KeyInPlace, nextKey]
  rw [checkCertificate]
  split
  · exact hrequest _
  · split
    · exact h
    · split_ifs
      · exact hrequest _
      · exact hrenewal _
      · exact h

theorem Inv.check (h : Inv spec s) : Inv spec (check spec cycle s) := by
  rw [Plugins.check]
  split
  · exact ⟨h.last, trivial⟩
  · next files hensure =>
    have hlast : ∀ last, s.attempts.head? = some last → KeyInPlace spec files last :=
      fun last hl => keyInPlace_ensureKey (h.last last hl) hensure
    refine ⟨?_, trivial⟩
    exact keyInPlace_checkCertificate (s := { s with files := files }) hlast

/-- A cycle that finds an answer to the last request will install it beside the key of that
request. -/
theorem Inv.getMeta {ok : Bool} (h : Inv spec s) (hok : AnswersLast spec s (.getMeta ok))
    (hstep : step spec s (.getMeta ok) = some t) : Inv spec t := by
  simp only [step] at hstep
  split at hstep
  · cases hstep
    refine ⟨h.last, ?_⟩
    rcases hfound : s.pending.filter (fun _ => ok) with _ | certPem
    · trivial
    · obtain ⟨hpending, -⟩ := Option.filter_eq_some_iff.mp hfound
      obtain ⟨last, hlast, hkey, hstash⟩ := hok rfl certPem hpending
      have hlast : s.attempts.head? = some last := hlast
      refine ⟨fun last' hlast' => ?_, ?_⟩
      · cases hlast.symm.trans hlast'
        exact hstash
      · obtain ⟨c, hc, hpublic⟩ := Option.map_eq_some_iff.mp hkey
        rcases certPem with c' | bytes <;> cases hc
        refine ⟨_, rfl, ?_⟩
        have hplace := h.last last hlast
        rw [KeyInPlace, ← hpublic] at hplace
        rw [← hplace]
        rcases hnew : s.files spec.newKeyPath with _ | stashed
        · simp [nextKey, hnew]
        · have hrenewal : last.renewal = true := hstash (by rw [hnew]; rfl)
          simp [hrenewal]
  · cases hstep

theorem Inv.swapKey {ok : Bool} (h : Inv spec s)
    (hstep : step spec s (.swapKey ok) = some t) : Inv spec t := by
  simp only [step] at hstep
  split at hstep
  · next certPem hpc =>
    obtain ⟨hstash, c, hc, hkey⟩ := h.at_pc hpc
    split_ifs at hstep
    · cases hstep
      refine ⟨fun last hlast => ?_, c, hc, ?_⟩
      · -- The key that is swapped in is the one of the last request, which was a renewal.
        have hplace := h.last last hlast
        rw [KeyInPlace] at hplace ⊢
        cases hrenewal : last.renewal with
        | true => simpa [hrenewal, nextKey] using hplace
        | false =>
          have hnone : s.files spec.newKeyPath = none := by
            by_contra hsome
            have := hstash last hlast (Option.isSome_iff_ne_none.mpr hsome)
            rw [hrenewal] at this
            cases this
          simpa [hrenewal, nextKey, hnone] using hplace
      · simpa using hkey
    · cases hstep
      exact ⟨h.last, trivial⟩
  · cases hstep

theorem Inv.writeCert {ok : Bool} (hspec : spec.Separate) (h : Inv spec s)
    (hstep : step spec s (.writeCert ok) = some t) : Inv spec t := by
  simp only [step] at hstep
  split at hstep
  · next certPem hpc =>
    obtain ⟨c, hc, hkey⟩ := h.at_pc hpc
    have hkeyPath (data : Content) :
        writeAtomic s.files spec.certPath data spec.keyPath = s.files spec.keyPath :=
      writeAtomic_of_ne hspec.key.symm hspec.tmpKey.symm
    have hnewKeyPath (data : Content) :
        writeAtomic s.files spec.certPath data spec.newKeyPath = s.files spec.newKeyPath :=
      writeAtomic_of_ne hspec.newKey.symm hspec.tmpNewKey.symm
    split_ifs at hstep
    · cases hstep
      refine ⟨fun last hlast => ?_, c, ?_, ?_⟩
      · have hplace := h.last last hlast
        rw [KeyInPlace] at hplace ⊢
        simpa only [nextKey, hkeyPath, hnewKeyPath] using hplace
      · rw [hc]
        exact writeAtomic_self
      · exact (hkeyPath _).trans hkey
    · cases hstep
      exact ⟨h.last, trivial⟩
  · cases hstep

/-- Every step keeps the invariant, if only answers to the last request are installed. -/
theorem Inv.step (hspec : spec.Separate) (h : Inv spec s) (hok : AnswersLast spec s a)
    (hstep : step spec s a = some t) : Inv spec t := by
  cases a with
  | getMeta ok => exact h.getMeta hok hstep
  | check cycle =>
    simp only [Plugins.step] at hstep
    split at hstep <;> cases hstep
    exact h.check
  | swapKey ok => exact h.swapKey hstep
  | writeCert ok => exact h.writeCert hspec hstep
  | clearMeta ok =>
    simp only [Plugins.step] at hstep
    split at hstep <;> cases hstep
    exact ⟨h.last, trivial⟩
  | saveMeta certPem ok =>
    -- An answer that arrives in the middle of an installation changes the store only.
    cases hstep
    refine ⟨h.last, ?_⟩
    have hpc := h.pc
    rcases hat : s.pc with _ | _ | _ | _ | _ <;> rw [hat] at hpc <;> exact hpc

end Invariant

end EdgeGuardian.Agent.Plugins
