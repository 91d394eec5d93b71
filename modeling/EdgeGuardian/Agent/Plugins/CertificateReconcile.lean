import EdgeGuardian.Agent.Plugins.CertificateManager
import EdgeGuardian.Agent.Reconciler

/-!
# What the certificate manager reports

A pass of the certificate manager over the certificates of the manifest, as the reconcile cycle sees
it: what it does for each of them from the beginning to the end, and the action that it reports with
the text of its error. The calls that it makes may fail, each with a text of its own; what was done
before a failed call stays.

Source: `agent/plugins/certificate/certificate.go`, lines 40–250.

## Main definitions

* `Store`, `Conditions`: what a pass works on, and how its calls come out.
* `reconcileCert`, `reconcile`: one certificate, and a pass over all of them.

## Main results

* `accountsFor_reconcileCert`: the action of a certificate.
-/

namespace EdgeGuardian.Agent.CertificateManager

open Bootstrap (CertRequestMessage Content Directory)
open Plugins (CertificateSpec certRequest defaultRenewBeforeDays generateKeyPair loadPrivateKey
  swapKey writeAtomic)
open Reconciler

/-- `CertificateManager.Name`. -/
def name : String := "certificate_manager"

/-- The files, the entries `cert:<name>` of the store, and the requests sent, the newest first. -/
structure Store where
  files : Directory
  /-- An empty entry counts as none. -/
  pending : String → Option CertPem
  sent : List CertRequestMessage

/-- The calls that may fail. -/
inductive Call
  | getMeta
  | installDir
  | swapKey
  | writeCert
  | clearMeta
  | keyDir
  | generateKey
  | marshalKey
  | writeKey
  | readCert
  | createCsr
  | send
deriving DecidableEq, Repr

/-- What a certificate meets in a pass: the time, the random source, the error of each call that
fails, and the texts for a certificate and for a key that do not parse. -/
structure Conditions where
  now : Instant
  key : KeyPair
  failing : Call → Option String
  parseError : String
  loadError : String

/-- A call, with the context of its error. -/
def Conditions.call (c : Conditions) (call : Call) (context : String) : Except String Unit :=
  match c.failing call with
  | some e => .error (context ++ ": " ++ e)
  | none => .ok ()

section Certificate

variable (spec : CertificateSpec) (c : Conditions)

/-- An action of the manager. -/
def action (actionType : ActionType) (description error : String) : Action where
  plugin := name
  resource := spec.name
  actionType := actionType
  description := description
  error := error

/-- `errorAction`, for the context and the error. -/
def errorAction (error : String) : Action := action spec .skipped "" error

/-- `GenerateKeyPair`. -/
def generate (context : String) : Except String KeyPair := do
  c.call .generateKey context
  match generateKeyPair spec.keyAlgo c.key with
  | some key => return key
  | none => .error (context ++ ": unsupported key algorithm: " ++ spec.keyAlgo)

/-- The files once there is a private key. -/
def ensureKey (files : Directory) : Except String Directory :=
  match files spec.keyPath with
  | some _ => .ok files
  | none => do
    c.call .keyDir "create key dir"
    let key ← generate spec c "generate key"
    c.call .marshalKey "marshal key"
    c.call .writeKey "write key"
    return writeAtomic files spec.keyPath (.privateKey key)

/-- `LoadPrivateKey`. -/
def loadKey (files : Directory) : Except String KeyPair :=
  match loadPrivateKey files spec.keyPath with
  | some key => .ok key
  | none => .error ("load key for CSR: " ++ c.loadError)

/-- `requestCert` up to the answer of the requester. -/
def certToSend (reqType : String) (files : Directory) : Except String CertRequestMessage := do
  let key ← loadKey spec c files
  c.call .createCsr "create CSR"
  c.call .send "send cert request"
  return certRequest spec key reqType ""

/-- `requestCert`. -/
def requestCert (reqType : String) (s : Store) : Action × Store :=
  match certToSend spec c reqType s.files with
  | .error e => (errorAction spec e, s)
  | .ok request =>
    (action spec .create ("CSR sent to controller (type=" ++ reqType ++ ")") "",
      { s with sent := request :: s.sent })

/-- The new key of a renewal. -/
def renewalKey : Except String KeyPair := do
  let key ← generate spec c "generate renewal key"
  c.call .marshalKey "marshal renewal key"
  c.call .writeKey "write renewal key"
  return key

/-- `requestRenewal`. The new key is stashed also where the request then fails. -/
def requestRenewal (serialHex : String) (s : Store) : Action × Store :=
  match renewalKey spec c with
  | .error e => (errorAction spec e, s)
  | .ok key =>
    let s := { s with files := writeAtomic s.files spec.newKeyPath (.privateKey key) }
    match c.call .createCsr "create renewal CSR" *> c.call .send "send renewal request" with
    | .error e => (errorAction spec e, s)
    | .ok _ =>
      (action spec .update ("renewal CSR sent (oldSerial=" ++ serialHex ++ ")") "",
        { s with sent := certRequest spec key "renewal" serialHex :: s.sent })

/-- The third part of `reconcileCert`. -/
def checkCertificate (s : Store) : Action × Store :=
  match s.files spec.certPath with
  | none => requestCert spec c "manifest" s
  | some certPem =>
    match c.call .readCert "read cert", certPem.parseCertificate with
    | .error e, _ => (errorAction spec e, s)
    | .ok _, none => (errorAction spec ("parse cert: " ++ c.parseError), s)
    | .ok _, some cert =>
      if cert.notAfter < c.now then requestCert spec c "initial" s
      else if cert.notAfter < c.now + Duration.ofDays defaultRenewBeforeDays then
        requestRenewal spec c cert.serialHex s
      else (action spec .noop "certificate valid" "", s)

/-- `installCert`: its error, if any, and the files after it. -/
def installCert (certPem : CertPem) (files : Directory) : Option String × Directory :=
  match c.failing .installDir, (c.failing .swapKey).filter fun _ => (files spec.newKeyPath).isSome,
    c.failing .writeCert with
  | some e, _, _ => (some e, files)
  | none, some e, _ => (some ("swap renewal key: " ++ e), files)
  | none, none, some e => (some ("write cert: " ++ e), swapKey spec files)
  | none, none, none =>
    (none, writeAtomic (swapKey spec files) spec.certPath (.ofCertPem certPem))

/-- The first part of `reconcileCert`, with an answer in the store. -/
def installPending (certPem : CertPem) (s : Store) : Action × Store :=
  match installCert spec c certPem s.files with
  | (some e, files) =>
    (action spec .create "" ("failed to install cert: " ++ e), { s with files := files })
  | (none, files) =>
    (action spec .create "certificate installed from controller" "",
      { s with
        files := files
        -- An error of `SaveMeta` is dropped.
        pending := if (c.failing .clearMeta).isSome then s.pending
          else Function.update s.pending spec.name none })

/-- `reconcileCert`. An error of `GetMeta` reads as no answer. -/
def reconcileCert (s : Store) : Action × Store :=
  match (s.pending spec.name).filter fun _ => (c.failing .getMeta).isNone with
  | some certPem => installPending spec c certPem s
  | none =>
    match ensureKey spec c s.files with
    | .error e => (errorAction spec e, s)
    | .ok files => checkCertificate spec c { s with files := files }

end Certificate

/-- `Reconcile`. -/
def reconcile (conditions : CertificateSpec → Conditions) (ctx : Context)
    (specs : List CertificateSpec) (s : Store) : List Action × Store :=
  reconcileEach name CertificateSpec.name (fun spec => reconcileCert spec (conditions spec)) ctx
    specs s

/-! ### The actions -/

/-- An error has a text. -/
def Texts {α : Type*} (x : Except String α) : Prop := ∀ e, x = .error e → e ≠ ""

theorem Texts.bind {α β : Type} {x : Except String α} {f : α → Except String β} (hx : Texts x)
    (hf : ∀ a, Texts (f a)) : Texts (x >>= f) := by
  intro e he
  rcases x with e' | a
  · cases he
    exact hx _ rfl
  · exact hf a e he

theorem texts_ok {α : Type*} (a : α) : Texts (.ok a : Except String α) :=
  fun _ h => by cases h

theorem texts_error {α : Type*} {e : String} (h : e ≠ "") : Texts (.error e : Except String α) :=
  fun _ he => by cases he; exact h

theorem append_ne_empty {s t : String} (h : s ≠ "") : s ++ t ≠ "" := by
  simp [h]

theorem Conditions.texts_call (c : Conditions) (call : Call) {context : String}
    (h : context ≠ "") : Texts (c.call call context) := by
  rw [Conditions.call]
  split
  · exact texts_error (append_ne_empty (append_ne_empty h))
  · exact texts_ok _

section Actions

variable (spec : CertificateSpec) (c : Conditions)

theorem accountsFor_errorAction {α : Type*} {x : Except String α} {e : String} (hx : Texts x)
    (he : x = .error e) : (errorAction spec e).AccountsFor spec.name where
  resource := rfl
  skipped _ := hx e he

theorem accountsFor_action {actionType : ActionType} (h : actionType ≠ .skipped)
    (description error : String) :
    (action spec actionType description error).AccountsFor spec.name where
  resource := rfl
  skipped hskipped := absurd hskipped h

theorem texts_generate {context : String} (h : context ≠ "") : Texts (generate spec c context) := by
  refine Texts.bind (c.texts_call .generateKey h) fun _ => ?_
  split
  · exact texts_ok _
  · exact texts_error (append_ne_empty (append_ne_empty h))

theorem texts_ensureKey (files : Directory) : Texts (ensureKey spec c files) := by
  rw [ensureKey]
  split
  · exact texts_ok _
  · refine Texts.bind (c.texts_call .keyDir (by decide)) fun _ => ?_
    refine Texts.bind (texts_generate spec c (by decide)) fun _ => ?_
    refine Texts.bind (c.texts_call .marshalKey (by decide)) fun _ => ?_
    exact Texts.bind (c.texts_call .writeKey (by decide)) fun _ => texts_ok _

theorem texts_certToSend (reqType : String) (files : Directory) :
    Texts (certToSend spec c reqType files) := by
  refine Texts.bind ?_ fun _ => Texts.bind (c.texts_call .createCsr (by decide)) fun _ =>
    Texts.bind (c.texts_call .send (by decide)) fun _ => texts_ok _
  rw [loadKey]
  split
  · exact texts_ok _
  · exact texts_error (append_ne_empty (by decide))

theorem texts_renewalKey : Texts (renewalKey spec c) :=
  Texts.bind (texts_generate spec c (by decide)) fun _ =>
    Texts.bind (c.texts_call .marshalKey (by decide)) fun _ =>
      Texts.bind (c.texts_call .writeKey (by decide)) fun _ => texts_ok _

theorem accountsFor_requestCert (reqType : String) (s : Store) :
    (requestCert spec c reqType s).1.AccountsFor spec.name := by
  rw [requestCert]
  split
  next e he => exact accountsFor_errorAction spec (texts_certToSend spec c reqType s.files) he
  next => exact accountsFor_action spec (by decide) _ _

theorem accountsFor_requestRenewal (serialHex : String) (s : Store) :
    (requestRenewal spec c serialHex s).1.AccountsFor spec.name := by
  rw [requestRenewal]
  split
  next e he => exact accountsFor_errorAction spec (texts_renewalKey spec c) he
  next key _ =>
    dsimp only
    split
    next e he =>
      refine accountsFor_errorAction spec ?_ he
      exact Texts.bind (c.texts_call .createCsr (by decide)) fun _ =>
        c.texts_call .send (by decide)
    next => exact accountsFor_action spec (by decide) _ _

theorem accountsFor_checkCertificate (s : Store) :
    (checkCertificate spec c s).1.AccountsFor spec.name := by
  rw [checkCertificate]
  split
  · exact accountsFor_requestCert spec c _ s
  · split
    next e _ he => exact accountsFor_errorAction spec (c.texts_call .readCert (by decide)) he
    next =>
      exact accountsFor_errorAction spec (texts_error (α := Unit) (append_ne_empty (by decide))) rfl
    next =>
      split_ifs
      · exact accountsFor_requestCert spec c _ s
      · exact accountsFor_requestRenewal spec c _ s
      · exact accountsFor_action spec (by decide) _ _

/-- **The action of a certificate** names it, and is skipped only with an error. -/
theorem accountsFor_reconcileCert (s : Store) :
    (reconcileCert spec c s).1.AccountsFor spec.name := by
  rw [reconcileCert]
  split
  · rw [installPending]
    split
    · exact accountsFor_action spec (by decide) _ _
    · exact accountsFor_action spec (by decide) _ _
  · split
    next e he => exact accountsFor_errorAction spec (texts_ensureKey spec c s.files) he
    next => exact accountsFor_checkCertificate spec c _

end Actions

end EdgeGuardian.Agent.CertificateManager
