import EdgeGuardian.Agent.Bootstrap.Identity
import EdgeGuardian.Lib.FileStore

/-!
# The identity directory, file operation by file operation

`persist` replaces the key, the certificate and the CA of the identity one after the other, each
through a temporary file and a rename. A process that stops in between leaves some of them replaced
and the others not, and `Load`, which asks only that the three files are there and that the
certificate can be parsed, makes an identity of them or an error. `Replace` is documented as an
atomic swap; it is one where the process stops before the first rename or after the last one.

Source: `agent/internal/bootstrap/identity.go`, lines 64–173, `agent/plugins/certificate/csr.go`
(`WriteAtomic`, `ParseCertificatePEM`).

## Main definitions

* `Content`, `Directory`: what the files hold.
* `Manager.load`, `Manager.persist`: the identity that is read, and the replacements that write it.
* `Manager.Recovers`: `Load` returns no identity, the complete old one or the complete new one.
* `Manager.Accepted`, `Manager.SafeStop`: what `persist` finds, and where it may stop.

## Main results

* `Manager.load_represents`: on files that hold what they should, `Manager.load` is the `load` of
  whole files.
* `Manager.recovers_iff_safeStop`: what `Load` makes of every point at which `persist` can stop.
* `Manager.mismatched_after_key_rename`: a renewal that stops after its first rename.
-/

namespace EdgeGuardian.Agent.Bootstrap

open FileStore

/-! ### Files -/

/-- What a file holds: a key or a certificate in PEM, or other bytes. -/
inductive Content
  | privateKey (key : KeyPair)
  | certificate (c : X509Certificate)
  | other (bytes : List UInt8)
deriving DecidableEq, Repr

/-- `ParseCertificatePEM`. -/
def Content.parseCertificate : Content → Option X509Certificate
  | .certificate c => some c
  | _ => none

/-- The contents of a file that holds a certificate or bytes that are none. -/
def Content.ofCertPem : CertPem → Content
  | .certificate c => .certificate c
  | .malformed bytes => .other bytes

@[simp] theorem Content.parseCertificate_ofCertPem (pem : CertPem) :
    (Content.ofCertPem pem).parseCertificate = pem.parse := by
  cases pem <;> rfl

/-- The identity directory: the files by name. -/
abbrev Directory := String → Option Content

/-- `Identity`, with the contents of the files where the source has their fingerprints. -/
structure Identity where
  certificate : X509Certificate
  serialHex : String
  notAfter : Instant
  certPem : Content
  caPem : Content
deriving DecidableEq, Repr

/-- The identity that `Load` builds from a certificate and the files it was read from. -/
def Identity.ofFiles (cert : X509Certificate) (certPem caPem : Content) : Identity where
  certificate := cert
  serialHex := cert.serialHex
  notAfter := cert.notAfter
  certPem := certPem
  caPem := caPem

/-- What `persist` is given; `caPem` is `none` where the source has an empty slice. -/
structure Material where
  keyPem : Content
  certPem : Content
  caPem : Option Content
deriving DecidableEq, Repr

/-- The certificate is for the key. -/
def Material.Matching (m : Material) : Prop :=
  ∃ c, m.certPem = .certificate c ∧ m.keyPem = .privateKey c.publicKey

namespace Manager

def keyPath : String := "identity.key"

def certPath : String := "identity.crt"

def caPath : String := "ca.crt"

/-! ### Load and persist -/

/-- `Manager.Load`. What the parser says of a certificate is left out of its error. -/
def load (dir : Directory) : Except String (Option Identity) :=
  match dir certPath with
  | none => .ok none
  | some certPem =>
    match certPem.parseCertificate with
    | none => .error ("parse " ++ certPath)
    | some cert =>
      if (dir keyPath).isNone then
        .error ("identity cert present but private key missing at " ++ keyPath ++ ": " ++
          missing keyPath)
      else
        match dir caPath with
        | none =>
          .error ("identity cert present but CA cert missing at " ++ caPath ++ ": " ++
            missing caPath)
        | some caPem => .ok (some (Identity.ofFiles cert certPem caPem))

/-- `WriteAtomic`. Opening the temporary file empties it, and its `pieces` are what it holds while
the data is being written. -/
def writeAtomic (pieces : String → List Content) (path : String) (data : Content) :
    Write String Content where
  tmp := path ++ ".tmp"
  target := path
  partials := .other [] :: pieces path
  contents := data

/-- `persist`: the key, the certificate, and the CA if there is one. -/
def persist (pieces : String → List Content) (m : Material) : List (Write String Content) :=
  [writeAtomic pieces keyPath m.keyPem, writeAtomic pieces certPath m.certPem] ++
    (m.caPem.map (writeAtomic pieces caPath)).toList

/-- The directory after the first `n` file operations of `persist`. -/
def stopped (pieces : String → List Content) (m : Material) (n : ℕ) (dir : Directory) :
    Directory :=
  run (((persist pieces m).flatMap Write.ops).take n) dir

/-- The number of files that these operations have replaced. -/
def replaced (pieces : String → List Content) (m : Material) (n : ℕ) : ℕ :=
  completed (persist pieces m) n

/-- A directory that holds the four files of the renewal. -/
structure Represents (dir : Directory) (files : IdentityFiles) : Prop where
  key : dir keyPath = files.key.map .privateKey
  cert : dir certPath = files.cert.map .ofCertPem
  ca : dir caPath = files.ca.map .ofCertPem

/-- On such a directory, `Load` reads the certificate that it reads from whole files. -/
theorem load_represents {dir : Directory} {files : IdentityFiles} (h : Represents dir files) :
    (load dir).toOption.map (Option.map Identity.certificate) =
      (Bootstrap.load files).toOption := by
  simp only [load, Bootstrap.load, h.key, h.cert, h.ca]
  rcases files.cert with _ | pem
  · rfl
  · rcases hparse : pem.parse with _ | c
    · simp [hparse, Except.toOption]
    · rcases files.key with _ | k
      · simp [hparse, Except.toOption]
      · rcases files.ca with _ | ca
        · simp [hparse, Except.toOption]
        · simp [hparse, Except.toOption, Identity.ofFiles]

/-! ### Stopping in between -/

/-- What `persist` finds: no identity, or a complete one whose key is the one of its certificate. -/
def Accepted (dir : Directory) : Prop :=
  dir certPath = none ∨
    ∃ c ca, dir keyPath = some (.privateKey c.publicKey) ∧
      dir certPath = some (.certificate c) ∧ dir caPath = some ca

/-- The complete new identity: the new certificate, with the CA that is given or else the one that
is there. -/
def newIdentity (m : Material) (dir : Directory) : Option Identity := do
  let cert ← m.certPem.parseCertificate
  let caPem ← m.caPem <|> dir caPath
  return Identity.ofFiles cert m.certPem caPem

/-- Of what is left of the directory, `Load` returns no identity, or the complete old or the
complete new one, whose key is then the one of its certificate. -/
def Recovers (m : Material) (dir left : Directory) : Prop :=
  load left = .ok none ∨
    ∃ id, load left = .ok (some id) ∧
      left keyPath = some (.privateKey id.certificate.publicKey) ∧
      (load dir = .ok (some id) ∨ newIdentity m dir = some id)

/-- Where the process may stop, by the number of files that have been replaced. -/
structure SafeStop (m : Material) (dir : Directory) (k : ℕ) : Prop where
  /-- Between the key and the certificate: there was no certificate, or it was for the new key. -/
  afterKey : k = 1 → ∀ c, dir certPath = some (.certificate c) → m.keyPem = .privateKey c.publicKey
  /-- Between the certificate and the CA, or at the end if no CA is given: there was a CA, which is
  the one given, if any is, or else the certificate was the new one. -/
  afterCert : k = 2 → ∃ ca, dir caPath = some ca ∧
    ((∀ ca' ∈ m.caPem, ca' = ca) ∨ dir certPath = some m.certPem)

theorem load_congr {dir dir' : Directory} (hkey : dir keyPath = dir' keyPath)
    (hcert : dir certPath = dir' certPath) (hca : dir caPath = dir' caPath) :
    load dir = load dir' := by
  simp only [load, hkey, hcert, hca]

theorem load_eq_some {dir : Directory} {key ca : Content} {c : X509Certificate}
    (hkey : dir keyPath = some key) (hcert : dir certPath = some (.certificate c))
    (hca : dir caPath = some ca) :
    load dir = .ok (some (Identity.ofFiles c (.certificate c) ca)) := by
  simp [load, hkey, hcert, hca, Content.parseCertificate]

theorem load_eq_none {dir : Directory} (hcert : dir certPath = none) : load dir = .ok none := by
  simp [load, hcert]

variable {m : Material} {dir left : Directory}

/-- Before the first rename everything is as it was. -/
theorem recovers_untouched (hdir : Accepted dir) (hkey : left keyPath = dir keyPath)
    (hcert : left certPath = dir certPath) (hca : left caPath = dir caPath) :
    Recovers m dir left := by
  rcases hdir with hnone | ⟨c, ca, hk, hc, ha⟩
  · exact .inl (load_eq_none (hcert.trans hnone))
  · have hload := load_eq_some hk hc ha
    exact .inr ⟨_, (load_congr hkey hcert hca).trans hload, hkey.trans hk, .inl hload⟩

/-- With the new key, the old certificate is returned, whether or not it is for that key. -/
theorem recovers_afterKey_iff (hdir : Accepted dir) (hkey : left keyPath = some m.keyPem)
    (hcert : left certPath = dir certPath) (hca : left caPath = dir caPath) :
    Recovers m dir left ↔
      ∀ c, dir certPath = some (.certificate c) → m.keyPem = .privateKey c.publicKey := by
  rcases hdir with hnone | ⟨c, ca, hk, hc, ha⟩
  · have hload : load left = .ok none := load_eq_none (hcert.trans hnone)
    simp [Recovers, hload, hnone]
  · have hload := load_eq_some hkey (hcert.trans hc) (hca.trans ha)
    rw [hc]
    constructor
    · rintro (hnone | ⟨id, hid, hmatch, -⟩) c' hc'
      · rw [hload] at hnone
        cases hnone
      · rw [hload] at hid
        cases hid
        cases hc'
        exact Option.some.inj (hkey.symm.trans hmatch)
    · intro h
      exact .inr ⟨_, hload, hkey.trans (congrArg some (h c rfl)), .inl (load_eq_some hk hc ha)⟩

/-- The identity that was there has this certificate if the file had. -/
theorem load_eq_old_iff (hdir : Accepted dir) {c : X509Certificate} {ca : Content}
    (hca : dir caPath = some ca) :
    load dir = .ok (some (Identity.ofFiles c (.certificate c) ca)) ↔
      dir certPath = some (.certificate c) := by
  rcases hdir with hnone | ⟨c', ca', hk, hc, ha⟩
  · simp [load_eq_none hnone, hnone]
  · have hca' : ca' = ca := Option.some.inj (ha.symm.trans hca)
    rw [load_eq_some hk hc ha, hc, hca']
    constructor
    · intro h
      injection h with h
      injection h with h
      exact congrArg (fun id => some (Content.certificate id.certificate)) h
    · intro h
      injection h with h
      injection h with h
      rw [h]

/-- The new identity has the CA that was there if it comes with no other one. -/
theorem newIdentity_eq_iff {c : X509Certificate} {ca : Content} (hc : m.certPem = .certificate c)
    (hca : dir caPath = some ca) :
    newIdentity m dir = some (Identity.ofFiles c (.certificate c) ca) ↔
      ∀ ca' ∈ m.caPem, ca' = ca := by
  rcases hgiven : m.caPem with _ | given
  · simp [newIdentity, hc, hgiven, hca, Content.parseCertificate]
  · simp [newIdentity, hc, hgiven, Content.parseCertificate, Identity.ofFiles]

/-- With the new key and the new certificate, the CA is the one that was there. -/
theorem recovers_afterCert_iff (hdir : Accepted dir) (hm : m.Matching)
    (hkey : left keyPath = some m.keyPem) (hcert : left certPath = some m.certPem)
    (hca : left caPath = dir caPath) :
    Recovers m dir left ↔ ∃ ca, dir caPath = some ca ∧
      ((∀ ca' ∈ m.caPem, ca' = ca) ∨ dir certPath = some m.certPem) := by
  obtain ⟨c, hc, hk⟩ := hm
  rw [hc] at hcert ⊢
  rcases hdirca : dir caPath with _ | ca
  · have hload : load left =
        .error ("identity cert present but CA cert missing at " ++ caPath ++ ": " ++
          missing caPath) := by
      simp [load, hkey, hcert, hca, hdirca, Content.parseCertificate]
    simp [Recovers, hload]
  · have hload := load_eq_some hkey hcert (hca.trans hdirca)
    have hold := load_eq_old_iff (c := c) hdir hdirca
    have hnew := newIdentity_eq_iff hc hdirca
    constructor
    · rintro (hnone | ⟨id, hid, -, hwhich⟩)
      · rw [hload] at hnone
        cases hnone
      · rw [hload] at hid
        cases hid
        exact ⟨ca, rfl, hwhich.symm.imp hnew.mp hold.mp⟩
    · rintro ⟨ca', hca', hwhich⟩
      cases hca'
      exact .inr ⟨_, hload, hkey.trans (congrArg some hk), hwhich.symm.imp hold.mpr hnew.mpr⟩

/-- After the last rename the new identity is complete. -/
theorem recovers_complete (hm : m.Matching) {ca : Content} (hgiven : m.caPem = some ca)
    (hkey : left keyPath = some m.keyPem) (hcert : left certPath = some m.certPem)
    (hca : left caPath = some ca) : Recovers m dir left := by
  obtain ⟨c, hc, hk⟩ := hm
  rw [hc] at hcert
  refine .inr ⟨_, load_eq_some hkey hcert hca, hkey.trans (congrArg some hk), .inr ?_⟩
  simp [newIdentity, hc, hgiven, Content.parseCertificate]

/-! ### Every point at which the process can stop -/

variable (pieces : String → List Content)

/-- The files after some operations of `persist` are those of the replacements that are complete. -/
theorem stopped_eq_overwrite (n : ℕ) {path : String}
    (hpath : path = keyPath ∨ path = certPath ∨ path = caPath) :
    stopped pieces m n dir path =
      overwrite ((persist pieces m).take (replaced pieces m n)) dir path := by
  refine run_take_flatMap_ops _ _ _ fun w hw => ?_
  have htmp : w.tmp = keyPath ++ ".tmp" ∨ w.tmp = certPath ++ ".tmp" ∨
      w.tmp = caPath ++ ".tmp" := by
    rcases hm : m.caPem with _ | ca <;> simp [persist, hm] at hw <;>
      rcases hw with rfl | rfl | rfl <;> simp [writeAtomic]
  rcases hpath with rfl | rfl | rfl <;> rcases htmp with h | h | h <;> rw [h] <;> decide

theorem replaced_le (n : ℕ) : replaced pieces m n ≤ 2 + m.caPem.toList.length := by
  have hle := completed_le (persist pieces m) n
  have hlength : (persist pieces m).length = 2 + m.caPem.toList.length := by
    rcases hm : m.caPem with _ | ca <;> simp [persist, hm]
  rwa [hlength] at hle

/-- **What a stop leaves.** Wherever `persist` stops, `Load` returns no identity, the complete old
one or the complete new one if and only if the stop is safe: not between the key and the
certificate, unless there was no certificate or it is for the new key, and not between the
certificate and the CA, unless the CA that was there is the new one. -/
theorem recovers_iff_safeStop (hdir : Accepted dir) (hm : m.Matching) (n : ℕ) :
    Recovers m dir (stopped pieces m n dir) ↔ SafeStop m dir (replaced pieces m n) := by
  have hkey : stopped pieces m n dir keyPath = _ := stopped_eq_overwrite pieces n (.inl rfl)
  have hcert : stopped pieces m n dir certPath = _ :=
    stopped_eq_overwrite pieces n (.inr (.inl rfl))
  have hca : stopped pieces m n dir caPath = _ := stopped_eq_overwrite pieces n (.inr (.inr rfl))
  have hle : replaced pieces m n ≤ _ := replaced_le pieces n
  generalize replaced pieces m n = k at hkey hcert hca hle ⊢
  match k with
  | 0 =>
    refine ⟨fun _ => ⟨fun h => ?_, fun h => ?_⟩, fun _ => recovers_untouched hdir hkey hcert hca⟩
    · omega
    · omega
  | 1 =>
    rw [recovers_afterKey_iff hdir hkey hcert hca]
    exact ⟨fun h => ⟨fun _ => h, fun hk => by omega⟩, fun h => h.afterKey rfl⟩
  | 2 =>
    rw [recovers_afterCert_iff hdir hm hkey hcert hca]
    exact ⟨fun h => ⟨fun hk => by omega, fun _ => h⟩, fun h => h.afterCert rfl⟩
  | k + 3 =>
    rcases hgiven : m.caPem with _ | ca
    · simp [hgiven] at hle
    · obtain rfl : k = 0 := by
        simp [hgiven] at hle
        omega
      refine ⟨fun _ => ⟨fun h => ?_, fun h => ?_⟩, fun _ => ?_⟩
      · omega
      · omega
      · simp only [persist, hgiven] at hkey hcert hca
        exact recovers_complete hm hgiven hkey hcert hca

/-! ### A renewal that stops early -/

namespace Stops

/-- A certificate for the key. -/
def leaf (serial : ℕ) (key : KeyPair) : X509Certificate where
  issuer := 1
  serial := serial
  notBefore := 0
  notAfter := Duration.ofDays 100
  subject := [("CN", "d")]
  publicKey := key
  sans := []
  crlUrl := ""

/-- The directory of a device with its first identity. -/
def enrolled : Directory :=
  overwrite (persist (fun _ => [])
    ⟨.privateKey 10, .certificate (leaf 1 10), some (.certificate (leaf 0 0))⟩) fun _ => none

/-- The material of a renewal, which comes without a CA. -/
def renewal : Material := ⟨.privateKey 11, .certificate (leaf 2 11), none⟩

theorem accepted_enrolled : Accepted enrolled :=
  .inr ⟨leaf 1 10, .certificate (leaf 0 0), rfl, rfl, rfl⟩

theorem matching_renewal : renewal.Matching := ⟨leaf 2 11, rfl, rfl⟩

end Stops

open Stops in
/-- A renewal that stops before its first rename leaves the old identity. -/
theorem recovers_before_key_rename :
    (Accepted enrolled ∧ renewal.Matching ∧ SafeStop renewal enrolled 0) ∧
      Recovers renewal enrolled (stopped (fun _ => []) renewal 2 enrolled) := by
  have hsafe : SafeStop renewal enrolled (replaced (fun _ => []) renewal 2) :=
    ⟨fun h => absurd h (by decide), fun h => absurd h (by decide)⟩
  exact ⟨⟨accepted_enrolled, matching_renewal, hsafe⟩,
    (recovers_iff_safeStop _ accepted_enrolled matching_renewal 2).mpr hsafe⟩

open Stops in
/-- After the rename of the key, `Load` returns the old certificate beside the new key. -/
theorem mismatched_after_key_rename :
    ¬ ∀ (pieces : String → List Content) (m : Material) (dir : Directory) (n : ℕ),
      Accepted dir → m.Matching → Recovers m dir (stopped pieces m n dir) := by
  intro h
  have hrecovers := h (fun _ => []) renewal enrolled 3 accepted_enrolled matching_renewal
  have hload : load (stopped (fun _ => []) renewal 3 enrolled) =
      .ok (some (Identity.ofFiles (leaf 1 10) (.certificate (leaf 1 10))
        (.certificate (leaf 0 0)))) := by decide +kernel
  have hkey : stopped (fun _ => []) renewal 3 enrolled keyPath = some (.privateKey 11) := by
    decide +kernel
  rcases hrecovers with hnone | ⟨id, hid, hmatch, -⟩
  · rw [hload] at hnone
    cases hnone
  · rw [hload] at hid
    cases hid
    rw [hkey] at hmatch
    cases hmatch

end Manager

end EdgeGuardian.Agent.Bootstrap
