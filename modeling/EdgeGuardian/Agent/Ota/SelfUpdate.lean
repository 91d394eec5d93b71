import EdgeGuardian.Agent.Storage.OfflineQueue
import Mathlib.Data.List.DropRight
import Mathlib.Tactic.SplitIfs

/-!
# Self-update of the agent

`Puller.Apply` downloads an agent binary to the staging file, checks it against the release
manifest of the controller, writes an update marker and exits with code 42, so that the watchdog
swaps the binary. Whether the signature is checked is decided in four places: `Config.Validate`,
the decoding of the key in `NewUpdater`, the test for a `nil` key in `Apply`, and the empty
signature in `VerifyEd25519`.

SHA-256 and the Ed25519 verification equation are parameters. What the run meets outside the
process (the answers of the controller, the outcomes of the file operations) is its environment.

Source: `agent/internal/ota/updater.go`, `agent/internal/ota/selfupdate.go`,
`agent/internal/config/config.go`, lines 26–32 and 85–94.

## Main definitions

* `Config.validate`, `Ota.newUpdater`, `Ota.Puller.apply`, `Ota.Puller.checkAndApply`.
* `Ota.SignedBy`: a signature text signs the bytes under a key text.
* `Ota.Enforced`: the configured key and the given signature are such that the check is made.
* `Ota.Refused`: the update fails for another reason.

## Main results

* `Ota.apply_eq_exit_iff`: when `Apply` reaches the exit.
* `Ota.exit_signed_iff`: exactly when the exit is reached only with signed bytes.
* `Ota.checkAndApply_signed`: the same for a whole check, while the signature check is made.
* `Ota.exit_with_empty_signature`: an unsigned binary that is applied.
-/

namespace EdgeGuardian.Agent

/-- `config.OTAConfig`. -/
structure OTAConfig where
  enabled : Bool
  autoUpdate : Bool
  signKey : String
  cacheDir : String
  insecure : Bool
deriving DecidableEq, Repr

/-- The fields of `config.Config` that the self-update reads. -/
structure Config where
  controllerAddress : String
  controllerPort : ℤ
  dataDir : String
  ota : OTAConfig
deriving DecidableEq, Repr

/-- `Config.Validate`: the text of its error, if it returns one. -/
def Config.validate (c : Config) : Except String Unit :=
  if c.ota.autoUpdate ∧ c.ota.signKey = "" then
    .error "ota.auto_update requires ota.sign_key (refusing unsigned auto-update)"
  else .ok ()

/-- `Config.ControllerBaseURL`. -/
def Config.controllerBaseURL (c : Config) : String :=
  "https://" ++ c.controllerAddress ++ ":" ++ toString c.controllerPort

namespace Ota

/-! ### Hexadecimal texts -/

/-- The value of a hexadecimal digit, as in the table of `encoding/hex`. -/
def hexDigit (c : Char) : Option ℕ :=
  if '0' ≤ c ∧ c ≤ '9' then some (c.toNat - '0'.toNat)
  else if 'a' ≤ c ∧ c ≤ 'f' then some (c.toNat - 'a'.toNat + 10)
  else if 'A' ≤ c ∧ c ≤ 'F' then some (c.toNat - 'A'.toNat + 10)
  else none

/-- The loop of `hex.Decode`, which refuses other characters and an odd number of digits. -/
def decodeDigits : List Char → Option Bytes
  | [] => some []
  | [_] => none
  | p :: q :: rest => do
    let a ← hexDigit p
    let b ← hexDigit q
    let bytes ← decodeDigits rest
    return UInt8.ofNat (16 * a + b) :: bytes

/-- `hex.DecodeString`. -/
def decodeString (s : String) : Option Bytes := decodeDigits s.toList

/-- `hex.EncodeToString`. -/
def encodeToString (bytes : Bytes) : String :=
  String.ofList (bytes.flatMap fun b =>
    [Nat.digitChar (b.toNat / 16), Nat.digitChar (b.toNat % 16)])

/-! ### The updater -/

/-- The cryptography of the Go library. -/
structure Crypto where
  /-- `sha256.New().Sum`. -/
  sha256 : Bytes → Bytes
  /-- The verification equation of Ed25519 for a public key, a message and a signature. -/
  ed25519 : Bytes → Bytes → Bytes → Bool

/-- `ed25519.Verify`, which refuses signatures that are not 64 bytes long. -/
def Crypto.verify (c : Crypto) (pubKey data sig : Bytes) : Bool :=
  sig.length == 64 && c.ed25519 pubKey data sig

/-- `ota.Updater`, with `none` for a `nil` key. The HTTP client and the binary path are part of
the environment. -/
structure Updater where
  dataDir : String
  insecure : Bool
  ed25519PubKey : Option Bytes
deriving DecidableEq, Repr

/-- `NewUpdater`: a key that does not decode to 32 bytes is dropped with a warning. -/
def newUpdater (dataDir signKeyHex : String) (insecure : Bool) : Updater where
  dataDir := dataDir
  insecure := insecure
  ed25519PubKey :=
    if signKeyHex ≠ "" then
      match decodeString signKeyHex with
      | some key => if key.length = 32 then some key else none
      | none => none
    else none

/-- `ota.UpdateMarker`. -/
structure UpdateMarker where
  deploymentID : ℤ
  previousVersion : String
  timestamp : ℕ
deriving DecidableEq, Repr

/-- The files of the data directory that the updater writes. -/
structure Files where
  /-- `agent-staging`. -/
  staging : Option Bytes
  /-- `ota-update-marker.json`. -/
  updateMarker : Option UpdateMarker
deriving DecidableEq, Repr

/-- The answer to `httpClient.Get`, with what the body holds. -/
inductive HttpAnswer (β : Type)
  | failed
  | response (status : ℕ) (body : β)
deriving DecidableEq, Repr

/-- The body of a download: the bytes that arrive, and whether `io.Copy` ends without error. -/
structure DownloadBody where
  bytes : Bytes
  complete : Bool
deriving DecidableEq, Repr

/-- The outcomes that one run of `Apply` meets. -/
structure Environment where
  /-- The answer to the request for the binary. -/
  binary : HttpAnswer DownloadBody
  /-- `os.Create` of the staging file succeeds. -/
  create : Bool
  /-- `VerifySHA256` can open and read the staging file. -/
  hash : Bool
  /-- `VerifyEd25519` can read the staging file. -/
  read : Bool
  /-- The update marker can be written. -/
  marker : Bool
  /-- `os.Chmod` succeeds. -/
  chmod : Bool
  /-- The time of the update marker. -/
  now : ℕ
deriving DecidableEq, Repr

/-- The errors of `Apply`, by the texts they are wrapped with. -/
inductive UpdateError
  /-- `download agent binary: download: ..` -/
  | get
  /-- `download agent binary: download: HTTP %d` -/
  | status (code : ℕ)
  /-- `download agent binary: create staging file: ..` -/
  | create
  /-- `download agent binary: write staging file: ..` -/
  | copy
  /-- `sha256 verify: open file: ..` or `sha256 verify: hash file: ..` -/
  | hash
  /-- `sha256 verify: SHA-256 mismatch: expected %s, got %s` -/
  | mismatch (expected actual : String)
  /-- `ed25519 verify: decode signature: ..` -/
  | decodeSignature
  /-- `ed25519 verify: read file: ..` -/
  | readFile
  /-- `ed25519 verify: Ed25519 signature verification failed` -/
  | verification
  /-- `chmod staging binary: ..` -/
  | chmod
deriving DecidableEq, Repr

/-- How a run of `Apply` ends. -/
inductive Outcome
  | returned (e : UpdateError)
  /-- `os.Exit(42)`. -/
  | exit42
deriving DecidableEq, Repr

/-- `Updater.Download`: the bytes of the staging file, or the error and what is left of the file. -/
def download (env : Environment) (files : Files) : Except UpdateError Bytes × Files :=
  match env.binary with
  | .failed => (.error .get, files)
  | .response status body =>
    if status ≠ 200 then (.error (.status status), files)
    else if env.create = false then (.error .create, files)
    else if body.complete = false then (.error .copy, { files with staging := none })
    else (.ok body.bytes, { files with staging := some body.bytes })

/-- `VerifySHA256` of the staging file with content `data`. -/
def verifySHA256 (c : Crypto) (env : Environment) (data : Bytes) (expectedHash : String) :
    Except UpdateError Unit :=
  if env.hash = false then .error .hash
  else if encodeToString (c.sha256 data) ≠ expectedHash then
    .error (.mismatch expectedHash (encodeToString (c.sha256 data)))
  else .ok ()

/-- `VerifyEd25519` of the staging file with content `data`. -/
def verifyEd25519 (c : Crypto) (env : Environment) (data : Bytes) (sigHex : String)
    (pubKey : Bytes) : Except UpdateError Unit :=
  if sigHex = "" then .ok ()
  else
    match decodeString sigHex with
    | none => .error .decodeSignature
    | some sig =>
      if env.read = false then .error .readFile
      else if c.verify pubKey data sig = false then .error .verification
      else .ok ()

/-- `Updater.WriteUpdateMarker`. -/
def writeUpdateMarker (env : Environment) (deploymentID : ℤ) (previousVersion : String)
    (files : Files) : Files :=
  if env.marker then { files with updateMarker := some ⟨deploymentID, previousVersion, env.now⟩ }
  else files

/-- `Updater.Apply`. -/
def Updater.apply (env : Environment) : Outcome :=
  if env.chmod then .exit42 else .returned .chmod

/-! ### The puller -/

/-- `ota.ReleaseInfo`. -/
structure ReleaseInfo where
  version : String
  sha256 : String
  ed25519Sig : String
deriving DecidableEq, Repr

/-- `ota.Puller`. -/
structure Puller where
  updater : Updater
  baseURL : String
  os : String
  arch : String
  current : String
deriving DecidableEq, Repr

/-- `NewPuller`, on a platform `os` and `arch`. -/
def newPuller (updater : Updater) (baseURL os arch current : String) : Puller where
  updater := updater
  baseURL := String.ofList (baseURL.toList.rdropWhile (· == '/'))
  os := os
  arch := arch
  current := current

/-- The puller that `runAgent` builds from its configuration. -/
def pullerOf (cfg : Config) (os arch agentVersion : String) : Puller :=
  newPuller (newUpdater cfg.dataDir cfg.ota.signKey cfg.ota.insecure) cfg.controllerBaseURL os arch
    agentVersion

/-- The two verifications of `Puller.Apply`, on a staging file with content `data`. -/
def Puller.verify (p : Puller) (c : Crypto) (env : Environment) (rel : ReleaseInfo)
    (data : Bytes) : Except UpdateError Unit := do
  if rel.sha256 ≠ "" then
    verifySHA256 c env data rel.sha256
  match p.updater.ed25519PubKey with
  | some pubKey => verifyEd25519 c env data rel.ed25519Sig pubKey
  | none => .ok ()

/-- `Puller.Apply`: how the run ends, and the files then. -/
def Puller.apply (p : Puller) (c : Crypto) (env : Environment) (rel : ReleaseInfo)
    (files : Files) : Outcome × Files :=
  match download env files with
  | (.error e, files) => (.returned e, files)
  | (.ok data, files) =>
    match p.verify c env rel data with
    | .error e => (.returned e, { files with staging := none })
    | .ok () => (Updater.apply env, writeUpdateMarker env 0 p.current files)

/-- `Puller.LatestRelease`, from the answer to the request; the body is the decoded manifest, or
`none` when it is no such JSON. -/
def latestRelease : HttpAnswer (Option ReleaseInfo) → Option ReleaseInfo
  | .response 200 rel => rel
  | _ => none

/-- `Puller.Outdated`. -/
def Puller.outdated (p : Puller) (rel : ReleaseInfo) : Bool :=
  rel.version != "" && rel.version != p.current

/-- `Puller.CheckAndApply`: `none` when no update is attempted, else what `Apply` does. -/
def Puller.checkAndApply (p : Puller) (c : Crypto) (latest : HttpAnswer (Option ReleaseInfo))
    (env : Environment) (files : Files) : Option Outcome × Files :=
  match latestRelease latest with
  | none => (none, files)
  | some rel =>
    if p.outdated rel then
      let r := p.apply c env rel files
      (some r.1, r.2)
    else (none, files)

/-! ### When the exit is reached -/

/-- The download arrives in the staging file, with content `data`. -/
def Downloaded (env : Environment) (data : Bytes) : Prop :=
  env.binary = .response 200 ⟨data, true⟩ ∧ env.create

theorem download_eq_ok_iff {env : Environment} {files files' : Files} {data : Bytes} :
    download env files = (.ok data, files') ↔
      Downloaded env data ∧ files' = { files with staging := some data } := by
  rw [download, Downloaded]
  rcases env.binary with _ | ⟨status, bytes, complete⟩
  · simp
  · by_cases hstatus : status = 200
    · cases hcreate : env.create
      · simp [hstatus]
      · cases complete
        · simp [hstatus]
        · simp only [hstatus, ne_eq, not_true_eq_false, if_false, Bool.true_eq_false, Prod.mk.injEq,
            Except.ok.injEq, HttpAnswer.response.injEq, DownloadBody.mk.injEq, true_and, and_true]
          constructor
          · rintro ⟨rfl, rfl⟩
            exact ⟨rfl, rfl⟩
          · rintro ⟨rfl, rfl⟩
            exact ⟨rfl, rfl⟩
    · simp [hstatus]

/-- The SHA-256 check of `Apply` passes: the manifest has no hash, or it is the hash of `data`. -/
def HashPasses (c : Crypto) (env : Environment) (rel : ReleaseInfo) (data : Bytes) : Prop :=
  rel.sha256 ≠ "" → env.hash ∧ encodeToString (c.sha256 data) = rel.sha256

theorem verifySHA256_eq_ok_iff {c : Crypto} {env : Environment} {data : Bytes} {expected : String} :
    verifySHA256 c env data expected = .ok () ↔
      env.hash ∧ encodeToString (c.sha256 data) = expected := by
  rw [verifySHA256]
  split_ifs with hhash hne <;> simp_all

theorem verifyEd25519_eq_ok_iff {c : Crypto} {env : Environment} {data pubKey : Bytes}
    {sigHex : String} : verifyEd25519 c env data sigHex pubKey = .ok () ↔
      (sigHex ≠ "" → ∃ sig ∈ decodeString sigHex, env.read ∧ c.verify pubKey data sig) := by
  rw [verifyEd25519]
  by_cases hempty : sigHex = ""
  · simp [hempty]
  · rcases decodeString sigHex with _ | sig
    · simp [hempty]
    · cases hread : env.read <;> cases hverify : c.verify pubKey data sig <;> simp [hempty, hverify]

variable {p : Puller} {c : Crypto} {env : Environment} {rel : ReleaseInfo} {files : Files}

theorem Puller.verify_eq_ok_iff {data : Bytes} : p.verify c env rel data = .ok () ↔
    HashPasses c env rel data ∧ ∀ pubKey ∈ p.updater.ed25519PubKey, rel.ed25519Sig ≠ "" →
      ∃ sig ∈ decodeString rel.ed25519Sig, env.read ∧ c.verify pubKey data sig := by
  rw [Puller.verify, HashPasses]
  have hkey : (match p.updater.ed25519PubKey with
      | some pubKey => verifyEd25519 c env data rel.ed25519Sig pubKey
      | none => .ok ()) = .ok () ↔ ∀ pubKey ∈ p.updater.ed25519PubKey, rel.ed25519Sig ≠ "" →
        ∃ sig ∈ decodeString rel.ed25519Sig, env.read ∧ c.verify pubKey data sig := by
    rcases p.updater.ed25519PubKey with _ | pubKey
    · simp
    · simp [verifyEd25519_eq_ok_iff]
  by_cases hsha : rel.sha256 = ""
  · simpa [hsha] using hkey
  · rw [← hkey]
    rcases hv : verifySHA256 c env data rel.sha256 with e | u
    · have hno : ¬ (env.hash ∧ encodeToString (c.sha256 data) = rel.sha256) := fun h => by
        rw [verifySHA256_eq_ok_iff.mpr h] at hv
        cases hv
      simp [hsha, hno, Bind.bind, Except.bind]
    · have hyes := verifySHA256_eq_ok_iff.mp hv
      simp [hsha, hyes, Bind.bind, Except.bind]

/-- A run whose download arrives goes on with the verifications. -/
theorem apply_of_downloaded {data : Bytes} (h : Downloaded env data) :
    p.apply c env rel files =
      match p.verify c env rel data with
      | .error e => (.returned e, { files with staging := none })
      | .ok () =>
        (Updater.apply env,
          writeUpdateMarker env 0 p.current { files with staging := some data }) := by
  rw [Puller.apply]
  rw [download_eq_ok_iff.mpr ⟨h, rfl⟩]

theorem apply_of_verified {data : Bytes} (h : Downloaded env data)
    (hv : p.verify c env rel data = .ok ()) : p.apply c env rel files =
      (Updater.apply env,
        writeUpdateMarker env 0 p.current { files with staging := some data }) := by
  rw [apply_of_downloaded h, hv]

theorem exists_downloaded_of_exit (h : (p.apply c env rel files).1 = .exit42) :
    ∃ data, Downloaded env data ∧ p.verify c env rel data = .ok () := by
  rcases hd : download env files with ⟨e | data, files'⟩
  · rw [Puller.apply, hd] at h
    cases h
  · have hdata := (download_eq_ok_iff.mp hd).1
    rcases hv : p.verify c env rel data with e | u
    · rw [apply_of_downloaded hdata, hv] at h
      cases h
    · exact ⟨data, hdata, hv⟩

@[simp] theorem staging_writeUpdateMarker (id : ℤ) (version : String) :
    (writeUpdateMarker env id version files).staging = files.staging := by
  rw [writeUpdateMarker]
  split <;> rfl

theorem updater_apply_eq_exit_iff : Updater.apply env = .exit42 ↔ env.chmod := by
  cases h : env.chmod <;> simp [Updater.apply, h]

/-- **When `Apply` reaches the exit.** The download arrives, both verifications pass and the mode
can be set; the staging file then holds the bytes that were verified. -/
theorem apply_eq_exit_iff : (p.apply c env rel files).1 = .exit42 ↔
    ∃ data, Downloaded env data ∧ p.verify c env rel data = .ok () ∧ env.chmod ∧
      (p.apply c env rel files).2.staging = some data := by
  constructor
  · intro h
    obtain ⟨data, hdata, hv⟩ := exists_downloaded_of_exit h
    rw [apply_of_verified hdata hv] at h ⊢
    exact ⟨data, hdata, hv, updater_apply_eq_exit_iff.mp h, staging_writeUpdateMarker _ _⟩
  · rintro ⟨data, hdata, hv, hchmod, -⟩
    rw [apply_of_verified hdata hv]
    exact updater_apply_eq_exit_iff.mpr hchmod

/-! ### Signature enforcement -/

/-- `sigHex` is the text of a valid signature of `data` under the key with text `signKey`. -/
def SignedBy (c : Crypto) (signKey sigHex : String) (data : Bytes) : Prop :=
  ∃ key ∈ decodeString signKey, key.length = 32 ∧ ∃ sig ∈ decodeString sigHex, c.verify key data sig

/-- The configured key decodes to 32 bytes and the manifest has a signature. -/
def Enforced (cfg : Config) (rel : ReleaseInfo) : Prop :=
  (∃ key ∈ decodeString cfg.ota.signKey, key.length = 32) ∧ rel.ed25519Sig ≠ ""

/-- The update fails whatever the signature: the download does not arrive, or it fails the hash of
the manifest, or its mode cannot be set. -/
def Refused (c : Crypto) (env : Environment) (rel : ReleaseInfo) : Prop :=
  ∀ data, Downloaded env data → HashPasses c env rel data → env.chmod = false

theorem ed25519PubKey_newUpdater_eq_some_iff {dataDir signKey : String} {insecure : Bool}
    {key : Bytes} : (newUpdater dataDir signKey insecure).ed25519PubKey = some key ↔
      signKey ≠ "" ∧ decodeString signKey = some key ∧ key.length = 32 := by
  by_cases hempty : signKey = ""
  · simp [newUpdater, hempty]
  · rcases hdec : decodeString signKey with _ | key'
    · simp [newUpdater, hempty, hdec]
    · simp only [newUpdater, hempty, hdec, ne_eq, not_false_eq_true, if_true, true_and,
        Option.some.injEq]
      split_ifs with hlen
      · simp only [Option.some.injEq]
        exact ⟨fun h => ⟨h, h ▸ hlen⟩, fun h => h.1⟩
      · exact ⟨fun h => (by cases h), fun ⟨h, hlen'⟩ => absurd (h ▸ hlen') hlen⟩

theorem SignedBy.enforced {cfg : Config} {data : Bytes}
    (h : SignedBy c cfg.ota.signKey rel.ed25519Sig data) : Enforced cfg rel := by
  obtain ⟨key, hkey, hlen, sig, hsig, hverify⟩ := h
  refine ⟨⟨key, hkey, hlen⟩, fun hempty => ?_⟩
  -- The empty text decodes to no bytes, which is no signature.
  rw [hempty] at hsig
  cases hsig
  cases hverify

variable {cfg : Config} {os arch agentVersion : String}

/-- With a usable key and a signature, passing the verifications of `Apply` means being signed. -/
theorem Enforced.signedBy {data : Bytes} (h : Enforced cfg rel)
    (hv : (pullerOf cfg os arch agentVersion).verify c env rel data = .ok ()) :
    SignedBy c cfg.ota.signKey rel.ed25519Sig data := by
  obtain ⟨⟨key, hkey, hlen⟩, hsig⟩ := h
  have hne : cfg.ota.signKey ≠ "" := fun hempty => by
    rw [hempty] at hkey
    cases hkey
    cases hlen
  have hpub : (pullerOf cfg os arch agentVersion).updater.ed25519PubKey = some key :=
    ed25519PubKey_newUpdater_eq_some_iff.mpr ⟨hne, hkey, hlen⟩
  obtain ⟨sig, hdec, -, hverify⟩ := (Puller.verify_eq_ok_iff.mp hv).2 key hpub hsig
  exact ⟨key, hkey, hlen, sig, hdec, hverify⟩

/-- Without a usable key or without a signature, only the hash is checked. -/
theorem verify_of_not_enforced {data : Bytes} (h : ¬ Enforced cfg rel)
    (hhash : HashPasses c env rel data) :
    (pullerOf cfg os arch agentVersion).verify c env rel data = .ok () := by
  refine Puller.verify_eq_ok_iff.mpr ⟨hhash, fun key hpub hsig => absurd ⟨⟨key, ?_⟩, hsig⟩ h⟩
  exact (ed25519PubKey_newUpdater_eq_some_iff.mp hpub).2

theorem Enforced.exit_signedBy (h : Enforced cfg rel)
    (hexit : ((pullerOf cfg os arch agentVersion).apply c env rel files).1 = .exit42) :
    ∃ data, ((pullerOf cfg os arch agentVersion).apply c env rel files).2.staging = some data ∧
      SignedBy c cfg.ota.signKey rel.ed25519Sig data := by
  obtain ⟨data, -, hv, -, hstaging⟩ := apply_eq_exit_iff.mp hexit
  exact ⟨data, hstaging, h.signedBy hv⟩

theorem Refused.not_exit (h : Refused c env rel) : (p.apply c env rel files).1 ≠ .exit42 := by
  intro hexit
  obtain ⟨data, hdata, hv, hchmod, -⟩ := apply_eq_exit_iff.mp hexit
  rw [h data hdata (Puller.verify_eq_ok_iff.mp hv).1] at hchmod
  cases hchmod

/-- **Signature enforcement.** For every configuration, the exit is reached only with staged bytes
that the manifest's signature signs under the configured key, exactly when that key decodes to 32
bytes and the signature is not empty, or the update fails anyway. -/
theorem exit_signed_iff :
    (((pullerOf cfg os arch agentVersion).apply c env rel files).1 = .exit42 →
      ∃ data, ((pullerOf cfg os arch agentVersion).apply c env rel files).2.staging = some data ∧
        SignedBy c cfg.ota.signKey rel.ed25519Sig data) ↔
      Enforced cfg rel ∨ Refused c env rel := by
  constructor
  · intro h
    by_contra hcon
    obtain ⟨henf, href⟩ := not_or.mp hcon
    simp only [Refused, not_forall, Bool.not_eq_false] at href
    obtain ⟨data, hdata, hhash, hchmod⟩ := href
    have hv : (pullerOf cfg os arch agentVersion).verify c env rel data = .ok () :=
      verify_of_not_enforced henf hhash
    have hexit : ((pullerOf cfg os arch agentVersion).apply c env rel files).1 = .exit42 := by
      rw [apply_of_verified hdata hv]
      exact updater_apply_eq_exit_iff.mpr hchmod
    obtain ⟨_, -, hsigned⟩ := h hexit
    exact henf hsigned.enforced
  · rintro (henf | href) hexit
    · exact henf.exit_signedBy hexit
    · exact absurd hexit href.not_exit

/-- A whole check of the controller reaches the exit only for a manifest of another version, and
with signed bytes where the key is usable and that manifest has a signature. -/
theorem checkAndApply_signed {latest : HttpAnswer (Option ReleaseInfo)}
    (h : ((pullerOf cfg os arch agentVersion).checkAndApply c latest env files).1 = some .exit42) :
    ∃ rel, latestRelease latest = some rel ∧ rel.version ≠ agentVersion ∧
      (Enforced cfg rel → ∃ data,
        ((pullerOf cfg os arch agentVersion).checkAndApply c latest env files).2.staging =
            some data ∧
          SignedBy c cfg.ota.signKey rel.ed25519Sig data) := by
  simp only [Puller.checkAndApply] at h ⊢
  rcases hrel : latestRelease latest with _ | rel
  · rw [hrel] at h
    cases h
  · by_cases hout : (pullerOf cfg os arch agentVersion).outdated rel
    · simp only [hrel, hout, if_true, Option.some.injEq] at h ⊢
      refine ⟨rel, rfl, ?_, fun henf => henf.exit_signedBy h⟩
      simp only [Puller.outdated, Bool.and_eq_true, bne_iff_ne] at hout
      exact hout.2
    · simp only [hrel, hout] at h
      cases h

/-- A configuration that passes `Validate`, with a signing key of 32 bytes. -/
def signedConfig : Config where
  controllerAddress := "localhost"
  controllerPort := 8443
  dataDir := "/var/lib/edgeguardian"
  ota :=
    { enabled := true, autoUpdate := true, cacheDir := "", insecure := false
      signKey := "d75a980182b10ab7d54bfed3c964073a0ee172f3daa62325af021a68f707511a" }

/-- A manifest with neither hash nor signature. -/
def unsignedRelease : ReleaseInfo where
  version := "1.0.1"
  sha256 := ""
  ed25519Sig := ""

/-- A run in which a download of one byte arrives and every file operation succeeds. -/
def deliveredByte : Environment where
  binary := .response 200 ⟨[0x7f], true⟩
  create := true
  hash := true
  read := true
  marker := true
  chmod := true
  now := 0

/-- Under a usable signing key and whatever the cryptography accepts, a binary whose manifest has
no signature is applied: the exit is reached with bytes that nothing signs. -/
theorem exit_with_empty_signature :
    signedConfig.validate = .ok () ∧ signedConfig.ota.signKey ≠ "" ∧ ∀ c : Crypto,
      ((pullerOf signedConfig "linux" "amd64" "1.0.0").apply c deliveredByte unsignedRelease
        ⟨none, none⟩).1 = .exit42 ∧
      ¬ ∃ data, ((pullerOf signedConfig "linux" "amd64" "1.0.0").apply c deliveredByte
          unsignedRelease ⟨none, none⟩).2.staging = some data ∧
        SignedBy c signedConfig.ota.signKey unsignedRelease.ed25519Sig data := by
  refine ⟨by decide, by decide, fun c => ⟨?_, ?_⟩⟩
  · have hv : (pullerOf signedConfig "linux" "amd64" "1.0.0").verify c deliveredByte unsignedRelease
        [0x7f] = .ok () := verify_of_not_enforced (fun h => h.2 rfl) (fun h => absurd rfl h)
    rw [apply_of_verified ⟨rfl, rfl⟩ hv]
    rfl
  · rintro ⟨data, -, hsigned⟩
    exact hsigned.enforced.2 rfl

end Ota

end EdgeGuardian.Agent
