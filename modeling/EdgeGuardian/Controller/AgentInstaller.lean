import EdgeGuardian.Controller.Invitations
import EdgeGuardian.Lib.Transition

/-!
# Publishing an agent binary and its release manifest

A publish checks its arguments, writes the binary to the object storage, and then writes the
manifest `release.json` that names the version, the SHA-256 and the signature of the binary. The two
writes are independent of each other. A write may fail, or take effect although its answer is lost;
and nothing keeps two publishes for one platform apart. The pair of objects that stays behind
therefore need not belong to one publish.

The manifest is a JSON text; the model works on what it says. All publishes are for one operating
system and architecture, so that there is one binary and one manifest.

Source: `service/AgentInstallerService.java`, `service/ArtifactStorageService.java`,
`dto/AgentReleaseInfo.java` under `controller/src/main/java/com/edgeguardian/controller/`.

## Main definitions

* `AgentReleaseInfo`, `StoreBinary.release`: the manifest of a publish, after its checks.
* `Publishing.State`, `Publishing.step`: any number of publishes.
* `Publishing.NamesBinary`: the manifest names the stored binary.
* `Publishing.inOrder`: the condition on a step under which the two objects belong together.

## Main results

* `Publishing.names_binary_when_idle`: when the stored pair agrees, in every interleaving.
-/

namespace EdgeGuardian.Controller

/-! ### Hexadecimal texts -/

namespace HexFormat

/-- `HexFormat.toLowHexDigit`. -/
def toHexDigit (value : ℕ) : Char :=
  if value < 10 then Char.ofNat ('0'.toNat + value) else Char.ofNat ('a'.toNat - 10 + value)

/-- `HexFormat.of().formatHex`. -/
def formatHex (bytes : List UInt8) : String :=
  String.ofList (bytes.flatMap fun b =>
    [toHexDigit ((b.toNat >>> 4) % 16), toHexDigit (b.toNat % 16)])

/-- `HexFormat.fromHexDigit`. -/
def fromHexDigit (c : Char) : Option ℕ :=
  if '0' ≤ c ∧ c ≤ '9' then some (c.toNat - '0'.toNat)
  else if 'A' ≤ c ∧ c ≤ 'F' then some (c.toNat - 'A'.toNat + 10)
  else if 'a' ≤ c ∧ c ≤ 'f' then some (c.toNat - 'a'.toNat + 10)
  else none

/-- The loop of `parseHex`. -/
def parseDigits : List Char → Option (List UInt8)
  | [] => some []
  | [_] => none
  | high :: low :: rest => do
    let h ← fromHexDigit high
    let l ← fromHexDigit low
    let bytes ← parseDigits rest
    return UInt8.ofNat (16 * h + l) :: bytes

/-- `HexFormat.of().parseHex`: `none` where it throws. -/
def parseHex (s : String) : Option (List UInt8) := parseDigits s.toList

theorem toNat_of_fromHexDigit {c : Char} {n : ℕ} (h : fromHexDigit c = some n) :
    48 ≤ c.toNat ∧ c.toNat ≤ 102 := by
  have hrange : ('0' ≤ c ∧ c ≤ '9') ∨ ('A' ≤ c ∧ c ≤ 'F') ∨ ('a' ≤ c ∧ c ≤ 'f') := by
    rw [fromHexDigit] at h
    split_ifs at h with hdigit hupper hlower
    · exact .inl hdigit
    · exact .inr (.inl hupper)
    · exact .inr (.inr hlower)
  have hle : ∀ a b : Char, a ≤ b → a.toNat ≤ b.toNat := fun _ _ h => h
  rcases hrange with ⟨hlow, hhigh⟩ | ⟨hlow, hhigh⟩ | ⟨hlow, hhigh⟩
  · exact ⟨hle _ _ hlow, (hle _ _ hhigh).trans (by decide)⟩
  · exact ⟨le_trans (by decide) (hle _ _ hlow), (hle _ _ hhigh).trans (by decide)⟩
  · exact ⟨le_trans (by decide) (hle _ _ hlow), hle _ _ hhigh⟩

theorem toNat_of_parseDigits {chars : List Char} {bytes : List UInt8}
    (h : parseDigits chars = some bytes) : ∀ c ∈ chars, 48 ≤ c.toNat ∧ c.toNat ≤ 102 := by
  induction chars using parseDigits.induct generalizing bytes with
  | case1 => exact List.forall_mem_nil _
  | case2 c => exact absurd h.symm (Option.some_ne_none _)
  | case3 high low rest ih =>
    simp only [parseDigits, Option.bind_eq_bind, Option.bind_eq_some_iff] at h
    obtain ⟨m, hhigh, n, hlow, bytes, hrest, -⟩ := h
    rw [List.forall_mem_cons, List.forall_mem_cons]
    exact ⟨toNat_of_fromHexDigit hhigh, toNat_of_fromHexDigit hlow, ih hrest⟩

theorem trim_eq_of_parseHex {s : String} {bytes : List UInt8} (h : parseHex s = some bytes) :
    trim s = s := by
  have hchars : ∀ c ∈ s.toList, ¬ c ≤ ' ' := by
    intro c hc hle
    have hlow := (toNat_of_parseDigits h c hc).1
    have hhigh : c.toNat ≤ ' '.toNat := hle
    exact absurd (hlow.trans hhigh) (by decide)
  have hdrop : s.toList.dropWhile (fun c => decide (c ≤ ' ')) = s.toList := by
    rw [List.dropWhile_eq_self_iff]
    intro hpos hle
    exact hchars _ (List.getElem_mem hpos) (of_decide_eq_true hle)
  have hrdrop : s.toList.rdropWhile (fun c => decide (c ≤ ' ')) = s.toList := by
    rw [List.rdropWhile_eq_self_iff]
    intro hne hle
    exact hchars _ (List.getLast_mem hne) (of_decide_eq_true hle)
  rw [trim, hdrop, hrdrop, String.ofList_toList]

theorem isBlank_eq_false_of_parseHex {s : String} {bytes : List UInt8}
    (h : parseHex s = some bytes) (hne : bytes ≠ []) : isBlank s = false := by
  rw [isBlank, List.all_eq_false]
  have hs : s.toList ≠ [] := by
    intro hnil
    rw [parseHex, hnil] at h
    exact hne (Option.some.inj h).symm
  obtain ⟨c, chars, hcons⟩ := List.exists_cons_of_ne_nil hs
  have hmem : c ∈ s.toList := hcons ▸ List.mem_cons_self
  obtain ⟨hlow, hhigh⟩ := toNat_of_parseDigits h c hmem
  refine ⟨c, hmem, ?_⟩
  simp only [isWhitespace, Bool.or_eq_true, Bool.and_eq_true, decide_eq_true_eq, beq_iff_eq,
    bne_iff_ne]
  omega

/-- A literal is parsed as the list of its characters. -/
theorem exists_parseHex_ofList {P : List UInt8 → Prop} [DecidablePred P] {chars : List Char}
    (h : (parseDigits chars).any (fun bytes => P bytes)) :
    ∃ bytes, parseHex (String.ofList chars) = some bytes ∧ P bytes := by
  obtain ⟨bytes, hbytes, hP⟩ := Option.any_eq_true _ _ |>.mp h
  refine ⟨bytes, ?_, of_decide_eq_true hP⟩
  rw [parseHex, String.toList_ofList, hbytes]

theorem exists_parseHex_append {P : List UInt8 → Prop} [DecidablePred P] {a b : List Char}
    (h : (parseDigits (a ++ b)).any (fun bytes => P bytes)) :
    ∃ bytes, parseHex (String.ofList a ++ String.ofList b) = some bytes ∧ P bytes := by
  rw [← String.ofList_append]
  exact exists_parseHex_ofList h

end HexFormat

/-! ### One publish -/

/-- `Os`. -/
inductive Os
  | linux
  | windows
  | darwin
deriving DecidableEq, Repr

/-- `Os.slug`. -/
def Os.slug : Os → String
  | linux => "linux"
  | windows => "windows"
  | darwin => "darwin"

/-- `Os.binaryName`. -/
def Os.binaryName : Os → String
  | linux | darwin => "edgeguardian-agent"
  | windows => "edgeguardian-agent.exe"

/-- What a binary is published for. -/
structure Platform where
  os : Os
  arch : String
deriving DecidableEq, Repr

/-- The directory of the two objects. -/
def Platform.dir (p : Platform) : String := "public/agent/" ++ p.os.slug ++ "/" ++ p.arch ++ "/"

/-- The key of the binary. -/
def Platform.binaryKey (p : Platform) : String := p.dir ++ p.os.binaryName

/-- The key of the manifest. -/
def Platform.releaseKey (p : Platform) : String := p.dir ++ "release.json"

/-- `AgentReleaseInfo`. -/
structure AgentReleaseInfo where
  version : String
  sha256 : String
  ed25519Sig : String
deriving DecidableEq, Repr

/-- The configuration of the installer service, and the cryptography that it calls. -/
structure InstallerContext where
  /-- `edgeguardian.controller.ota.public-key`. -/
  otaPublicKey : Option String
  /-- `MessageDigest.getInstance("SHA-256").digest`. -/
  sha256 : List UInt8 → List UInt8
  /-- `Ed25519Signer.verifySignature` for a public key, the data and a signature. -/
  verifySignature : List UInt8 → List UInt8 → List UInt8 → Bool

/-- The arguments of one call of `storeBinary`, beside the platform. -/
structure StoreBinary where
  data : List UInt8
  version : Option String
  signatureHex : Option String
deriving DecidableEq, Repr

/-- `validateArch`: the pattern `^[a-z0-9]{1,16}$`. -/
def validateArch (arch : String) : Except ServiceError Unit :=
  if 1 ≤ arch.length ∧ arch.length ≤ 16 ∧
      arch.toList.all fun c => ('a' ≤ c && c ≤ 'z') || ('0' ≤ c && c ≤ '9') then .ok ()
  else .error (.status 400 "Invalid architecture")

/-- `verifySignature`. -/
def verifySignature (ctx : InstallerContext) (data : List UInt8) (signatureHex : Option String) :
    Except ServiceError String :=
  match ctx.otaPublicKey.filter fun k => !isBlank k, signatureHex.filter fun s => !isBlank s with
  | none, _ =>
    .error (.status 503 "Binary publishing is disabled: no OTA public key configured")
  | some _, none => .error (.status 400 "Missing signature")
  | some key, some signature =>
    match HexFormat.parseHex (trim key), HexFormat.parseHex (trim signature) with
    | some pub, some sig =>
      if pub.length ≠ 32 then .error (.status 503 "Invalid OTA public key")
      else if ctx.verifySignature pub data sig = false then
        .error (.status 400 "Signature verification failed")
      else .ok signature
    | _, _ => .error (.status 400 "Malformed signature or key")

/-- The checks of `storeBinary`, and the manifest that it writes if they pass. -/
def StoreBinary.release (ctx : InstallerContext) (arch : String) (call : StoreBinary) :
    Except ServiceError AgentReleaseInfo := do
  validateArch arch
  match call.version.filter fun v => !isBlank v with
  | none => .error (.status 400 "Missing version")
  | some version =>
    let signature ← verifySignature ctx call.data call.signatureHex
    return ⟨trim version, HexFormat.formatHex (ctx.sha256 call.data), trim signature⟩

namespace Publishing

open Transition

/-! ### Several publishes -/

/-- How `putRaw` goes. -/
inductive PutOutcome
  | stored
  /-- It throws, and the object is as before. -/
  | failed
  /-- It throws although the object is stored. -/
  | answerLost
deriving DecidableEq, Repr

/-- What a publish throws. -/
inductive PublishError
  | service (e : ServiceError)
  /-- `Failed to store object in MinIO: ..`, with the key. -/
  | store (key : String)
deriving DecidableEq, Repr

/-- Where a publish is. -/
inductive Pc
  | ready
  /-- Before the binary is written. -/
  | storing (release : AgentReleaseInfo)
  /-- Between the two writes. -/
  | publishing (release : AgentReleaseInfo)
  | returned
  | threw (e : PublishError)
deriving DecidableEq, Repr

/-- The two objects, the publishes, and the publish whose binary was the last to be stored. -/
structure State (ι : Type*) where
  binary : Option (List UInt8)
  release : Option AgentReleaseInfo
  pc : ι → Pc
  last : Option ι

/-- The next operation of a publish. -/
inductive Action (ι : Type*)
  | check (i : ι)
  | putBinary (i : ι) (outcome : PutOutcome)
  | putRelease (i : ι) (outcome : PutOutcome)
deriving DecidableEq, Repr

section Steps

variable {ι : Type*} [DecidableEq ι]

/-- The state with a publish at another point. -/
def State.moved (s : State ι) (i : ι) (pc : Pc) : State ι :=
  { s with pc := Function.update s.pc i pc }

/-- The state after a binary was stored. -/
def State.storeBinary (s : State ι) (i : ι) (data : List UInt8) (pc : Pc) : State ι :=
  { s.moved i pc with binary := some data, last := some i }

/-- The state after a manifest was stored. -/
def State.storeRelease (s : State ι) (i : ι) (release : AgentReleaseInfo) (pc : Pc) : State ι :=
  { s.moved i pc with release := some release }

/-- One operation of a publish. -/
def step (ctx : InstallerContext) (p : Platform) (calls : ι → StoreBinary) (s : State ι) :
    Action ι → Option (State ι)
  | .check i =>
    match s.pc i with
    | .ready =>
      match (calls i).release ctx p.arch with
      | .ok release => some (s.moved i (.storing release))
      | .error e => some (s.moved i (.threw (.service e)))
    | _ => none
  | .putBinary i outcome =>
    match s.pc i, outcome with
    | .storing release, .stored => some (s.storeBinary i (calls i).data (.publishing release))
    | .storing _, .failed => some (s.moved i (.threw (.store p.binaryKey)))
    | .storing _, .answerLost =>
      some (s.storeBinary i (calls i).data (.threw (.store p.binaryKey)))
    | _, _ => none
  | .putRelease i outcome =>
    match s.pc i, outcome with
    | .publishing release, .stored => some (s.storeRelease i release .returned)
    | .publishing _, .failed => some (s.moved i (.threw (.store p.releaseKey)))
    | .publishing release, .answerLost =>
      some (s.storeRelease i release (.threw (.store p.releaseKey)))
    | _, _ => none

end Steps

/-- The publish is in progress. -/
def Pc.inProgress : Pc → Bool
  | .storing _ | .publishing _ => true
  | .ready | .returned | .threw _ => false

/-- The publish is between its two writes. -/
def Pc.isPublishing : Pc → Bool
  | .publishing _ => true
  | .ready | .storing _ | .returned | .threw _ => false

/-- The manifest, if there is one, names the SHA-256 of the stored binary. -/
def NamesBinary {ι : Type*} (ctx : InstallerContext) (s : State ι) : Prop :=
  ∀ release ∈ s.release, ∃ data ∈ s.binary,
    release.sha256 = HexFormat.formatHex (ctx.sha256 data)

/-- The publish whose binary was the last to be stored gets to store its manifest, and none stores
its manifest after that. -/
def inOrder {ι : Type*} [DecidableEq ι] (s : State ι) : Action ι → Bool
  | .check _ => true
  | .putBinary _ outcome => outcome ≠ .answerLost
  | .putRelease i outcome =>
    match s.last with
    | none => true
    | some l =>
      if l = i then outcome ≠ .failed else outcome = .failed ∨ (s.pc l).isPublishing

/-- The states from which runs start: no publish has begun. -/
structure Starting {ι : Type*} (s : State ι) : Prop where
  pc : ∀ i, s.pc i = .ready
  last : s.last = none

/-! ### What a publish writes -/

section Checks

variable {ctx : InstallerContext} {arch : String} {call : StoreBinary} {release : AgentReleaseInfo}

/-- A manifest holds the version of its publish, and the SHA-256 of its binary. -/
theorem release_eq_ok (h : call.release ctx arch = .ok release) :
    ∃ version signature, call.version = some version ∧ release =
      ⟨trim version, HexFormat.formatHex (ctx.sha256 call.data), trim signature⟩ := by
  rw [StoreBinary.release] at h
  rcases hversion : call.version.filter fun v => !isBlank v with _ | version
  · rcases harch : validateArch arch with e | u
    · simp [harch, Bind.bind, Except.bind] at h
    · simp [harch, hversion, Bind.bind, Except.bind] at h
  · rcases harch : validateArch arch with e | u
    · simp [harch, Bind.bind, Except.bind] at h
    · rcases hsig : verifySignature ctx call.data call.signatureHex with e | signature
      · simp [harch, hversion, hsig, Bind.bind, Except.bind] at h
      · simp only [harch, hversion, hsig, Bind.bind, Except.bind, Pure.pure, Except.pure] at h
        exact ⟨version, signature, (Option.filter_eq_some_iff.mp hversion).1,
          (Except.ok.inj h).symm⟩

/-- The manifest of a publish names the SHA-256 of its binary. -/
theorem sha256_release (h : call.release ctx arch = .ok release) :
    release.sha256 = HexFormat.formatHex (ctx.sha256 call.data) := by
  obtain ⟨version, signature, -, rfl⟩ := release_eq_ok h
  rfl

/-- A signature that is checked with success. -/
theorem verifySignature_eq_ok {data pub sig : List UInt8} {key signature : String}
    (hkey : ctx.otaPublicKey = some key)
    (hpub : HexFormat.parseHex key = some pub) (hlength : pub.length = 32)
    (hsig : HexFormat.parseHex signature = some sig) (hne : sig ≠ [])
    (hverify : ctx.verifySignature pub data sig = true) :
    verifySignature ctx data (some signature) = .ok signature := by
  have hpubne : pub ≠ [] := List.ne_nil_of_length_pos (by omega)
  have hkeyText : (some key).filter (fun k => !isBlank k) = some key := by
    simp [Option.filter, HexFormat.isBlank_eq_false_of_parseHex hpub hpubne]
  have hsigText : (some signature).filter (fun s => !isBlank s) = some signature := by
    simp [Option.filter, HexFormat.isBlank_eq_false_of_parseHex hsig hne]
  rw [verifySignature, hkey, hkeyText, hsigText]
  simp only [HexFormat.trim_eq_of_parseHex hpub, HexFormat.trim_eq_of_parseHex hsig, hpub, hsig]
  rw [if_neg (not_not.mpr hlength), hverify]
  rfl

/-- The manifest of a publish that passes its checks. -/
theorem release_of_verifySignature {version signature : String}
    (harch : validateArch arch = .ok ()) (hversion : call.version = some version)
    (hblank : isBlank version = false)
    (hsig : verifySignature ctx call.data call.signatureHex = .ok signature) :
    call.release ctx arch =
      .ok ⟨trim version, HexFormat.formatHex (ctx.sha256 call.data), trim signature⟩ := by
  have hfilter : call.version.filter (fun v => !isBlank v) = some version := by
    rw [hversion]
    simp [Option.filter, hblank]
  rw [StoreBinary.release, harch, hfilter, hsig]
  rfl

end Checks

section Invariant

variable {ι : Type*} {ctx : InstallerContext} {p : Platform} {calls : ι → StoreBinary}
  {s t : State ι} {a : Action ι} {i : ι} {release : AgentReleaseInfo}

/-- Publishes in progress hold their own manifests. -/
structure HoldsOwn (ctx : InstallerContext) (p : Platform) (calls : ι → StoreBinary)
    (s : State ι) : Prop where
  own : ∀ {i release}, s.pc i = .storing release ∨ s.pc i = .publishing release →
    (calls i).release ctx p.arch = .ok release

/-- The invariant: publishes in progress hold their own manifests, and the publish whose binary is
stored has its manifest still to write, or the two objects agree. -/
structure PublishInv (ctx : InstallerContext) (p : Platform) (calls : ι → StoreBinary)
    (s : State ι) : Prop where
  held : HoldsOwn ctx p calls s
  untouched : s.last = none → NamesBinary ctx s ∧ ∀ i release, s.pc i ≠ .publishing release
  stored : ∀ l, s.last = some l → s.binary = some (calls l).data ∧
    ((s.pc l).isPublishing ∨ NamesBinary ctx s)

theorem Starting.holdsOwn (h : Starting s) : HoldsOwn ctx p calls s := by
  refine ⟨fun {i release} hi => ?_⟩
  rw [h.pc i] at hi
  simp at hi

theorem Starting.publishInv (h : Starting s) (hnames : NamesBinary ctx s) :
    PublishInv ctx p calls s := by
  refine ⟨h.holdsOwn, fun _ => ⟨hnames, fun i release => ?_⟩, fun l hl => ?_⟩
  · rw [h.pc i]
    simp
  · rw [h.last] at hl
    exact absurd hl.symm (Option.some_ne_none _)

variable [DecidableEq ι]

theorem State.moved_pc_self {pc : Pc} : (s.moved i pc).pc i = pc := by
  simp only [State.moved, Function.update_self]

theorem State.moved_pc_of_ne {j : ι} {pc : Pc} (h : j ≠ i) : (s.moved i pc).pc j = s.pc j := by
  simp only [State.moved, Function.update_of_ne h]

/-- A publish that stops holding a manifest, or takes up its own. -/
theorem HoldsOwn.moved (hs : HoldsOwn ctx p calls s) {pc : Pc}
    (hpc : ∀ release, pc = .storing release ∨ pc = .publishing release →
      (calls i).release ctx p.arch = .ok release) (ht : t.pc = (s.moved i pc).pc) :
    HoldsOwn ctx p calls t := by
  refine ⟨fun {j release} hj => ?_⟩
  rw [ht] at hj
  by_cases hji : j = i
  · subst hji
    rw [State.moved_pc_self] at hj
    exact hpc release hj
  · rw [State.moved_pc_of_ne hji] at hj
    exact hs.own hj

/-- **What a step does.** It moves a publish that stores nothing, stores a binary, or stores a
manifest. -/
theorem step_cases (h : step ctx p calls s a = some t) :
    (∃ i pc, (∀ release, pc = .storing release → (calls i).release ctx p.arch = .ok release) ∧
        (∀ release, pc ≠ .publishing release) ∧ t = s.moved i pc ∧
        ((s.pc i).isPublishing = false ∨ a = .putRelease i .failed)) ∨
      (∃ i release outcome pc, s.pc i = .storing release ∧ a = .putBinary i outcome ∧
        t = s.storeBinary i (calls i).data pc ∧
        (outcome = .stored ∧ pc = .publishing release ∨
          outcome = .answerLost ∧ pc.inProgress = false)) ∨
      ∃ i release outcome pc, s.pc i = .publishing release ∧ a = .putRelease i outcome ∧
        t = s.storeRelease i release pc ∧ outcome ≠ .failed ∧ pc.inProgress = false := by
  cases a with
  | check i =>
    simp only [step] at h
    split at h
    · rename_i hpc
      split at h
      · rename_i release hrelease
        cases h
        refine .inl ⟨i, _, fun r hr => ?_, by simp, rfl, .inl ?_⟩
        · rw [← Pc.storing.inj hr]
          exact hrelease
        · rw [hpc]
          rfl
      · cases h
        refine .inl ⟨i, _, by simp, by simp, rfl, .inl ?_⟩
        rw [hpc]
        rfl
    · exact absurd h.symm (Option.some_ne_none _)
  | putBinary i outcome =>
    simp only [step] at h
    split at h
    · rename_i release hpc
      cases h
      exact .inr (.inl ⟨i, release, _, _, hpc, rfl, rfl, .inl ⟨rfl, rfl⟩⟩)
    · rename_i release hpc
      cases h
      refine .inl ⟨i, _, by simp, by simp, rfl, .inl ?_⟩
      rw [hpc]
      rfl
    · rename_i release hpc
      cases h
      exact .inr (.inl ⟨i, release, _, _, hpc, rfl, rfl, .inr ⟨rfl, rfl⟩⟩)
    · exact absurd h.symm (Option.some_ne_none _)
  | putRelease i outcome =>
    simp only [step] at h
    split at h
    · rename_i release hpc
      cases h
      exact .inr (.inr ⟨i, release, _, _, hpc, rfl, rfl, by simp, rfl⟩)
    · cases h
      exact .inl ⟨i, _, by simp, by simp, rfl, .inr rfl⟩
    · rename_i release hpc
      cases h
      exact .inr (.inr ⟨i, release, _, _, hpc, rfl, rfl, by simp, rfl⟩)
    · exact absurd h.symm (Option.some_ne_none _)

/-- A publish that is not in progress holds no manifest. -/
theorem Pc.not_holds {pc : Pc} (hidle : pc.inProgress = false)
    (hpc : pc = .storing release ∨ pc = .publishing release) : False := by
  rcases hpc with rfl | rfl
  · exact absurd hidle (by simp [Pc.inProgress])
  · exact absurd hidle (by simp [Pc.inProgress])

theorem HoldsOwn.step (hs : HoldsOwn ctx p calls s) (h : step ctx p calls s a = some t) :
    HoldsOwn ctx p calls t := by
  rcases step_cases h with ⟨i, pc, hstoring, hpublishing, rfl, -⟩ |
    ⟨i, release, outcome, pc, hpc, rfl, rfl, ⟨-, rfl⟩ | ⟨-, hidle⟩⟩ |
    ⟨i, release, outcome, pc, hpc, rfl, rfl, -, hidle⟩
  · refine hs.moved (fun release hpc => ?_) rfl
    rcases hpc with hpc | hpc
    · exact hstoring release hpc
    · exact absurd hpc (hpublishing release)
  · refine hs.moved (fun release' hpc' => ?_) rfl
    rcases hpc' with hpc' | hpc'
    · exact absurd hpc' (by simp)
    · rw [← Pc.publishing.inj hpc']
      exact hs.own (.inl hpc)
  · exact hs.moved (fun release' hpc' => (Pc.not_holds hidle hpc').elim) rfl
  · exact hs.moved (fun release' hpc' => (Pc.not_holds hidle hpc').elim) rfl

/-- A step that stores nothing, of a publish whose manifest is not awaited. -/
theorem PublishInv.moved (hs : PublishInv ctx p calls s) {pc : Pc}
    (hheld : HoldsOwn ctx p calls (s.moved i pc))
    (hpublishing : ∀ release, pc ≠ .publishing release)
    (hlast : s.last = some i → (s.pc i).isPublishing = false) :
    PublishInv ctx p calls (s.moved i pc) := by
  refine ⟨hheld, fun hnone => ?_, fun l hl => ?_⟩
  · obtain ⟨hnames, hnobody⟩ := hs.untouched hnone
    refine ⟨hnames, fun j release => ?_⟩
    by_cases hji : j = i
    · subst hji
      rw [State.moved_pc_self]
      exact hpublishing release
    · rw [State.moved_pc_of_ne hji]
      exact hnobody j release
  · obtain ⟨hbinary, hrest⟩ := hs.stored l hl
    refine ⟨hbinary, ?_⟩
    by_cases hli : l = i
    · subst hli
      rw [hlast hl] at hrest
      exact .inr (hrest.resolve_left Bool.false_ne_true)
    · rw [State.moved_pc_of_ne hli]
      exact hrest

theorem publishInv_storeBinary
    (hheld : HoldsOwn ctx p calls (s.storeBinary i (calls i).data (.publishing release))) :
    PublishInv ctx p calls (s.storeBinary i (calls i).data (.publishing release)) := by
  refine ⟨hheld, fun hnone => absurd hnone (Option.some_ne_none _), fun l hl => ?_⟩
  rw [← Option.some.inj hl]
  refine ⟨rfl, .inl ?_⟩
  show ((s.moved i (.publishing release)).pc i).isPublishing = true
  rw [State.moved_pc_self]
  rfl

theorem PublishInv.storeRelease (hs : PublishInv ctx p calls s)
    (hpc : s.pc i = .publishing release) {pc : Pc}
    (hheld : HoldsOwn ctx p calls (s.storeRelease i release pc))
    (hlast : ∀ l, s.last = some l → l ≠ i → (s.pc l).isPublishing = true) :
    PublishInv ctx p calls (s.storeRelease i release pc) := by
  refine ⟨hheld, fun hnone => absurd hpc ((hs.untouched hnone).2 i release), fun l hl => ?_⟩
  obtain ⟨hbinary, -⟩ := hs.stored l hl
  refine ⟨hbinary, ?_⟩
  by_cases hli : l = i
  · -- The binary is that of the publish that writes its manifest now.
    subst hli
    refine .inr fun r hr => ⟨(calls l).data, hbinary, ?_⟩
    rw [← Option.some.inj hr]
    exact sha256_release (hs.held.own (.inr hpc))
  · show ((s.moved i pc).pc l).isPublishing = true ∨ _
    rw [State.moved_pc_of_ne hli]
    exact .inl (hlast l hl hli)

/-- The invariant is kept by every step that is in order. -/
theorem PublishInv.step (hs : PublishInv ctx p calls s) (hok : inOrder s a = true)
    (h : Publishing.step ctx p calls s a = some t) : PublishInv ctx p calls t := by
  have hheld := hs.held.step h
  rcases step_cases h with ⟨i, pc, -, hpublishing, rfl, hawaited⟩ |
    ⟨i, release, outcome, pc, hpc, rfl, rfl, ⟨-, rfl⟩ | ⟨rfl, -⟩⟩ |
    ⟨i, release, outcome, pc, hpc, rfl, rfl, hne, -⟩
  · refine hs.moved hheld hpublishing fun hlast => ?_
    rcases hawaited with hawaited | rfl
    · exact hawaited
    · simp [inOrder, hlast] at hok
  · exact publishInv_storeBinary hheld
  · simp [inOrder] at hok
  · refine hs.storeRelease hpc hheld fun l hl hli => ?_
    simpa [inOrder, hl, hli, hne] using hok

end Invariant

/-- **The manifest names the binary.** Let the stored manifest, if any, name the stored binary. In
every interleaving of any number of publishes in which the publish whose binary was the last to be
stored neither loses the answer of that write nor fails to store its manifest, and no other publish
stores its manifest once that one has stored its own, the stored manifest names the SHA-256 of the
stored binary whenever no publish is in progress. -/
theorem names_binary_when_idle {ι : Type*} [DecidableEq ι] {ctx : InstallerContext} {p : Platform}
    {calls : ι → StoreBinary} {s₀ s : State ι} (h₀ : Starting s₀) (hnames : NamesBinary ctx s₀)
    (h : Reaches (Publishing.step ctx p calls) (fun s a => inOrder s a = true) s₀ s)
    (hidle : ∀ i, (s.pc i).inProgress = false) : NamesBinary ctx s := by
  have hs : PublishInv ctx p calls s :=
    h.invariant (PublishInv ctx p calls) (fun hu hok hstep => hu.step hok hstep)
      (h₀.publishInv hnames)
  rcases hlast : s.last with _ | l
  · exact (hs.untouched hlast).1
  · rcases (hs.stored l hlast).2 with hpublishing | hagrees
    · have hdone := hidle l
      rcases hpc : s.pc l with _ | _ | _ | _ | _
      all_goals simp [hpc, Pc.isPublishing, Pc.inProgress] at hpublishing hdone
    · exact hagrees

/-! ### A manifest that is not stored -/

namespace FailedManifest

/-- The platform of all publishes. -/
def platform : Platform := ⟨.linux, "amd64"⟩

/-- SHA-256 of the two binaries in hexadecimal. -/
def hashes : List (List UInt8 × String) :=
  [([1], "4bf5122f344554c53bde2ebb8cd2b7e3d1600ad631c385a5d7cce23c7785459a"),
    ([2], "dbc1b4c900ffe48d575b5da5c638040125f65db0fe3e24494b76ea986457d986")]

/-- The signatures of the two binaries under the key of the configuration. -/
def signatures : List (List UInt8 × String) :=
  [([1], "5a2c50c47f0d08230e754a324d9c011385098bc5ff6027948658905a014d9355" ++
      "06a0e550f61393ef71e50dc6121981501caad3fd2e272d939dbd8ee75ae8790f"),
    ([2], "4dc2f7798752fefb16703084477108d5ec410e23625f3823e32fbcbb09dabc55" ++
      "331508539e4d36875c8ed59fa750197a7cd54ef09d6d0f9bf70e470f40ccd705")]

/-- The text that belongs to some data. -/
def textOf (table : List (List UInt8 × String)) (data : List UInt8) : Option String :=
  (table.find? fun e => e.1 = data).map Prod.snd

/-- The configuration, with SHA-256 and Ed25519 on the two binaries. -/
def context : InstallerContext where
  otaPublicKey := some "d75a980182b10ab7d54bfed3c964073a0ee172f3daa62325af021a68f707511a"
  sha256 data := ((textOf hashes data).bind HexFormat.parseHex).getD data
  verifySignature _ data sig := (textOf signatures data).bind HexFormat.parseHex = some sig

/-- Two versions are published. -/
def calls : Bool → StoreBinary
  | false => ⟨[1], some "1.4.0", textOf signatures [1]⟩
  | true => ⟨[2], some "1.5.0", textOf signatures [2]⟩

/-- Nothing is published. -/
def empty : State Bool where
  binary := none
  release := none
  pc := fun _ => .ready
  last := none

theorem starting_empty : Starting empty := ⟨fun _ => rfl, rfl⟩

theorem namesBinary_empty : NamesBinary context empty :=
  fun _ h => absurd h.symm (Option.some_ne_none _)

/-- A publish whose writes succeed. -/
def published (i : Bool) : List (Action Bool) :=
  [.check i, .putBinary i .stored, .putRelease i .stored]

theorem exists_key : ∃ key, context.otaPublicKey = some key ∧
    ∃ pub, HexFormat.parseHex key = some pub ∧ pub.length = 32 :=
  ⟨_, rfl, HexFormat.exists_parseHex_ofList (by decide +kernel)⟩

/-- The signatures are valid. -/
theorem exists_signed (i : Bool) : ∃ signature, (calls i).signatureHex = some signature ∧
    ∃ sig, HexFormat.parseHex signature = some sig ∧ sig.length = 64 ∧
      (textOf signatures (calls i).data).bind HexFormat.parseHex = some sig := by
  obtain ⟨signature, hsignature, sig, hsig, hlength⟩ :
      ∃ signature, (calls i).signatureHex = some signature ∧
        ∃ sig, HexFormat.parseHex signature = some sig ∧ sig.length = 64 := by
    cases i with
    | false => exact ⟨_, rfl, HexFormat.exists_parseHex_append (by decide +kernel)⟩
    | true => exact ⟨_, rfl, HexFormat.exists_parseHex_append (by decide +kernel)⟩
  have htext : textOf signatures (calls i).data = (calls i).signatureHex := by
    cases i <;> rfl
  refine ⟨signature, hsignature, sig, hsig, hlength, ?_⟩
  rw [htext, hsignature, Option.bind_some, hsig]

/-- Both publishes pass their checks, whatever SHA-256 is. -/
theorem exists_release (ctx : InstallerContext)
    (hpublicKey : ctx.otaPublicKey = context.otaPublicKey)
    (hverifies : ctx.verifySignature = context.verifySignature) (i : Bool) :
    ∃ version signature, (calls i).version = some version ∧
      (calls i).signatureHex = some signature ∧
      (calls i).release ctx platform.arch =
        .ok ⟨trim version, HexFormat.formatHex (ctx.sha256 (calls i).data), trim signature⟩ := by
  obtain ⟨key, hkey, pub, hpub, hpublength⟩ := exists_key
  obtain ⟨signature, hsignature, sig, hsig, hlength, htext⟩ := exists_signed i
  obtain ⟨version, hversion, hblank⟩ : ∃ version, (calls i).version = some version ∧
      isBlank version = false := by
    cases i with
    | false => exact ⟨_, rfl, by decide⟩
    | true => exact ⟨_, rfl, by decide⟩
  have hsigned : ctx.verifySignature pub (calls i).data sig = true := by
    rw [hverifies]
    exact decide_eq_true htext
  have hverify : verifySignature ctx (calls i).data (calls i).signatureHex = .ok signature := by
    rw [hsignature]
    exact verifySignature_eq_ok (hpublicKey.trans hkey) hpub hpublength hsig
      (List.ne_nil_of_length_pos (by omega)) hsigned
  exact ⟨version, signature, hversion, hsignature,
    release_of_verifySignature (by decide) hversion hblank hverify⟩

theorem sha256_eq {data bytes : List UInt8} {text : String} (htext : textOf hashes data = some text)
    (hbytes : HexFormat.parseHex text = some bytes) : context.sha256 data = bytes := by
  change ((textOf hashes data).bind HexFormat.parseHex).getD data = bytes
  rw [htext, Option.bind_some, hbytes]
  rfl

theorem exists_hash : ∃ text, textOf hashes [1] = some text ∧
    ∃ bytes, HexFormat.parseHex text = some bytes ∧ bytes.head? = some 0x4b :=
  ⟨_, rfl, HexFormat.exists_parseHex_ofList (by decide +kernel)⟩

/-- The two hashes begin with different bytes. -/
theorem formatHex_sha256_ne :
    HexFormat.formatHex (context.sha256 [1]) ≠ HexFormat.formatHex (context.sha256 [2]) := by
  obtain ⟨first, hfirst, bytes, hbytes, hhead⟩ := exists_hash
  obtain ⟨second, hsecond, bytes', hbytes', hhead'⟩ : ∃ text, textOf hashes [2] = some text ∧
      ∃ bytes, HexFormat.parseHex text = some bytes ∧ bytes.head? = some 0xdb :=
    ⟨_, rfl, HexFormat.exists_parseHex_ofList (by decide +kernel)⟩
  obtain ⟨rest, rfl⟩ := List.head?_eq_some_iff.mp hhead
  obtain ⟨rest', rfl⟩ := List.head?_eq_some_iff.mp hhead'
  rw [sha256_eq hfirst hbytes, sha256_eq hsecond hbytes']
  intro h
  have hchars := congrArg String.toList h
  simp [HexFormat.formatHex, HexFormat.toHexDigit] at hchars

section Runs

variable {ctx : InstallerContext} {p : Platform} {calls : Bool → StoreBinary}
  {first second : AgentReleaseInfo}

/-- Two publishes overlap, and all their writes succeed. -/
theorem exists_overlap (hfirst : (calls false).release ctx p.arch = .ok first)
    (hsecond : (calls true).release ctx p.arch = .ok second) :
    ∃ s, Reaches (Publishing.step ctx p calls) (fun s a => inOrder s a = true) empty s ∧
      (∀ i, (s.pc i).inProgress = false) ∧ s.binary = some (calls true).data := by
  refine exists_reaches_of_execBy [.check false, .putBinary false .stored, .check true,
    .putBinary true .stored, .putRelease false .stored, .putRelease true .stored] ?_
  simp [execBy, Publishing.step, inOrder, empty, hfirst, hsecond, State.moved, State.storeBinary,
    State.storeRelease, Pc.inProgress, Pc.isPublishing]

/-- The second publish fails between its two writes. -/
theorem exists_replaced_binary (hfirst : (calls false).release ctx p.arch = .ok first)
    (hsecond : (calls true).release ctx p.arch = .ok second) :
    ∃ s, Reachable (Publishing.step ctx p calls) empty s ∧
      (∀ i, (s.pc i).inProgress = false) ∧ s.binary = some (calls true).data ∧
      s.release = some first := by
  refine exists_reaches_of_execBy (published false ++
    [Action.check true, .putBinary true .stored, .putRelease true .failed]) ?_
  simp [published, execBy, Publishing.step, empty, hfirst, hsecond, State.moved,
    State.storeBinary, State.storeRelease, Pc.inProgress]

end Runs

end FailedManifest

open FailedManifest in
/-- Two publishes overlap, and the one whose binary is stored last is the last to store its
manifest. -/
theorem names_binary_of_overlap :
    ∃ s, (Reaches (Publishing.step context platform calls) (fun s a => inOrder s a = true) empty s ∧
        (∀ i, (s.pc i).inProgress = false) ∧ s.binary = some [2]) ∧ NamesBinary context s := by
  obtain ⟨_, _, -, -, hfirst⟩ := exists_release context rfl rfl false
  obtain ⟨_, _, -, -, hsecond⟩ := exists_release context rfl rfl true
  obtain ⟨s, hreach, hidle, hbinary⟩ := exists_overlap hfirst hsecond
  exact ⟨s, ⟨hreach, hidle, hbinary⟩,
    names_binary_when_idle starting_empty namesBinary_empty hreach hidle⟩

open FailedManifest in
/-- The second publish fails between its two writes: the manifest of the first one names a binary
that is not stored any more. -/
theorem manifest_of_replaced_binary :
    ¬ ∀ s, Reachable (Publishing.step context platform calls) empty s →
      (∀ i, (s.pc i).inProgress = false) → NamesBinary context s := by
  intro hall
  obtain ⟨_, _, -, -, hfirst⟩ := exists_release context rfl rfl false
  obtain ⟨_, _, -, -, hsecond⟩ := exists_release context rfl rfl true
  obtain ⟨s, hreach, hidle, hbinary, hrelease⟩ := exists_replaced_binary hfirst hsecond
  obtain ⟨data, hdata, hnames⟩ := hall s hreach hidle _ hrelease
  rw [← Option.some.inj (hbinary.symm.trans hdata)] at hnames
  exact formatHex_sha256_ne hnames

end Publishing

end EdgeGuardian.Controller
