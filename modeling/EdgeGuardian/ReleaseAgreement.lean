import EdgeGuardian.Agent.Ota.SelfUpdate
import EdgeGuardian.Controller.AgentInstaller
import EdgeGuardian.Lib.GoJson

/-!
# An update that is applied was published

The controller publishes a binary and then its manifest, and an agent fetches the manifest and then
the binary. Publishes go on meanwhile, so that the agent may see the manifest of one publish and the
binary of another one. It compares the SHA-256 of what it has downloaded with the manifest: so what
it applies is the binary of the publish whose manifest it has fetched.

Source: `controller/src/main/java/com/edgeguardian/controller/service/AgentInstallerService.java`,
`api/AgentInstallerController.java`, `agent/internal/ota/selfupdate.go`,
`agent/internal/ota/updater.go`.

## Main definitions

* `Release.writeValue`, `Release.decodeRelease`: the manifest on its way to the agent.
* `Release.State`, `Release.step`: publishes and one agent.
* `Release.Published`: a publish of a version together with a binary.

## Main results

* `Release.formatHex_eq_encodeToString`, `Release.decodeString_eq_parseHex`,
  `Release.encodeToString_injective`: both sides write and read bytes in the same way.
* `Release.applied_update_published`: an update that is applied was published.
-/

namespace EdgeGuardian.Release

open Agent Agent.Ota Controller GoJson Transition

/-! ### Hashes as texts -/

theorem toHexDigit_eq_digitChar : ∀ n < 16, HexFormat.toHexDigit n = Nat.digitChar n := by
  decide

theorem digitChar_inj : ∀ m < 16, ∀ n < 16, Nat.digitChar m = Nat.digitChar n → m = n := by
  decide

/-- The controller and the agent write bytes in the same way. -/
theorem formatHex_eq_encodeToString (bytes : Bytes) :
    HexFormat.formatHex bytes = encodeToString bytes := by
  have hdigits : ∀ b : UInt8, [HexFormat.toHexDigit ((b.toNat >>> 4) % 16),
      HexFormat.toHexDigit (b.toNat % 16)] =
        [Nat.digitChar (b.toNat / 16), Nat.digitChar (b.toNat % 16)] := by
    intro b
    have hlt : b.toNat < 256 := UInt8.toNat_lt b
    have hhigh : (b.toNat >>> 4) % 16 = b.toNat / 16 := by
      rw [Nat.shiftRight_eq_div_pow]
      omega
    rw [hhigh, toHexDigit_eq_digitChar _ (by omega), toHexDigit_eq_digitChar _ (by omega)]
  rw [HexFormat.formatHex, encodeToString]
  simp only [hdigits]

theorem encodeToString_cons (b : UInt8) (bytes : Bytes) :
    (encodeToString (b :: bytes)).toList =
      Nat.digitChar (b.toNat / 16) :: Nat.digitChar (b.toNat % 16) ::
        (encodeToString bytes).toList := by
  simp [encodeToString]

/-- Bytes can be told from their text. -/
theorem encodeToString_injective : Function.Injective encodeToString := by
  intro bytes
  induction bytes with
  | nil =>
    intro bytes' h
    cases bytes' with
    | nil => rfl
    | cons b bytes' =>
      have hlist := congrArg String.toList h
      rw [encodeToString_cons] at hlist
      simp [encodeToString] at hlist
  | cons b bytes ih =>
    intro bytes' h
    have hlist := congrArg String.toList h
    cases bytes' with
    | nil =>
      rw [encodeToString_cons] at hlist
      simp [encodeToString] at hlist
    | cons b' bytes' =>
      rw [encodeToString_cons, encodeToString_cons] at hlist
      obtain ⟨hhigh, hrest⟩ := List.cons.inj hlist
      obtain ⟨hlow, hrest⟩ := List.cons.inj hrest
      have hlt : b.toNat < 256 := UInt8.toNat_lt b
      have hlt' : b'.toNat < 256 := UInt8.toNat_lt b'
      have hdiv := digitChar_inj _ (by omega) _ (by omega) hhigh
      have hmod := digitChar_inj _ (by omega) _ (by omega) hlow
      have hbyte : b = b' := UInt8.toNat_inj.mp (by omega)
      have hbytes : bytes = bytes' := ih (String.toList_inj.mp hrest)
      rw [hbyte, hbytes]

/-- The text of some bytes is not empty. -/
theorem encodeToString_ne_empty {bytes : Bytes} (h : bytes ≠ []) : encodeToString bytes ≠ "" := by
  intro hempty
  exact h (encodeToString_injective (hempty.trans (by simp [encodeToString])))

/-- Both sides read hexadecimal texts in the same way. -/
theorem hexDigit_eq_fromHexDigit (c : Char) : hexDigit c = HexFormat.fromHexDigit c := by
  rw [hexDigit, HexFormat.fromHexDigit]
  split_ifs with hdigit hlower hupper
  · rfl
  · exact absurd (Char.le_trans hlower.1 hupper.2) (by decide)
  · rfl
  · rfl
  · rfl

theorem decodeDigits_eq_parseDigits (chars : List Char) :
    decodeDigits chars = HexFormat.parseDigits chars := by
  induction chars using decodeDigits.induct with
  | case1 => rfl
  | case2 c => rfl
  | case3 high low rest ih =>
    rw [decodeDigits, HexFormat.parseDigits, hexDigit_eq_fromHexDigit, hexDigit_eq_fromHexDigit, ih]

theorem decodeString_eq_parseHex (s : String) : decodeString s = HexFormat.parseHex s :=
  decodeDigits_eq_parseDigits s.toList

/-! ### The manifest on its way -/

/-- The JSON object of a manifest. -/
def writeValue (info : AgentReleaseInfo) : Json :=
  .obj [("version", .str info.version), ("sha256", .str info.sha256),
    ("ed25519Sig", .str info.ed25519Sig)]

/-- The fields of `ReleaseInfo`. -/
def releaseFields : List (String × GoType) :=
  [("version", .string), ("sha256", .string), ("ed25519Sig", .string)]

/-- `json.Decoder.Decode` into a `ReleaseInfo`; `none` is an error. -/
def decodeRelease (json : Json) : Option ReleaseInfo :=
  let field (name : String) :=
    storeField (releaseFields.map Prod.fst) name storeString (membersOf json) ""
  if (GoType.struct releaseFields).accepts json then
    some ⟨field "version", field "sha256", field "ed25519Sig"⟩
  else none

theorem decodeRelease_writeValue (info : AgentReleaseInfo) :
    decodeRelease (writeValue info) = some ⟨info.version, info.sha256, info.ed25519Sig⟩ := by
  simp [decodeRelease, writeValue, releaseFields, GoType.accepts, GoType.acceptsFields, membersOf,
    storeField, storeString, targets]

/-- The answer of `GET /api/v1/agent/latest-version`. -/
def latestVersion (release : Option AgentReleaseInfo) : HttpAnswer (Option ReleaseInfo) :=
  match release with
  | none => .response 404 none
  | some info => .response 200 (decodeRelease (writeValue info))

/-- How the request for the binary goes: it fails, or a number of bytes arrives, with or without an
error at the end. -/
inductive Fetch
  | failed
  | arrives (n : ℕ) (complete : Bool)
deriving DecidableEq, Repr

/-- The answer of `GET /api/v1/agent/binary`. -/
def binaryAnswer (binary : Option Bytes) : Fetch → HttpAnswer DownloadBody
  | .failed => .failed
  | .arrives n complete =>
    match binary with
    | none => .response 404 ⟨[], true⟩
    | some data => .response 200 ⟨data.take n, complete⟩

/-! ### Publishes and an agent -/

/-- Where the agent is. -/
inductive AgentPc
  | idle
  /-- It has fetched a manifest of another version than its own. -/
  | fetched (rel : ReleaseInfo)
  /-- `Apply` has ended. -/
  | applied (rel : ReleaseInfo) (outcome : Outcome)
deriving DecidableEq, Repr

/-- The publishes with the two objects, the publishes whose manifest was stored, and the agent with
its files. -/
structure State (ι : Type*) where
  store : Publishing.State ι
  published : List ι
  agent : AgentPc
  files : Files

/-- A step of a publish, or one of the two fetches of the agent; all that `Apply` does after its
request is done on the agent alone. -/
inductive Action (ι : Type*)
  | publish (a : Publishing.Action ι)
  | fetchRelease
  | apply (fetch : Fetch) (env : Environment)
deriving DecidableEq, Repr

/-- The publish whose manifest a step stores. -/
def storesRelease {ι : Type*} : Publishing.Action ι → Option ι
  | .putRelease i .stored | .putRelease i .answerLost => some i
  | .putRelease _ .failed | .putBinary _ _ | .check _ => none

section Steps

variable {ι : Type*} [DecidableEq ι] (ctx : InstallerContext) (platform : Platform)
  (calls : ι → StoreBinary) (p : Puller) (c : Crypto)

/-- One step. -/
def step (s : State ι) : Action ι → Option (State ι)
  | .publish a =>
    (Publishing.step ctx platform calls s.store a).map fun store =>
      { s with store := store, published := s.published ++ (storesRelease a).toList }
  | .fetchRelease =>
    match s.agent with
    | .idle =>
      match latestRelease (latestVersion s.store.release) with
      | some rel => if p.outdated rel then some { s with agent := .fetched rel } else some s
      | none => some s
    | _ => none
  | .apply fetch env =>
    match s.agent with
    | .fetched rel =>
      let r := p.apply c { env with binary := binaryAnswer s.store.binary fetch } rel s.files
      some { s with agent := .applied rel r.1, files := r.2 }
    | _ => none

end Steps

/-- The states from which runs start: nothing is published, and the agent has fetched nothing. -/
structure Starting {ι : Type*} (s : State ι) : Prop where
  store : Publishing.Starting s.store
  release : s.store.release = none
  agent : s.agent = .idle

/-- One publish has stored its manifest, and has published a version together with a binary. -/
def Published {ι : Type*} (calls : ι → StoreBinary) (s : State ι) (version : String)
    (data : Bytes) : Prop :=
  ∃ i ∈ s.published, (calls i).data = data ∧ (calls i).version.map trim = some version

section Invariant

variable {ι : Type*} {ctx : InstallerContext} {platform : Platform} {calls : ι → StoreBinary}
  {p : Puller} {c : Crypto} {s t : State ι} {a : Action ι}

/-- What the agent makes of a manifest. -/
def toReleaseInfo (info : AgentReleaseInfo) : ReleaseInfo :=
  ⟨info.version, info.sha256, info.ed25519Sig⟩

/-- The manifest is that of a publish which has stored it. -/
def FromPublish (ctx : InstallerContext) (platform : Platform) (calls : ι → StoreBinary)
    (published : List ι) (info : AgentReleaseInfo) : Prop :=
  ∃ i ∈ published, (calls i).release ctx platform.arch = .ok info

/-- The manifest that the agent works with. -/
def AgentPc.rel : AgentPc → Option ReleaseInfo
  | .idle => none
  | .fetched rel | .applied rel _ => some rel

/-- The invariant: the stored manifest and the one that the agent has fetched are from publishes,
and what the agent has applied has the hash of the manifest. -/
structure ReleaseInv (ctx : InstallerContext) (platform : Platform) (calls : ι → StoreBinary)
    (c : Crypto) (s : State ι) : Prop where
  held : Publishing.HoldsOwn ctx platform calls s.store
  stored : ∀ info ∈ s.store.release, FromPublish ctx platform calls s.published info
  fetched : ∀ rel ∈ s.agent.rel,
    ∃ info, rel = toReleaseInfo info ∧ FromPublish ctx platform calls s.published info
  applied : ∀ rel, s.agent = .applied rel .exit42 →
    ∃ data, s.files.staging = some data ∧
      (rel.sha256 ≠ "" → encodeToString (c.sha256 data) = rel.sha256)

theorem Starting.releaseInv (h : Starting s) : ReleaseInv ctx platform calls c s := by
  refine ⟨h.store.holdsOwn, fun info hinfo => ?_, fun rel hrel => ?_, fun rel hrel => ?_⟩
  · rw [h.release] at hinfo
    exact absurd hinfo.symm (Option.some_ne_none _)
  · rw [h.agent] at hrel
    exact absurd hrel.symm (Option.some_ne_none _)
  · rw [h.agent] at hrel
    exact absurd hrel (by simp)

theorem FromPublish.append {published : List ι} {info : AgentReleaseInfo}
    (h : FromPublish ctx platform calls published info) (more : List ι) :
    FromPublish ctx platform calls (published ++ more) info := by
  obtain ⟨i, hi, hrelease⟩ := h
  exact ⟨i, List.mem_append_left more hi, hrelease⟩

theorem latestRelease_latestVersion (info : AgentReleaseInfo) :
    latestRelease (latestVersion (some info)) = some (toReleaseInfo info) := by
  rw [latestVersion, decodeRelease_writeValue]
  rfl

/-- A manifest that `LatestRelease` returns is the stored one. -/
theorem latestRelease_eq_some {release : Option AgentReleaseInfo} {rel : ReleaseInfo}
    (h : latestRelease (latestVersion release) = some rel) :
    ∃ info ∈ release, rel = toReleaseInfo info := by
  rcases release with _ | info
  · exact absurd h.symm (Option.some_ne_none _)
  · rw [latestRelease_latestVersion] at h
    exact ⟨info, rfl, (Option.some.inj h).symm⟩

/-- `Apply` exits with a staging file that has the hash of the manifest. -/
theorem staging_of_exit {env : Environment} {rel : ReleaseInfo} {files : Files}
    (h : (p.apply c env rel files).1 = .exit42) :
    ∃ data, (p.apply c env rel files).2.staging = some data ∧
      (rel.sha256 ≠ "" → encodeToString (c.sha256 data) = rel.sha256) := by
  obtain ⟨data, hdownloaded, hverify⟩ := exists_downloaded_of_exit h
  rw [apply_of_verified hdownloaded hverify, staging_writeUpdateMarker]
  obtain ⟨hpasses, -⟩ := Puller.verify_eq_ok_iff.mp hverify
  exact ⟨data, rfl, fun hsha => (hpasses hsha).2⟩

variable [DecidableEq ι]

/-- After a step of a publish, the stored manifest is from a publish. -/
theorem ReleaseInv.publish {store : Publishing.State ι} {b : Publishing.Action ι}
    (hs : ReleaseInv ctx platform calls c s)
    (h : Publishing.step ctx platform calls s.store b = some store) :
    ∀ info ∈ store.release,
      FromPublish ctx platform calls (s.published ++ (storesRelease b).toList) info := by
  intro info hinfo
  rcases Publishing.step_cases h with ⟨i, pc, -, -, rfl, -⟩ |
    ⟨i, release, outcome, pc, -, rfl, rfl, -⟩ |
    ⟨i, release, outcome, pc, hpc, rfl, rfl, hne, -⟩
  · exact (hs.stored info hinfo).append _
  · exact (hs.stored info hinfo).append _
  · -- The publish that has stored its manifest counts from now on.
    rw [← Option.some.inj hinfo]
    refine ⟨i, List.mem_append_right _ ?_, hs.held.own (.inr hpc)⟩
    cases outcome with
    | failed => exact absurd rfl hne
    | stored | answerLost => simp [storesRelease]

/-- The invariant is kept by every step. -/
theorem ReleaseInv.step (hs : ReleaseInv ctx platform calls c s)
    (h : Release.step ctx platform calls p c s a = some t) :
    ReleaseInv ctx platform calls c t := by
  cases a with
  | publish b =>
    obtain ⟨store, hstore, rfl⟩ := Option.map_eq_some_iff.mp h
    refine ⟨hs.held.step hstore, hs.publish hstore, fun rel hrel => ?_, hs.applied⟩
    obtain ⟨info, hinfo, hfrom⟩ := hs.fetched rel hrel
    exact ⟨info, hinfo, hfrom.append _⟩
  | fetchRelease =>
    simp only [Release.step] at h
    split at h
    · split at h
      · rename_i rel hrel
        obtain ⟨info, hinfo, hsame⟩ := latestRelease_eq_some hrel
        split_ifs at h
        · cases h
          refine ⟨hs.held, hs.stored, fun rel' hrel' => ?_, by simp⟩
          rw [← Option.some.inj hrel']
          exact ⟨info, hsame, hs.stored info hinfo⟩
        · cases h
          exact hs
      · cases h
        exact hs
    · exact absurd h.symm (Option.some_ne_none _)
  | apply fetch env =>
    simp only [Release.step] at h
    split at h
    · rename_i rel hagent
      cases h
      refine ⟨hs.held, hs.stored, fun rel' hrel' => ?_, fun rel' hrel' => ?_⟩
      · refine hs.fetched rel' ?_
        rw [hagent]
        exact hrel'
      · obtain ⟨hrel, hexit⟩ := AgentPc.applied.inj hrel'
        rw [← hrel]
        exact staging_of_exit hexit
    · exact absurd h.symm (Option.some_ne_none _)

end Invariant

/-- **An update that is applied was published.** In every interleaving of any number of publishes,
whose writes may fail, with the two fetches of an agent: when `Apply` reaches the exit with code 42,
one publish has published the version that the agent has fetched together with the bytes that are
staged. Both sides hash with SHA-256, which is taken to be injective and whose digests are not
empty. -/
theorem applied_update_published {ι : Type*} [DecidableEq ι] {ctx : InstallerContext}
    {platform : Platform} {calls : ι → StoreBinary} {p : Puller} {c : Crypto} {s₀ s : State ι}
    {rel : ReleaseInfo} (hsame : ctx.sha256 = c.sha256) (hinjective : Function.Injective c.sha256)
    (hdigest : ∀ data, c.sha256 data ≠ []) (h₀ : Starting s₀)
    (h : Reachable (Release.step ctx platform calls p c) s₀ s)
    (hexit : s.agent = .applied rel .exit42) :
    ∃ data, s.files.staging = some data ∧ Published calls s rel.version data := by
  have hs : ReleaseInv ctx platform calls c s :=
    h.invariant (ReleaseInv ctx platform calls c) (fun hu _ hstep => hu.step hstep) h₀.releaseInv
  obtain ⟨data, hstaging, hhash⟩ := hs.applied rel hexit
  obtain ⟨info, hrel, i, hi, hrelease⟩ := hs.fetched rel (by rw [hexit]; rfl)
  obtain ⟨version, signature, hversion, hinfo⟩ := Publishing.release_eq_ok hrelease
  have hsha : rel.sha256 = encodeToString (c.sha256 (calls i).data) := by
    rw [hrel, hinfo, hsame]
    exact formatHex_eq_encodeToString _
  have hequal : encodeToString (c.sha256 data) = encodeToString (c.sha256 (calls i).data) := by
    rw [← hsha]
    refine hhash ?_
    rw [hsha]
    exact encodeToString_ne_empty (hdigest _)
  have hdata : data = (calls i).data := hinjective (encodeToString_injective hequal)
  refine ⟨data, hstaging, i, hi, hdata.symm, ?_⟩
  rw [hversion, hrel, hinfo]
  rfl

/-! ### An update during a publish -/

namespace DuringPublish

open Publishing.FailedManifest

/-- SHA-256 of the first binary, and an injective function elsewhere. -/
def sha256 (data : Bytes) : Bytes :=
  if data = [1] then ((textOf hashes [1]).bind HexFormat.parseHex).getD [] else 0 :: data

theorem exists_sha256 : ∃ rest, sha256 [1] = 0x4b :: rest := by
  obtain ⟨text, htext, bytes, hbytes, hhead⟩ := exists_hash
  obtain ⟨rest, rfl⟩ := List.head?_eq_some_iff.mp hhead
  refine ⟨rest, ?_⟩
  rw [sha256, if_pos rfl, htext, Option.bind_some, hbytes]
  rfl

theorem sha256_injective : Function.Injective sha256 := by
  obtain ⟨rest, hfirst⟩ := exists_sha256
  have hdigest : ∀ data, data ≠ [1] → sha256 [1] ≠ sha256 data := by
    intro data hdata
    have hdata' : sha256 data = 0 :: data := if_neg hdata
    rw [hfirst, hdata']
    intro h
    exact absurd (List.cons.inj h).1 (by decide)
  intro data data' h
  by_cases hdata : data = [1] <;> by_cases hdata' : data' = [1]
  · rw [hdata, hdata']
  · rw [hdata] at h
    exact absurd h (hdigest data' hdata')
  · rw [hdata'] at h
    exact absurd h.symm (hdigest data hdata)
  · rw [sha256, sha256, if_neg hdata, if_neg hdata'] at h
    exact (List.cons.inj h).2

theorem sha256_ne_nil (data : Bytes) : sha256 data ≠ [] := by
  by_cases hdata : data = [1]
  · obtain ⟨rest, hfirst⟩ := exists_sha256
    rw [hdata, hfirst]
    exact List.cons_ne_nil _ _
  · rw [sha256, if_neg hdata]
    exact List.cons_ne_nil _ _

/-- The cryptography of the agent. -/
def crypto : Crypto where
  sha256 := sha256
  ed25519 _ data sig := (textOf signatures data).bind HexFormat.parseHex = some sig

/-- The configuration of the controller. -/
def controller : InstallerContext := { context with sha256 := sha256 }

/-- The agent, with the key of the controller. -/
def puller : Puller :=
  newPuller (newUpdater "/var/lib/edgeguardian"
    "d75a980182b10ab7d54bfed3c964073a0ee172f3daa62325af021a68f707511a" false)
    "https://controller:8443" "linux" "amd64" "1.3.0"

/-- Nothing is published, and the agent has fetched nothing. -/
def quiet : State Bool where
  store := empty
  published := []
  agent := .idle
  files := ⟨none, none⟩

theorem starting_quiet : Starting quiet := ⟨starting_empty, rfl, rfl⟩

/-- Every operation of the agent on its own files succeeds. -/
def smooth : Environment where
  binary := .failed
  create := true
  hash := true
  read := true
  marker := true
  chmod := true
  now := 0

/-- The agent fetches the manifest and the binary of the first publish, while the second one is at
work. -/
def update : List (Action Bool) :=
  (published false).map .publish ++ [.publish (.check true), .fetchRelease,
    .apply (.arrives 1 true) smooth, .publish (.putBinary true .stored)]

/-- The agent accepts a binary of one byte, with a manifest that names its hash and its
signature. -/
theorem apply_smooth {p : Puller} {c : Crypto} {data sig : Bytes} {info : AgentReleaseInfo}
    (hdata : data.length = 1) (hhash : info.sha256 = HexFormat.formatHex (c.sha256 data))
    (hsig : HexFormat.parseHex info.ed25519Sig = some sig) (hlength : sig.length = 64)
    (hsigned : ∀ pubKey, c.ed25519 pubKey data sig = true) :
    ∃ files, p.apply c { smooth with binary := binaryAnswer (some data) (.arrives 1 true) }
      (toReleaseInfo info) ⟨none, none⟩ = (.exit42, files) := by
  set env : Environment := { smooth with binary := binaryAnswer (some data) (.arrives 1 true) }
    with henv
  have hdownloaded : Downloaded env data := by
    refine ⟨?_, rfl⟩
    have htake : data.take 1 = data := List.take_of_length_le hdata.le
    rw [henv, binaryAnswer, htake]
  have hverify : p.verify c env (toReleaseInfo info) data = .ok () := by
    refine Puller.verify_eq_ok_iff.mpr ⟨fun _ => ⟨rfl, ?_⟩, fun pubKey _ _ => ?_⟩
    · exact (hhash.trans (formatHex_eq_encodeToString _)).symm
    · refine ⟨sig, (decodeString_eq_parseHex _).trans hsig, rfl, ?_⟩
      rw [Crypto.verify, hlength, hsigned]
      rfl
  exact ⟨_, apply_of_verified hdownloaded hverify⟩

theorem outdated_puller {rel : ReleaseInfo} (h : rel.version = "1.4.0") :
    puller.outdated rel = true := by
  have hcurrent : puller.current = "1.3.0" := rfl
  rw [Puller.outdated, h, hcurrent]
  decide

/-- The update, if the manifests of the two publishes pass their checks and the first one is the
manifest of a binary that the agent accepts. -/
theorem exists_update {ctx : InstallerContext} {platform : Platform} {calls : Bool → StoreBinary}
    {p : Puller} {c : Crypto} {first second : AgentReleaseInfo}
    (hfirst : (calls false).release ctx platform.arch = .ok first)
    (hsecond : (calls true).release ctx platform.arch = .ok second)
    (houtdated : p.outdated (toReleaseInfo first) = true)
    (happly : ∃ files, p.apply c
      { smooth with binary := binaryAnswer (some (calls false).data) (.arrives 1 true) }
      (toReleaseInfo first) ⟨none, none⟩ = (.exit42, files)) :
    ∃ s, Reachable (Release.step ctx platform calls p c) quiet s ∧
      s.store.binary = some (calls true).data ∧
      s.agent = .applied (toReleaseInfo first) .exit42 := by
  obtain ⟨files, happly⟩ := happly
  refine exists_reaches_of_execBy update ?_
  simp [update, published, execBy, Release.step, Publishing.step, quiet, empty, hfirst, hsecond,
    Publishing.State.moved, Publishing.State.storeBinary, Publishing.State.storeRelease,
    latestRelease_latestVersion, houtdated, happly]

end DuringPublish

open DuringPublish Publishing.FailedManifest in
/-- An update that is applied while another version is being published. -/
theorem applied_update_published_first :
    ∃ s : State Bool, (Reachable (Release.step controller platform calls puller crypto) quiet s ∧
        s.agent.rel.map ReleaseInfo.version = some "1.4.0" ∧ s.store.binary = some [2]) ∧
      ∃ data, s.files.staging = some data ∧ Published calls s "1.4.0" data := by
  obtain ⟨version, signature, hversion, hsignature, hfirst⟩ :=
    exists_release controller rfl rfl false
  obtain ⟨_, _, -, -, hsecond⟩ := exists_release controller rfl rfl true
  have htrim : trim version = "1.4.0" := by
    rw [← Option.some.inj hversion]
    decide
  obtain ⟨text, htext, sig, hsig, hlength, hsigned⟩ := exists_signed false
  obtain rfl : text = signature := Option.some.inj (htext.symm.trans hsignature)
  rw [HexFormat.trim_eq_of_parseHex hsig] at hfirst
  have hone : (calls false).data.length = 1 := rfl
  have hchecked : ∀ pubKey, crypto.ed25519 pubKey (calls false).data sig = true := by
    intro pubKey
    rw [crypto, decide_eq_true_iff]
    exact hsigned
  obtain ⟨s, hreach, hbinary, hagent⟩ := exists_update hfirst hsecond (outdated_puller htrim)
    (apply_smooth hone rfl hsig hlength hchecked)
  refine ⟨s, ⟨hreach, ?_, hbinary⟩, ?_⟩
  · rw [hagent, AgentPc.rel, Option.map_some, toReleaseInfo, htrim]
  · have hsame : controller.sha256 = crypto.sha256 := rfl
    obtain ⟨data, hstaging, hpublished⟩ := applied_update_published hsame sha256_injective
      sha256_ne_nil starting_quiet hreach hagent
    rw [toReleaseInfo, htrim] at hpublished
    exact ⟨data, hstaging, hpublished⟩

end EdgeGuardian.Release
