import EdgeGuardian.Controller.AgentInstaller
import EdgeGuardian.Lib.TextTemplate

/-!
# Installer scripts

An installer is a template, in which the names between double braces are replaced by their values
one after the other, in the order in which a map of Java iterates. One of the values is the URL of
the binary, at the end of which stands the architecture that the request asks for; it is put between
quotes into a script that runs with all rights. The other methods of the service check the
architecture, and the one that renders the script does not.

Source: `controller/src/main/java/com/edgeguardian/controller/service/AgentInstallerService.java`
(`renderInstaller`, `payloadVars`, `render`, `wrapAsSelfElevatingCmd`),
`service/installer/InstallerFormat.java`.

## Main definitions

* `payloadVars`, `renderTemplate`, `wrapAsSelfElevatingCmd`, `renderInstaller`.
* `EmbedsArchitecture`: the call fails, or the URL ends with a valid architecture, which stands in
  the script as it is and changes nothing else in it.

## Main results

* `embedsArchitecture_iff`: an installer embeds the architecture if and only if the call fails or
  the architecture is valid.
-/

namespace EdgeGuardian.Controller

open TextTemplate

/-! ### Formats and values -/

/-- `InstallerFormat`. -/
inductive InstallerFormat
  | shell
  | ps1
  | cmd
  | shellDarwin
deriving DecidableEq, Repr

/-- `InstallerFormat.os`. -/
def InstallerFormat.os : InstallerFormat → Os
  | shell => .linux
  | ps1 | cmd => .windows
  | shellDarwin => .darwin

/-- `InstallerFormat.templatePath`. -/
def InstallerFormat.templatePath : InstallerFormat → String
  | shell => "installers/install.sh.tmpl"
  | ps1 => "installers/install.ps1.tmpl"
  | cmd => "installers/install.cmd.tmpl"
  | shellDarwin => "installers/install-macos.sh.tmpl"

/-- `InstallerFormat.name`. -/
def InstallerFormat.name : InstallerFormat → String
  | shell => "SHELL"
  | ps1 => "PS1"
  | cmd => "CMD"
  | shellDarwin => "SHELL_DARWIN"

/-- `InstallerFormat.validateFor`. -/
def InstallerFormat.validateFor (format : InstallerFormat) (os : Os) : Except ServiceError Unit :=
  if format.os = os then .ok ()
  else .error (.illegalArgument
    ("Installer format " ++ format.name ++ " is not supported for os " ++ os.slug))

/-- `AgentInstallerProperties`. -/
structure AgentInstallerProperties where
  controllerUrl : String
  brokerUrl : String
  mtlsBrokerUrl : String
  bootstrapPassword : String
  agentVersion : Option String

/-- The configuration of the service, and the libraries that it calls. -/
structure ScriptContext where
  props : AgentInstallerProperties
  /-- `edgeguardian.controller.ota.public-key`. -/
  otaPublicKey : Option String
  /-- `loadResource`. -/
  resource : String → String
  /-- The URL of the binaries with some query parameters, as `UriComponentsBuilder` builds it from
  `controllerUrl` and writes it with `build().toUriString()`. -/
  toUriString : List (String × String) → String

/-- `stripTrailingNewline`. -/
def stripTrailingNewline (s : String) : String :=
  match s.toList.reverse with
  | '\n' :: '\r' :: rest | '\n' :: rest | '\r' :: rest => String.ofList rest.reverse
  | _ => s

/-- `getBytes(StandardCharsets.UTF_8)`. -/
def getBytes (s : String) : List UInt8 := s.toList.flatMap String.utf8EncodeChar

/-- A digit of Base64. -/
def base64Digit (n : ℕ) : Char :=
  if n < 26 then Char.ofNat ('A'.toNat + n)
  else if n < 52 then Char.ofNat ('a'.toNat + (n - 26))
  else if n < 62 then Char.ofNat ('0'.toNat + (n - 52))
  else if n = 62 then '+' else '/'

/-- `Base64.getEncoder().encodeToString`. -/
def encodeBase64 : List UInt8 → List Char
  | [] => []
  | [a] => [base64Digit (a.toNat / 4), base64Digit (a.toNat % 4 * 16), '=', '=']
  | [a, b] =>
    [base64Digit (a.toNat / 4), base64Digit (a.toNat % 4 * 16 + b.toNat / 16),
      base64Digit (b.toNat % 16 * 4), '=']
  | a :: b :: c :: rest =>
    [base64Digit (a.toNat / 4), base64Digit (a.toNat % 4 * 16 + b.toNat / 16),
      base64Digit (b.toNat % 16 * 4 + c.toNat / 64), base64Digit (c.toNat % 64)] ++
      encodeBase64 rest

/-- The URL of the binary, in `payloadVars`. -/
def binaryUrl (ctx : ScriptContext) (os : Os) (arch : String) : String :=
  ctx.toUriString [("os", os.slug), ("arch", arch)]

/-- The entries of `payloadVars` before the one for the URL of the binary. -/
def varsBeforeUrl (ctx : ScriptContext) (token : EnrollmentToken) : List (String × String) :=
  [("CONTROLLER_URL", ctx.props.controllerUrl),
    ("BROKER_URL", ctx.props.brokerUrl),
    ("MTLS_BROKER_URL", ctx.props.mtlsBrokerUrl),
    ("BOOTSTRAP_PASSWORD", ctx.props.bootstrapPassword),
    ("ENROLLMENT_TOKEN", token.token),
    ("OTA_SIGN_KEY", ctx.otaPublicKey.elim "" trim)]

/-- The entries of `payloadVars` behind the one for the URL of the binary. -/
def varsAfterUrl (ctx : ScriptContext) (os : Os) : List (String × String) :=
  let logo := stripTrailingNewline (ctx.resource "installers/logo.txt")
  [("SYSTEMD_UNIT",
      if os = .linux then ctx.resource "installers/edgeguardian-agent.service.tmpl" else ""),
    ("LAUNCHD_PLIST",
      if os = .darwin then ctx.resource "installers/com.edgeguardian.agent.plist.tmpl" else ""),
    ("AGENT_VERSION", ctx.props.agentVersion.getD "unknown"),
    ("LOGO", logo),
    ("LOGO_BASE64", String.ofList (encodeBase64 (getBytes logo)))]

/-- `payloadVars`. -/
def payloadVars (ctx : ScriptContext) (os : Os) (token : EnrollmentToken) (arch : String) :
    List (String × String) :=
  varsBeforeUrl ctx token ++ ("BINARY_URL", binaryUrl ctx os arch) :: varsAfterUrl ctx os

/-- The keys of `payloadVars`. -/
def varKeys : List String :=
  ["CONTROLLER_URL", "BROKER_URL", "MTLS_BROKER_URL", "BOOTSTRAP_PASSWORD", "ENROLLMENT_TOKEN",
    "OTA_SIGN_KEY", "BINARY_URL", "SYSTEMD_UNIT", "LAUNCHD_PLIST", "AGENT_VERSION", "LOGO",
    "LOGO_BASE64"]

/-! ### Rendering -/

/-- A key between double braces. -/
def placeholder (key : String) : List Char := '\x7b' :: '\x7b' :: key.toList ++ ['\x7d', '\x7d']

/-- The entries of a map, in the order in which it iterates over its keys. -/
def entrySet (order : List String) (vars : List (String × String)) : List (List Char × List Char) :=
  order.filterMap fun key => (vars.lookup key).map fun value => (placeholder key, value.toList)

/-- `render`. -/
def renderTemplate (ctx : ScriptContext) (path : String) (order : List String)
    (vars : List (String × String)) : String :=
  String.ofList (render (ctx.resource path).toList (entrySet order vars))

/-- The lines of `wrapAsSelfElevatingCmd`, of at most 4000 characters of the payload each. -/
def echoLines (b64 : List Char) : List Char :=
  (List.range ((b64.length + 3999) / 4000)).flatMap fun k =>
    "echo ".toList ++ (b64.drop (4000 * k)).take 4000 ++ ['\r', '\n']

/-- `wrapAsSelfElevatingCmd`. -/
def wrapAsSelfElevatingCmd (ctx : ScriptContext) (ps1 : String) : String :=
  renderTemplate ctx InstallerFormat.cmd.templatePath ["PS1_BASE64_LINES"]
    [("PS1_BASE64_LINES", String.ofList (echoLines (encodeBase64 (getBytes ps1))))]

/-- The template that is filled in with the values. -/
def InstallerFormat.payloadTemplate : InstallerFormat → String
  | cmd => ps1.templatePath
  | format => format.templatePath

/-- What `renderInstaller` makes of the template that has been filled in. -/
def finishScript (ctx : ScriptContext) : InstallerFormat → String → String
  | .cmd, payload => wrapAsSelfElevatingCmd ctx payload
  | _, payload => payload

/-- `tokenRepository.findByToken(tokenSecret).filter(EnrollmentToken::isValid)`. -/
def findValidToken (tokens : Table EnrollmentToken EnrollmentToken.token) (now : Instant)
    (tokenSecret : String) : Option EnrollmentToken :=
  (tokens.find? tokenSecret).filter fun t => t.isValid now

/-- `renderInstaller`, where the map of the values iterates over its keys in the given order. -/
def renderInstaller (ctx : ScriptContext) (tokens : Table EnrollmentToken EnrollmentToken.token)
    (now : Instant) (order : List String) (os : Os) (format : InstallerFormat)
    (tokenSecret arch : String) : Except ServiceError String := do
  format.validateFor os
  match findValidToken tokens now tokenSecret with
  | none => .error (.status 404 "Enrollment token not found")
  | some token =>
    return finishScript ctx format
      (renderTemplate ctx format.payloadTemplate order (payloadVars ctx os token arch))

/-! ### What an installer embeds -/

/-- The characters that end a quoted text of the shells or are expanded in it, and those of the
template language: double and single quotes, also those that PowerShell takes for single quotes, the
dollar sign, the backtick, the backslash, the exclamation mark and braces. -/
def activeCharacters : List Char :=
  ['"', '\x27', '\u2018', '\u2019', '\u201a', '\u201b', '$', '\x60', '\\', '!', '\x7b', '\x7d']

/-- `UriComponentsBuilder` writes the parameters one after the other, without encoding them. -/
def BuildsPlainUris (ctx : ScriptContext) (endpoint : String) : Prop :=
  ∀ slug arch, ctx.toUriString [("os", slug), ("arch", arch)] =
    endpoint ++ "os=" ++ slug ++ "&arch=" ++ arch

/-- If a script is returned, then the URL of the binary ends with a valid architecture. None of its
characters is active, and the script is a frame with the architecture in it, the same for all valid
architectures. -/
def EmbedsArchitecture (ctx : ScriptContext) (endpoint : String)
    (tokens : Table EnrollmentToken EnrollmentToken.token) (now : Instant) (order : List String)
    (os : Os) (format : InstallerFormat) (tokenSecret arch : String) : Prop :=
  ∀ script, renderInstaller ctx tokens now order os format tokenSecret arch = .ok script →
    ∃ a, binaryUrl ctx os arch = endpoint ++ "os=" ++ os.slug ++ "&arch=" ++ a ∧
      validateArch a = .ok () ∧ (∀ c ∈ a.toList, c ∉ activeCharacters) ∧
      ∃ frame : Frame Char,
        script = finishScript ctx format (String.ofList (frame.fill '=' a.toList)) ∧
        ∀ b, validateArch b = .ok () →
          renderInstaller ctx tokens now order os format tokenSecret b =
            .ok (finishScript ctx format (String.ofList (frame.fill '=' b.toList)))

section Embedding

variable {ctx : ScriptContext} {endpoint : String} {order : List String} {os : Os}
  {token : EnrollmentToken} {arch key : String}

theorem validateArch_eq_ok : validateArch arch = .ok () ↔
    1 ≤ arch.length ∧ arch.length ≤ 16 ∧
      ∀ c ∈ arch.toList, ('a' ≤ c ∧ c ≤ 'z') ∨ ('0' ≤ c ∧ c ≤ '9') := by
  rw [validateArch]
  split_ifs with h
  · simpa using h
  · simpa using h

/-- Nothing in a valid architecture is active. -/
theorem not_active_of_validateArch (h : validateArch arch = .ok ()) :
    ∀ c ∈ arch.toList, c ∉ activeCharacters := by
  intro c hc hactive
  obtain ⟨-, -, hchars⟩ := validateArch_eq_ok.mp h
  have hnone : ∀ c ∈ activeCharacters, ¬ (('a' ≤ c ∧ c ≤ 'z') ∨ ('0' ≤ c ∧ c ≤ '9')) := by
    refine List.forall_iff_forall_mem.mp ?_
    simp only [activeCharacters, List.Forall]
    decide
  exact hnone c hactive (hchars c hc)

/-- The other values do not depend on the architecture. -/
theorem lookup_payloadVars (hkey : key ≠ "BINARY_URL") :
    (payloadVars ctx os token arch).lookup key =
      (varsBeforeUrl ctx token ++ varsAfterUrl ctx os).lookup key := by
  have hne : (key == "BINARY_URL") = false := beq_eq_false_iff_ne.mpr hkey
  rw [payloadVars, List.lookup_append, List.lookup_append, List.lookup_cons, hne]

theorem toList_binaryUrl (huri : BuildsPlainUris ctx endpoint) :
    (binaryUrl ctx os arch).toList =
      (endpoint ++ "os=" ++ os.slug ++ "&arch").toList ++ '=' :: arch.toList := by
  have hparam : ∀ a b c d : String, (a ++ (b ++ c) ++ d).toList =
      (a ++ b).toList ++ (c.toList ++ d.toList) := by
    intro a b c d
    simp only [String.toList_append, List.append_assoc]
  have harch : "&arch=" = "&arch" ++ "=" := rfl
  rw [binaryUrl, huri os.slug arch, harch]
  exact hparam (endpoint ++ "os=" ++ os.slug) "&arch" "=" arch

theorem entrySet_congr {vars vars' : List (String × String)}
    (h : ∀ key ∈ order, vars.lookup key = vars'.lookup key) :
    entrySet order vars = entrySet order vars' := by
  refine List.filterMap_congr fun key hkey => ?_
  rw [h key hkey]

theorem entrySet_append {vars : List (String × String)} (order order' : List String) :
    entrySet (order ++ order') vars = entrySet order vars ++ entrySet order' vars :=
  List.filterMap_append

theorem entrySet_cons {vars : List (String × String)} {value : String}
    (h : vars.lookup key = some value) :
    entrySet (key :: order) vars = (placeholder key, value.toList) :: entrySet order vars := by
  simp [entrySet, h]

theorem placeholder_of_mem_entrySet {vars : List (String × String)} {e : List Char × List Char}
    (he : e ∈ entrySet order vars) : ∃ key ∈ order, e.1 = placeholder key := by
  obtain ⟨key, hkey, hlookup⟩ := List.mem_filterMap.mp he
  obtain ⟨value, -, rfl⟩ := Option.map_eq_some_iff.mp hlookup
  exact ⟨key, hkey, rfl⟩

/-- The keys before and behind that of the URL of the binary. -/
theorem exists_before_after (horder : order.Perm varKeys) :
    ∃ before after, order = before ++ "BINARY_URL" :: after ∧
      (∀ key ∈ before, key ≠ "BINARY_URL") ∧ ∀ key ∈ after, key ≠ "BINARY_URL" := by
  have hmem : "BINARY_URL" ∈ order := horder.mem_iff.mpr (by decide)
  have hnodup : order.Nodup := horder.nodup_iff.mpr (by decide)
  obtain ⟨before, after, rfl⟩ := List.append_of_mem hmem
  obtain ⟨-, hnodup', hdisjoint⟩ := List.nodup_append.mp hnodup
  refine ⟨before, after, rfl, fun key hkey => ?_, fun key hkey heq => ?_⟩
  · exact hdisjoint key hkey "BINARY_URL" List.mem_cons_self
  · exact (List.nodup_cons.mp hnodup').1 (heq ▸ hkey)

/-- **An architecture without braces stands in the script as it is**, and does not change anything
else in it, in whatever order the values are put in. -/
theorem exists_frame_renderTemplate (huri : BuildsPlainUris ctx endpoint)
    (horder : order.Perm varKeys) (os : Os) (token : EnrollmentToken) (path : String) :
    ∃ frame : Frame Char, ∀ arch : String, '\x7b' ∉ arch.toList →
      renderTemplate ctx path order (payloadVars ctx os token arch) =
        String.ofList (frame.fill '=' arch.toList) := by
  obtain ⟨before, after, hsplit, hbefore, hafter⟩ := exists_before_after horder
  have hkeys : ∀ key ∈ varKeys, '=' ∉ placeholder key := by decide
  have htargets : ∀ e ∈ entrySet after (varsBeforeUrl ctx token ++ varsAfterUrl ctx os),
      '=' ∉ e.1 ∧ e.1.head? = some '\x7b' := by
    intro e he
    obtain ⟨key, hkey, heq⟩ := placeholder_of_mem_entrySet he
    have hmem : key ∈ varKeys := by
      rw [← horder.mem_iff, hsplit]
      exact List.mem_append_right _ (List.mem_cons_of_mem _ hkey)
    rw [heq]
    exact ⟨hkeys key hmem, rfl⟩
  obtain ⟨frame, hframe⟩ := exists_frame_render (ctx.resource path).toList
    (placeholder "BINARY_URL") (endpoint ++ "os=" ++ os.slug ++ "&arch").toList '=' '\x7b'
    (entrySet before (varsBeforeUrl ctx token ++ varsAfterUrl ctx os)) _ htargets
  refine ⟨frame, fun arch harch => ?_⟩
  have hentries : entrySet order (payloadVars ctx os token arch) =
      entrySet before (varsBeforeUrl ctx token ++ varsAfterUrl ctx os) ++
        (placeholder "BINARY_URL",
          (endpoint ++ "os=" ++ os.slug ++ "&arch").toList ++ '=' :: arch.toList) ::
        entrySet after (varsBeforeUrl ctx token ++ varsAfterUrl ctx os) := by
    have hurl : (payloadVars ctx os token arch).lookup "BINARY_URL" =
        some (binaryUrl ctx os arch) := rfl
    rw [hsplit, entrySet_append, entrySet_cons hurl, toList_binaryUrl huri]
    congr 1
    · exact entrySet_congr fun key hkey => lookup_payloadVars (hbefore key hkey)
    · congr 1
      exact entrySet_congr fun key hkey => lookup_payloadVars (hafter key hkey)
  rw [renderTemplate, hentries, hframe _ harch]

/-! ### Which installers embed a valid architecture -/

/-- What `renderInstaller` returns. -/
theorem renderInstaller_eq (tokens : Table EnrollmentToken EnrollmentToken.token) (now : Instant)
    {format : InstallerFormat} (hformat : format.os = os) (tokenSecret : String) :
    renderInstaller ctx tokens now order os format tokenSecret arch =
      match findValidToken tokens now tokenSecret with
      | none => .error (.status 404 "Enrollment token not found")
      | some token => .ok (finishScript ctx format
          (renderTemplate ctx format.payloadTemplate order (payloadVars ctx os token arch))) := by
  rw [renderInstaller, InstallerFormat.validateFor, if_pos hformat]
  rfl

theorem renderInstaller_ne_ok (tokens : Table EnrollmentToken EnrollmentToken.token)
    (now : Instant) {format : InstallerFormat} (hformat : format.os ≠ os)
    (tokenSecret script : String) :
    renderInstaller ctx tokens now order os format tokenSecret arch ≠ .ok script := by
  rw [renderInstaller, InstallerFormat.validateFor, if_neg hformat]
  nofun

/-- **An installer embeds the architecture** if and only if it is not rendered at all or the
architecture is valid. -/
theorem embedsArchitecture_iff (ctx : ScriptContext) (endpoint : String)
    (huri : BuildsPlainUris ctx endpoint) (tokens : Table EnrollmentToken EnrollmentToken.token)
    (now : Instant) (order : List String) (horder : order.Perm varKeys) (os : Os)
    (format : InstallerFormat) (tokenSecret arch : String) :
    EmbedsArchitecture ctx endpoint tokens now order os format tokenSecret arch ↔
      format.os ≠ os ∨ findValidToken tokens now tokenSecret = none ∨
        validateArch arch = .ok () := by
  by_cases hformat : format.os = os
  swap
  · refine iff_of_true (fun script h => ?_) (.inl hformat)
    exact absurd h (renderInstaller_ne_ok tokens now hformat tokenSecret script)
  rcases htoken : findValidToken tokens now tokenSecret with _ | token
  · refine iff_of_true (fun script h => ?_) (.inr (.inl rfl))
    rw [renderInstaller_eq tokens now hformat, htoken] at h
    cases h
  have hrender : ∀ b, renderInstaller ctx tokens now order os format tokenSecret b =
      .ok (finishScript ctx format
        (renderTemplate ctx format.payloadTemplate order (payloadVars ctx os token b))) := by
    intro b
    rw [renderInstaller_eq tokens now hformat, htoken]
  constructor
  · intro h
    obtain ⟨a, hurl, ha, -⟩ := h _ (hrender arch)
    have harch : arch = a := by
      rw [binaryUrl, huri os.slug arch] at hurl
      exact String.append_right_inj _ |>.mp hurl
    exact .inr (.inr (harch ▸ ha))
  · rintro (hne | hnone | hvalid)
    · exact absurd hformat hne
    · cases hnone
    intro script hscript
    obtain ⟨frame, hframe⟩ := exists_frame_renderTemplate huri horder os token
      format.payloadTemplate
    have hfill : ∀ b, validateArch b = .ok () →
        renderInstaller ctx tokens now order os format tokenSecret b =
          .ok (finishScript ctx format (String.ofList (frame.fill '=' b.toList))) := by
      intro b hb
      rw [hrender, hframe b fun hbrace => not_active_of_validateArch hb _ hbrace (by decide)]
    rw [hfill arch hvalid] at hscript
    cases hscript
    exact ⟨arch, huri os.slug arch, hvalid, not_active_of_validateArch hvalid, frame, rfl, hfill⟩

end Embedding

namespace LinuxInstaller

/-- The URL of the binaries, up to the parameters. -/
def endpoint : String := "https://controller/api/v1/agent/binary?"

/-- Parameters as they are, one after the other. -/
def query : List (String × String) → String
  | [] => ""
  | [param] => param.1 ++ "=" ++ param.2
  | param :: params => param.1 ++ "=" ++ param.2 ++ "&" ++ query params

/-- A template of one line, and a builder that writes the parameters as they are. -/
def ctx : ScriptContext where
  props := ⟨"https://controller", "tcp://broker:1883", "ssl://broker:8883", "bootstrap", none⟩
  otaPublicKey := none
  resource path :=
    if path = "installers/install.sh.tmpl" then "URL=\"\x7b\x7bBINARY_URL\x7d\x7d\"\n" else ""
  toUriString params := endpoint ++ query params

/-- One token, without a limit. -/
def tokens : Table EnrollmentToken EnrollmentToken.token :=
  Table.empty.save ⟨1, 1, "secret", "site", none, none, 0, false⟩

theorem buildsPlainUris : BuildsPlainUris ctx endpoint := by
  intro slug arch
  rw [← String.toList_inj]
  simp [ctx, query]

end LinuxInstaller

/-- A script for the default architecture. -/
theorem embedsArchitecture_amd64 :
    EmbedsArchitecture LinuxInstaller.ctx LinuxInstaller.endpoint LinuxInstaller.tokens 0 varKeys
      .linux .shell "secret" "amd64" :=
  (embedsArchitecture_iff LinuxInstaller.ctx LinuxInstaller.endpoint
    LinuxInstaller.buildsPlainUris LinuxInstaller.tokens 0 varKeys (.refl _) .linux .shell "secret"
    "amd64").mpr (.inr (.inr (by decide)))

/-- An architecture that ends the quoted text, and goes on with a command. -/
theorem not_embedsArchitecture :
    renderInstaller LinuxInstaller.ctx LinuxInstaller.tokens 0 varKeys .linux .shell "secret"
        "x\";reboot;\"" =
      .ok "URL=\"https://controller/api/v1/agent/binary?os=linux&arch=x\";reboot;\"\"\n" ∧
    ¬ EmbedsArchitecture LinuxInstaller.ctx LinuxInstaller.endpoint LinuxInstaller.tokens 0 varKeys
      .linux .shell "secret" "x\";reboot;\"" := by
  have hrender : renderInstaller LinuxInstaller.ctx LinuxInstaller.tokens 0 varKeys .linux .shell
      "secret" "x\";reboot;\"" =
        .ok "URL=\"https://controller/api/v1/agent/binary?os=linux&arch=x\";reboot;\"\"\n" := by
    decide +kernel
  refine ⟨hrender, fun h => ?_⟩
  obtain ⟨a, hurl, ha, -⟩ := h _ hrender
  have harch : "x\";reboot;\"" = a := by
    rw [binaryUrl, LinuxInstaller.buildsPlainUris _ _] at hurl
    exact (String.append_right_inj _).mp hurl
  subst harch
  revert ha
  decide

end EdgeGuardian.Controller
