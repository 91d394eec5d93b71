import EdgeGuardian.Controller.InstallerScripts
import EdgeGuardian.Lib.Pieces

/-!
# The payload of the self-elevating installer

The installer for a double click on Windows is a batch file that carries a PowerShell script: the
Base64 encoding of the script is cut into lines that `echo` writes into a file, from which it is
decoded. The lines stand in a group, the output of which is redirected; a closing parenthesis would
end the group, and `echo` without a text would write one of its own.

Source: `controller/src/main/java/com/edgeguardian/controller/service/AgentInstallerService.java`
(`wrapAsSelfElevatingCmd`), `controller/src/main/resources/installers/install.cmd.tmpl`.

## Main definitions

* `echoLoop`: the loop of `wrapAsSelfElevatingCmd`.
* `decodeBase64`: Base64 is decoded.
* `payloads`: the payloads of the lines of a text.
* `installCmdTmpl`: the template.
* `CarriesPayload`: a block of lines carries a script.

## Main results

* `echoLoop_eq_echoLines`: the loop writes the slices of the encoding.
* `decodeBase64_encodeBase64`: decoding is the inverse of encoding.
* `wrapAsSelfElevatingCmd_carriesPayload`: the group in the installer carries its script.
-/

namespace EdgeGuardian.Controller

open TextTemplate

/-! ### The loop -/

/-- `CMD_CHUNK_SIZE`. -/
def cmdChunkSize : ℕ := 4000

theorem cmdChunkSize_pos : 0 < cmdChunkSize := by decide

/-- The command, and the space behind it. -/
def echoCommand : List Char := ['e', 'c', 'h', 'o', ' ']

/-- The line for a payload. -/
def echoLine (payload : List Char) : List Char := echoCommand ++ payload ++ ['\r', '\n']

/-- The loop of `wrapAsSelfElevatingCmd`, from the position `i` on. -/
def echoLoop (b64 : List Char) (i : ℕ) : List Char :=
  if i < b64.length then
    let stop := min (i + cmdChunkSize) b64.length
    echoLine ((b64.drop i).take (stop - i)) ++ echoLoop b64 (i + cmdChunkSize)
  else []
termination_by b64.length - i
decreasing_by
  have hpos := cmdChunkSize_pos
  omega

theorem echoLines_eq_flatMap_slices (b64 : List Char) :
    echoLines b64 = (Pieces.slices cmdChunkSize b64).flatMap echoLine := by
  have hcommand : "echo ".toList = echoCommand := String.toList_ofList
  rw [Pieces.slices, List.flatMap_map, echoLines, hcommand]
  rfl

/-- The loop goes over the slices of what is left. -/
theorem echoLoop_eq_flatMap_slices (b64 : List Char) (i : ℕ) :
    echoLoop b64 i = (Pieces.slices cmdChunkSize (b64.drop i)).flatMap echoLine := by
  induction i using echoLoop.induct b64 with
  | case1 i hlt ih =>
    have hne : b64.drop i ≠ [] := by
      rw [ne_eq, List.drop_eq_nil_iff]
      omega
    have hslice : (b64.drop i).take (min (i + cmdChunkSize) b64.length - i) =
        (b64.drop i).take cmdChunkSize := by
      rw [List.take_eq_take_iff, List.length_drop]
      omega
    rw [echoLoop, if_pos hlt, Pieces.slices_of_ne_nil cmdChunkSize_pos hne, List.flatMap_cons,
      List.drop_drop, ← ih, ← hslice]
  | case2 i hle =>
    rw [echoLoop, if_neg hle, List.drop_of_length_le (Nat.not_lt.mp hle),
      Pieces.slices_nil cmdChunkSize_pos]
    rfl

theorem echoLoop_eq_echoLines (b64 : List Char) : echoLoop b64 0 = echoLines b64 := by
  rw [echoLoop_eq_flatMap_slices, List.drop_zero, echoLines_eq_flatMap_slices]

/-! ### Base64 -/

/-- The value of a digit. -/
def base64Value (c : Char) : Option ℕ :=
  if 'A' ≤ c ∧ c ≤ 'Z' then some (c.toNat - 'A'.toNat)
  else if 'a' ≤ c ∧ c ≤ 'z' then some (c.toNat - 'a'.toNat + 26)
  else if '0' ≤ c ∧ c ≤ '9' then some (c.toNat - '0'.toNat + 52)
  else if c = '+' then some 62
  else if c = '/' then some 63
  else none

/-- `Base64.getDecoder().decode` and `Convert.FromBase64String`, for a text with its padding. -/
def decodeBase64 : List Char → Option (List UInt8)
  | [] => some []
  | a :: b :: c :: d :: rest => do
    let p ← base64Value a
    let q ← base64Value b
    if rest = [] ∧ c = '=' ∧ d = '=' then return [UInt8.ofNat (p * 4 + q / 16)]
    let r ← base64Value c
    if rest = [] ∧ d = '=' then
      return [UInt8.ofNat (p * 4 + q / 16), UInt8.ofNat (q % 16 * 16 + r / 4)]
    let s ← base64Value d
    let bytes ← decodeBase64 rest
    return UInt8.ofNat (p * 4 + q / 16) :: UInt8.ofNat (q % 16 * 16 + r / 4) ::
      UInt8.ofNat (r % 4 * 64 + s) :: bytes
  | _ => none

theorem base64Value_base64Digit : ∀ n < 64, base64Value (base64Digit n) = some n := by
  decide

theorem base64Digit_ne_pad : ∀ n < 64, base64Digit n ≠ '=' := by
  decide

theorem ofNat_eq_of_toNat {a : UInt8} {n : ℕ} (h : n = a.toNat) : UInt8.ofNat n = a := by
  rw [h, UInt8.ofNat_toNat]

/-- Three bytes in four digits. -/
theorem decodeBase64_cons {p q r s : ℕ} (hp : p < 64) (hq : q < 64) (hr : r < 64) (hs : s < 64)
    (rest : List Char) :
    decodeBase64 (base64Digit p :: base64Digit q :: base64Digit r :: base64Digit s :: rest) =
      (decodeBase64 rest).map fun bytes =>
        UInt8.ofNat (p * 4 + q / 16) :: UInt8.ofNat (q % 16 * 16 + r / 4) ::
          UInt8.ofNat (r % 4 * 64 + s) :: bytes := by
  rw [decodeBase64]
  simp only [base64Value_base64Digit p hp, base64Value_base64Digit q hq,
    base64Value_base64Digit r hr, base64Value_base64Digit s hs, base64Digit_ne_pad r hr,
    base64Digit_ne_pad s hs, Option.bind_eq_bind, Option.bind_some, and_false, if_false]
  cases decodeBase64 rest <;> rfl

theorem decodeBase64_encodeBase64 (bytes : List UInt8) :
    decodeBase64 (encodeBase64 bytes) = some bytes := by
  induction bytes using encodeBase64.induct with
  | case1 => rfl
  | case2 a =>
    have ha := a.toNat_lt
    have hfirst := base64Value_base64Digit (a.toNat / 4) (by omega)
    have hsecond := base64Value_base64Digit (a.toNat % 4 * 16) (by omega)
    have hbyte : a.toNat / 4 * 4 + a.toNat % 4 * 16 / 16 = a.toNat := by omega
    rw [encodeBase64, decodeBase64]
    simp only [hfirst, hsecond, Option.bind_eq_bind, Option.bind_some, and_self, if_true,
      ofNat_eq_of_toNat hbyte]
    rfl
  | case3 a b =>
    have ha := a.toNat_lt
    have hb := b.toNat_lt
    have hfirst := base64Value_base64Digit (a.toNat / 4) (by omega)
    have hsecond := base64Value_base64Digit (a.toNat % 4 * 16 + b.toNat / 16) (by omega)
    have hthird := base64Value_base64Digit (b.toNat % 16 * 4) (by omega)
    have hpad := base64Digit_ne_pad (b.toNat % 16 * 4) (by omega)
    have hbyte : a.toNat / 4 * 4 + (a.toNat % 4 * 16 + b.toNat / 16) / 16 = a.toNat := by omega
    have hbyte' : (a.toNat % 4 * 16 + b.toNat / 16) % 16 * 16 + b.toNat % 16 * 4 / 4 =
        b.toNat := by
      omega
    rw [encodeBase64, decodeBase64]
    simp only [hfirst, hsecond, hthird, hpad, Option.bind_eq_bind, Option.bind_some, and_self,
      false_and, and_false, if_true, if_false, ofNat_eq_of_toNat hbyte, ofNat_eq_of_toNat hbyte']
    rfl
  | case4 a b c rest ih =>
    have ha := a.toNat_lt
    have hb := b.toNat_lt
    have hc := c.toNat_lt
    have hbyte : a.toNat / 4 * 4 + (a.toNat % 4 * 16 + b.toNat / 16) / 16 = a.toNat := by omega
    have hbyte' : (a.toNat % 4 * 16 + b.toNat / 16) % 16 * 16 +
        (b.toNat % 16 * 4 + c.toNat / 64) / 4 = b.toNat := by
      omega
    have hbyte'' : (b.toNat % 16 * 4 + c.toNat / 64) % 4 * 64 + c.toNat % 64 = c.toNat := by omega
    have hquad := decodeBase64_cons (show a.toNat / 4 < 64 by omega)
      (show a.toNat % 4 * 16 + b.toNat / 16 < 64 by omega)
      (show b.toNat % 16 * 4 + c.toNat / 64 < 64 by omega) (show c.toNat % 64 < 64 by omega)
      (encodeBase64 rest)
    rw [ih, ofNat_eq_of_toNat hbyte, ofNat_eq_of_toNat hbyte', ofNat_eq_of_toNat hbyte''] at hquad
    exact hquad

/-- A character of Base64 is a digit or the padding. -/
theorem mem_encodeBase64 {bytes : List UInt8} {c : Char} (h : c ∈ encodeBase64 bytes) :
    c = '=' ∨ ∃ n < 64, c = base64Digit n := by
  have hdigit : ∀ {n : ℕ}, n < 64 → c = base64Digit n → c = '=' ∨ ∃ n < 64, c = base64Digit n :=
    fun hn heq => .inr ⟨_, hn, heq⟩
  induction bytes using encodeBase64.induct with
  | case1 => cases h
  | case2 a =>
    have ha := a.toNat_lt
    simp only [encodeBase64, List.mem_cons, List.not_mem_nil, or_false] at h
    obtain h | h | h | h := h
    · exact hdigit (by omega) h
    · exact hdigit (by omega) h
    · exact .inl h
    · exact .inl h
  | case3 a b =>
    have ha := a.toNat_lt
    have hb := b.toNat_lt
    simp only [encodeBase64, List.mem_cons, List.not_mem_nil, or_false] at h
    obtain h | h | h | h := h
    · exact hdigit (by omega) h
    · exact hdigit (by omega) h
    · exact hdigit (by omega) h
    · exact .inl h
  | case4 a b c rest ih =>
    have ha := a.toNat_lt
    have hb := b.toNat_lt
    have hc := c.toNat_lt
    simp only [encodeBase64, List.mem_append, List.mem_cons, List.not_mem_nil, or_false] at h
    obtain (h | h | h | h) | h := h
    · exact hdigit (by omega) h
    · exact hdigit (by omega) h
    · exact hdigit (by omega) h
    · exact hdigit (by omega) h
    · exact ih h

theorem base64Digit_not_mem : ∀ n < 64, base64Digit n ∉ ['\r', '\n', ')'] := by
  decide

/-- No character of Base64 ends a line or a group. -/
theorem not_mem_encodeBase64 {bytes : List UInt8} {c : Char} (hc : c ∈ ['\r', '\n', ')']) :
    c ∉ encodeBase64 bytes := by
  intro hmem
  obtain rfl | ⟨n, hn, rfl⟩ := mem_encodeBase64 hmem
  · revert hc
    decide
  · exact base64Digit_not_mem n hn hc

/-- The bytes of a text are decoded to the text. -/
theorem fromUTF8?_getBytes (s : String) : String.fromUTF8? (getBytes s).toByteArray = some s := by
  have hbytes : (getBytes s).toByteArray = s.toByteArray := by
    rw [← String.utf8Encode_toList]
    rfl
  rw [hbytes, String.fromUTF8?, dif_pos s.isValidUTF8]
  rfl

/-! ### The lines of a text that echo something -/

/-- What a line echoes, if it is an `echo`. -/
def echoPayload (line : List Char) : Option (List Char) :=
  if echoCommand.isPrefixOf line then some ((line.drop 5).rdropWhile (· = '\r')) else none

/-- The payloads of the lines of a text. -/
def payloads (text : List Char) : List (List Char) := (text.splitOn '\n').filterMap echoPayload

theorem echoPayload_echo {payload : List Char} (h : '\r' ∉ payload) :
    echoPayload (echoCommand ++ payload ++ ['\r']) = some payload := by
  have hprefix : echoCommand.isPrefixOf (echoCommand ++ payload ++ ['\r']) := by
    rw [List.isPrefixOf_iff_prefix, List.append_assoc]
    exact List.prefix_append _ _
  have hdrop : (echoCommand ++ payload ++ ['\r']).drop 5 = payload ++ ['\r'] := by
    rw [List.append_assoc]
    rfl
  have hpayload : payload.rdropWhile (· = '\r') = payload := by
    refine List.rdropWhile_eq_self_iff.mpr fun hne hlast => ?_
    exact h (of_decide_eq_true hlast ▸ List.getLast_mem hne)
  rw [echoPayload, if_pos hprefix, hdrop, List.rdropWhile_concat, if_pos (decide_eq_true rfl),
    hpayload]

/-- The payloads of lines are found again. -/
theorem payloads_flatMap_echoLine {slices : List (List Char)}
    (h : ∀ payload ∈ slices, '\r' ∉ payload ∧ '\n' ∉ payload) :
    payloads (slices.flatMap echoLine) = slices := by
  have hlines : slices.flatMap echoLine =
      (slices.map fun payload => echoCommand ++ payload ++ ['\r']).flatMap (· ++ ['\n']) ++
        [] := by
    rw [List.append_nil, List.flatMap_map]
    exact List.flatMap_congr fun payload _ => (List.append_assoc _ ['\r'] ['\n']).symm
  have hnewline : ∀ line ∈ slices.map fun payload => echoCommand ++ payload ++ ['\r'],
      '\n' ∉ line := by
    intro line hline
    obtain ⟨payload, hpayload, rfl⟩ := List.mem_map.mp hline
    have hecho : '\n' ∉ echoCommand := by decide
    rw [List.mem_append, List.mem_append, List.mem_singleton]
    rintro ((hmem | hmem) | hmem)
    · exact hecho hmem
    · exact (h payload hpayload).2 hmem
    · cases hmem
  rw [payloads, hlines, Pieces.splitOn_flatMap_append hnewline, List.filterMap_append,
    List.filterMap_map]
  have hpayloads : slices.filterMap (echoPayload ∘ fun payload =>
      echoCommand ++ payload ++ ['\r']) = slices.filterMap some :=
    List.filterMap_congr fun payload hpayload => echoPayload_echo (h payload hpayload).1
  rw [hpayloads, List.filterMap_some]
  exact List.append_nil slices

/-! ### The template -/

/-- The lines of `install.cmd.tmpl` before the placeholder. -/
def cmdLinesBefore : List String :=
  ["@echo off",
    "REM EdgeGuardian agent installer for Windows.",
    "REM",
    "REM Double-click this file to install. The script self-elevates via UAC and",
    "REM runs the embedded PowerShell installer as Administrator. No terminal or",
    "REM network round-trip required - the PowerShell payload is base64-embedded",
    "REM below and decoded at install time.",
    "",
    "setlocal enabledelayedexpansion",
    "",
    "REM Green-on-black console to match the installer's colour scheme.",
    "color 0A",
    "title EdgeGuardian Agent Installer",
    "",
    "net session >nul 2>&1",
    "if errorlevel 1 (",
    "    echo Requesting administrator privileges via UAC...",
    "    powershell -NoProfile -Command \"Start-Process -FilePath '%~f0' -Verb RunAs\"",
    "    exit /b",
    ")",
    "",
    "set \"EG_WORK=%TEMP%\\edgeguardian-installer-%RANDOM%%RANDOM%\"",
    "mkdir \"%EG_WORK%\" >nul 2>&1 || (",
    "    echo *** INSTALL FAILED *** Could not create working directory: %EG_WORK%",
    "    pause",
    "    exit /b 1",
    ")",
    "",
    ">\"%EG_WORK%\\payload.b64\" ("]

/-- The line of `install.cmd.tmpl` that decodes the payload. -/
def decodeLine : String :=
  "powershell -NoProfile -Command \"$b64 = (Get-Content -LiteralPath " ++
    "'%EG_WORK%\\payload.b64' -Raw) -replace '\\s',''; if (-not $b64) \x7b exit 2 " ++
    "\x7d; [IO.File]::WriteAllBytes('%EG_WORK%\\install.ps1', " ++
    "[Convert]::FromBase64String($b64))\""

/-- The lines of `install.cmd.tmpl` behind the placeholder. -/
def cmdLinesAfter : List String :=
  [")",
    "",
    decodeLine,
    "if errorlevel 1 (",
    "    echo *** INSTALL FAILED *** Could not decode installer payload.",
    "    rmdir /s /q \"%EG_WORK%\" >nul 2>&1",
    "    pause",
    "    exit /b 1",
    ")",
    "",
    "powershell -NoProfile -ExecutionPolicy Bypass -File \"%EG_WORK%\\install.ps1\"",
    "set \"EG_EXIT=%ERRORLEVEL%\"",
    "",
    "rmdir /s /q \"%EG_WORK%\" >nul 2>&1",
    "",
    "echo.",
    "pause",
    "endlocal",
    "exit /b %EG_EXIT%"]

/-- Lines, each with a line feed at its end. -/
def unlines (lines : List String) : List Char := lines.flatMap fun line => line.toList ++ ['\n']

/-- `installers/install.cmd.tmpl`. -/
def installCmdTmpl : String :=
  String.ofList (unlines cmdLinesBefore ++ placeholder "PS1_BASE64_LINES" ++
    '\n' :: unlines cmdLinesAfter)

/-- A line of the template opens no placeholder. -/
def PlainLine (line : String) : Prop := ¬ ['\x7b', '\x7b'] <:+: line.toList

theorem PlainLine.ofList {chars : List Char} (h : ¬ ['\x7b', '\x7b'] <:+: chars) :
    PlainLine (String.ofList chars) := by
  rwa [PlainLine, String.toList_ofList]

theorem plainLine_of_mem_cmdLinesBefore : ∀ line ∈ cmdLinesBefore, PlainLine line := by
  simp only [cmdLinesBefore, List.forall_mem_cons]
  repeat' apply And.intro
  all_goals first | exact .ofList (by decide +kernel) | exact List.forall_mem_nil _

theorem PlainLine.ofList_append {a b c d : List Char}
    (h : ¬ ['\x7b', '\x7b'] <:+: a ++ b ++ c ++ d) :
    PlainLine (String.ofList a ++ String.ofList b ++ String.ofList c ++ String.ofList d) := by
  simp only [PlainLine, String.toList_append, String.toList_ofList]
  exact h

theorem plainLine_decodeLine : PlainLine decodeLine := .ofList_append (by decide +kernel)

theorem plainLine_of_mem_cmdLinesAfter : ∀ line ∈ cmdLinesAfter, PlainLine line := by
  simp only [cmdLinesAfter, List.forall_mem_cons]
  refine ⟨.ofList (by decide +kernel), .ofList (by decide +kernel), plainLine_decodeLine, ?_⟩
  repeat' apply And.intro
  all_goals first | exact .ofList (by decide +kernel) | exact List.forall_mem_nil _

theorem newline_not_mem_placeholder : '\n' ∉ placeholder "PS1_BASE64_LINES" := by
  decide

/-- Plain lines stay as they are. -/
theorem replace_unlines_append {lines : List String} (h : ∀ line ∈ lines, PlainLine line)
    (replacement text : List Char) :
    replace (placeholder "PS1_BASE64_LINES") replacement (unlines lines ++ text) =
      unlines lines ++ replace (placeholder "PS1_BASE64_LINES") replacement text := by
  induction lines with
  | nil => rfl
  | cons line lines ih =>
    rw [List.forall_mem_cons] at h
    have hline : ¬ placeholder "PS1_BASE64_LINES" <:+: line.toList := fun hinfix =>
      h.1 (((List.prefix_append ['\x7b', '\x7b'] _).isInfix).trans hinfix)
    rw [unlines, List.flatMap_cons, List.append_assoc, List.append_assoc, List.singleton_append,
      ← unlines, replace_append_cons newline_not_mem_placeholder (List.cons_ne_nil _ _),
      replace_of_not_isInfix hline, ih h.2, List.append_assoc, List.append_assoc]
    rfl

theorem replace_installCmdTmpl (replacement : List Char) :
    replace (placeholder "PS1_BASE64_LINES") replacement installCmdTmpl.toList =
      unlines cmdLinesBefore ++ replacement ++ '\n' :: unlines cmdLinesAfter := by
  have hne : placeholder "PS1_BASE64_LINES" ≠ [] := List.cons_ne_nil _ _
  have hafter : replace (placeholder "PS1_BASE64_LINES") replacement (unlines cmdLinesAfter) =
      unlines cmdLinesAfter := by
    have happend := replace_unlines_append plainLine_of_mem_cmdLinesAfter replacement []
    have hnil : replace (placeholder "PS1_BASE64_LINES") replacement [] = [] := replaceFrom_nil
    rwa [hnil, List.append_nil] at happend
  rw [installCmdTmpl, String.toList_ofList, List.append_assoc,
    replace_unlines_append plainLine_of_mem_cmdLinesBefore,
    replace_append_cons newline_not_mem_placeholder hne, replace_self hne, hafter,
    List.append_assoc]

/-! ### The group of lines -/

/-- A block of lines carries a script, and does not end the group in which it stands. -/
structure CarriesPayload (ps1 : String) (block : List Char) : Prop where
  lines : block = (payloads block).flatMap echoLine
  encoding : (payloads block).flatten = encodeBase64 (getBytes ps1)
  decoded : (decodeBase64 (payloads block).flatten).bind
    (fun bytes => String.fromUTF8? bytes.toByteArray) = some ps1
  bounded : ∀ payload ∈ payloads block, payload ≠ [] ∧ payload.length ≤ cmdChunkSize
  open_group : ')' ∉ block

theorem carriesPayload_echoLoop (ps1 : String) :
    CarriesPayload ps1 (echoLoop (encodeBase64 (getBytes ps1)) 0) := by
  set b64 := encodeBase64 (getBytes ps1) with hb64
  have hblock : echoLoop b64 0 = (Pieces.slices cmdChunkSize b64).flatMap echoLine := by
    rw [echoLoop_eq_flatMap_slices, List.drop_zero]
  have hflatten := Pieces.flatten_slices cmdChunkSize_pos b64
  have hchars : ∀ payload ∈ Pieces.slices cmdChunkSize b64, ∀ c ∈ ['\r', '\n', ')'],
      c ∉ payload := by
    intro payload hpayload c hc hmem
    have hflat := List.mem_flatten_of_mem hpayload hmem
    rw [hflatten] at hflat
    exact not_mem_encodeBase64 hc hflat
  have hpayloads : payloads (echoLoop b64 0) = Pieces.slices cmdChunkSize b64 := by
    rw [hblock]
    refine payloads_flatMap_echoLine fun payload hpayload => ?_
    exact ⟨hchars payload hpayload _ (by decide), hchars payload hpayload _ (by decide)⟩
  constructor
  case lines => rw [hpayloads, hblock]
  case encoding => rw [hpayloads, hflatten]
  case decoded =>
    rw [hpayloads, hflatten, hb64, decodeBase64_encodeBase64]
    exact fromUTF8?_getBytes ps1
  case bounded =>
    rw [hpayloads]
    exact fun payload hpayload => Pieces.mem_slices cmdChunkSize_pos hpayload
  case open_group =>
    rw [hblock]
    intro hmem
    obtain ⟨payload, hpayload, hline⟩ := List.mem_flatMap.mp hmem
    rw [echoLine, List.mem_append, List.mem_append] at hline
    obtain (hecho | hchar) | hend := hline
    · revert hecho
      decide
    · exact hchars payload hpayload ')' (by decide) hchar
    · revert hend
      decide

/-- **The group in the installer** is made of the lines of the loop, and carries its script. -/
theorem wrapAsSelfElevatingCmd_carriesPayload {ctx : ScriptContext}
    (hresource : ctx.resource InstallerFormat.cmd.templatePath = installCmdTmpl) (ps1 : String) :
    (wrapAsSelfElevatingCmd ctx ps1).toList =
        unlines cmdLinesBefore ++ echoLoop (encodeBase64 (getBytes ps1)) 0 ++
          '\n' :: unlines cmdLinesAfter ∧
      CarriesPayload ps1 (echoLoop (encodeBase64 (getBytes ps1)) 0) := by
  refine ⟨?_, carriesPayload_echoLoop ps1⟩
  have hentries : entrySet ["PS1_BASE64_LINES"]
      [("PS1_BASE64_LINES", String.ofList (echoLines (encodeBase64 (getBytes ps1))))] =
        [(placeholder "PS1_BASE64_LINES", echoLines (encodeBase64 (getBytes ps1)))] := by
    rw [entrySet_cons List.lookup_cons_self, String.toList_ofList]
    rfl
  rw [wrapAsSelfElevatingCmd, renderTemplate, String.toList_ofList, hentries, hresource, render,
    List.foldl_cons, List.foldl_nil, replace_installCmdTmpl, echoLoop_eq_echoLines]

namespace CmdInstaller

/-- The template, and nothing else that is used. -/
def ctx : ScriptContext where
  props := ⟨"https://controller", "tcp://broker:1883", "ssl://broker:8883", "bootstrap", none⟩
  otaPublicKey := none
  resource path := if path = "installers/install.cmd.tmpl" then installCmdTmpl else ""
  toUriString _ := ""

theorem resource_templatePath : ctx.resource InstallerFormat.cmd.templatePath = installCmdTmpl := by
  have hpath : InstallerFormat.cmd.templatePath = "installers/install.cmd.tmpl" := rfl
  simp only [ctx]
  rw [if_pos hpath]

end CmdInstaller

theorem wrapAsSelfElevatingCmd_carriesPayload_writeHost :
    (wrapAsSelfElevatingCmd CmdInstaller.ctx "Write-Host 'Hello'\n").toList =
        unlines cmdLinesBefore ++ echoLoop (encodeBase64 (getBytes "Write-Host 'Hello'\n")) 0 ++
          '\n' :: unlines cmdLinesAfter ∧
      CarriesPayload "Write-Host 'Hello'\n"
        (echoLoop (encodeBase64 (getBytes "Write-Host 'Hello'\n")) 0) :=
  wrapAsSelfElevatingCmd_carriesPayload CmdInstaller.resource_templatePath "Write-Host 'Hello'\n"

end EdgeGuardian.Controller
