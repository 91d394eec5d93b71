import EdgeGuardian.Agent.Reconciler

/-!
# The file manager

The file manager brings the files of the manifest to their content, permissions and owner. It
compares the three first, and then repairs each one that differs. Content is repaired by a temporary
file that is renamed over the old one. The new file has the permissions and the owner of a temporary
file, and not those of the file that was compared: what was found to be right before the write is
not repaired after it.

All calls for a spec are about its one path, so that what is there, if anything, is a value of its
own: a regular file, under one name for each file, however many paths lead to it. How paths are
resolved, the users and groups and the command `chown` are parameters. The ownership check is that
of Linux, Android and macOS. It looks names up, where `chown` takes numbers too.

Source: `agent/plugins/filemanager/filemanager.go`, `owner_linux.go`.

## Main definitions

* `Mode`, `File`, `Platform`: files, and the system around them.
* `Platform.names`, `Platform.Means`: the owner that the check looks for, and the one that `chown`
  is told to set.
* `reconcileEntry`, `reconcile`: one spec, and a pass over all of them.
* `Repaired`, `Lasting`: what a spec asks for, and when the repair reaches it.
* `FileSpec.Attainable`: what the checks can find to be right.

## Main results

* `repaired_iff`: what one spec leaves is what it asks for if and only if the repair is lasting.
* `third_pass_iff`: two passes are enough if and only if every spec is attainable.
-/

namespace EdgeGuardian.Agent.FileManager

open Reconciler

/-! ### Files -/

/-- The owner of a file, `Uid` and `Gid` of `Stat_t`. -/
structure Owner where
  uid : ℕ
  gid : ℕ
deriving DecidableEq, Repr

/-- The permission bits of a file and its three special bits. -/
structure Mode where
  perm : ℕ
  setuid : Bool
  setgid : Bool
  sticky : Bool
  perm_le : perm ≤ 0o777
deriving DecidableEq

/-- The mode that `os.Chmod` sets for an `os.FileMode`, whose special bits are not where Unix has
them: `ModeSetuid`, `ModeSetgid` and `ModeSticky`. -/
def Mode.ofFileMode (m : ℕ) : Mode where
  perm := m &&& 0o777
  setuid := m.testBit 23
  setgid := m.testBit 22
  sticky := m.testBit 20
  perm_le := Nat.and_le_right

/-- A regular file. -/
structure File where
  content : List UInt8
  mode : Mode
  owner : Owner
deriving DecidableEq

/-- The files, each by one name of its own. -/
abbrev Files := String → Option File

/-- A file of the manifest: the name of the resource, and the fields of `spec.Fields`, which are
empty where they are missing or no strings. -/
structure FileSpec where
  resource : String
  path : String
  content : List UInt8
  mode : String
  owner : String
deriving DecidableEq, Repr

/-- The system around the files. -/
structure Platform where
  /-- The file that a path leads to. -/
  resolve : String → String
  umask : ℕ
  /-- The owner of a file that the agent creates beside the path. -/
  createdOwner : String → Owner
  lookupUser : String → Option ℕ
  lookupGroup : String → Option ℕ
  /-- The number that `chown` reads where no user or group has the name. -/
  number : String → Option ℕ
  /-- What `chown` makes of the owner of a file, `none` if it fails. -/
  chown : String → Owner → Option Owner
  /-- `unicode.IsPrint`. -/
  isPrint : Char → Bool

/-- `strings.SplitN` at the first colon, where there is one. -/
def splitOwner (owner : String) : Option (String × String) :=
  if ':' ∈ owner.toList then
    some (String.ofList (owner.toList.takeWhile (· ≠ ':')),
      String.ofList (owner.toList.dropWhile (· ≠ ':')).tail)
  else none

/-- `checkOwnerPlatform`, for the owner of the file. -/
def Platform.names (p : Platform) (owner : String) (o : Owner) : Bool :=
  match splitOwner owner with
  | none => false
  | some (user, group) => p.lookupUser user = some o.uid ∧ p.lookupGroup group = some o.gid

/-- The owner is the one of a text `user:group`, as `chown` reads it: names, or else numbers. An
empty part asks for nothing. -/
def Platform.Means (p : Platform) (owner : String) (o : Owner) : Prop :=
  match splitOwner owner with
  | none => False
  | some (user, group) => (user ≠ "" → (p.lookupUser user).or (p.number user) = some o.uid) ∧
      (group ≠ "" → (p.lookupGroup group).or (p.number group) = some o.gid)

/-- The permissions of the file that `os.CreateTemp` creates, those of 0600 that are not in the
umask. -/
def Platform.tempMode (p : Platform) : Mode :=
  Mode.ofFileMode (0o600 &&& (0o777 ^^^ (p.umask &&& 0o777)))

/-! ### Modes as text -/

/-- An octal digit. -/
def octalDigit (c : Char) : Option ℕ :=
  if '0' ≤ c ∧ c ≤ '7' then some (c.toNat - '0'.toNat) else none

/-- `ErrSyntax` and `ErrRange` of `strconv`. -/
inductive NumError
  | invalidSyntax
  | outOfRange
deriving DecidableEq, Repr

/-- The loop of `strconv.ParseUint` with base 8 and 32 bits, from a number on. -/
def parseDigits : ℕ → List Char → Except NumError ℕ
  | n, [] => .ok n
  | n, c :: cs =>
    match octalDigit c with
    | none => .error .invalidSyntax
    | some d => if 0xffffffff < 8 * n + d then .error .outOfRange else parseDigits (8 * n + d) cs

/-- `strconv.ParseUint` with base 8 and 32 bits. -/
def parseUint (s : String) : Except NumError ℕ :=
  if s = "" then .error .invalidSyntax else parseDigits 0 s.toList

/-- The last `width` hexadecimal digits of a number. -/
def hexDigits (width n : ℕ) : String :=
  String.ofList ((Nat.toDigits 16 n).leftpad width '0')

/-- A character of `strconv.Quote`. -/
def quoteChar (isPrint : Char → Bool) (c : Char) : String :=
  if c = '"' ∨ c = '\\' then String.ofList ['\\', c]
  else if isPrint c then String.ofList [c]
  else
    match c.toNat with
    | 7 => "\\a"
    | 8 => "\\b"
    | 9 => "\\t"
    | 10 => "\\n"
    | 11 => "\\v"
    | 12 => "\\f"
    | 13 => "\\r"
    | n =>
      if n < 0x20 ∨ n = 0x7f then "\\x" ++ hexDigits 2 n
      else if n < 0x10000 then "\\u" ++ hexDigits 4 n
      else "\\U" ++ hexDigits 8 n

/-- `strconv.Quote`. -/
def quote (isPrint : Char → Bool) (s : String) : String :=
  "\"" ++ String.join (s.toList.map (quoteChar isPrint)) ++ "\""

/-- The text of a `NumError` of `strconv.ParseUint`. -/
def NumError.text (isPrint : Char → Bool) (s : String) (e : NumError) : String :=
  "strconv.ParseUint: parsing " ++ quote isPrint s ++ ": " ++
    match e with
    | .invalidSyntax => "invalid syntax"
    | .outOfRange => "value out of range"

/-! ### The manager -/

/-- `FileManager.Name`. -/
def name : String := "file_manager"

/-- How the calls for a spec come out: the error of a call that fails, and whether the two calls of
`os.Stat` succeed. A missing file is no error here. -/
structure Calls where
  readFile : Option String
  statMode : Bool
  statOwner : Bool
  mkdirAll : Option String
  /-- The error of `atomicWrite`, which removes its temporary file then. -/
  atomicWrite : Option String
  chmod : Option String
deriving DecidableEq, Repr

/-- Every call succeeds. -/
def Calls.succeed : Calls where
  readFile := none
  statMode := true
  statOwner := true
  mkdirAll := none
  atomicWrite := none
  chmod := none

section Manager

variable (p : Platform) (calls : Calls) (spec : FileSpec)

/-- There is a file with the content. -/
def contentMatches (entry : Option File) : Bool := entry.map File.content = some spec.content

/-- `checkMode`. -/
def checkMode (entry : Option File) : Bool :=
  if spec.mode = "" then true
  else
    match entry.filter fun _ => calls.statMode, parseUint spec.mode with
    | some file, .ok mode => file.mode.perm = mode
    | _, _ => false

/-- `checkOwner`. -/
def checkOwner (entry : Option File) : Bool :=
  if spec.owner = "" then true
  else
    match entry.filter fun _ => calls.statOwner with
    | some file => p.names spec.owner file.owner
    | none => false

/-- The temporary file of `atomicWrite`, once it has the content. -/
def created : File := ⟨spec.content, p.tempMode, p.createdOwner spec.path⟩

/-- `atomicWrite`: the temporary file takes the place of the file. -/
def atomicWrite : Except String File :=
  match calls.atomicWrite with
  | some e => .error e
  | none => .ok (created p spec)

/-- The file with the content: the one that is there if it has it, and else a new one. -/
def writeContent : Option File → Except String File
  | some file => if file.content = spec.content then .ok file else atomicWrite p calls spec
  | none => atomicWrite p calls spec

/-- `setMode`. -/
def setMode (file : File) : Except String File :=
  match parseUint spec.mode, calls.chmod with
  | .error e, _ =>
    .error ("parse mode " ++ quote p.isPrint spec.mode ++ ": " ++ e.text p.isPrint spec.mode)
  | .ok _, some e => .error e
  | .ok mode, none => .ok { file with mode := Mode.ofFileMode mode }

/-- `setOwner`, for the owner of the file; `none` where it returns an error. -/
def setOwner (o : Owner) : Option Owner :=
  (splitOwner spec.owner).bind fun _ => p.chown spec.owner o

/-- An action of the manager. -/
def action (resource : String) (actionType : ActionType) (description error : String) : Action where
  plugin := name
  resource := resource
  actionType := actionType
  description := description
  error := error

/-- The description of an action, by what matched. -/
def describe (fileExists contentMatches modeMatches ownerMatches : Bool) : String :=
  if fileExists then
    "updated " ++ ", ".intercalate ((if contentMatches then [] else ["content"]) ++
      (if modeMatches then [] else ["mode"]) ++ if ownerMatches then [] else ["owner"])
  else "created file"

/-- `reconcileFile` once something has been found to differ. -/
def repair (entry : Option File) : Action × Option File :=
  let actionType := if entry.isSome then ActionType.update else .create
  match calls.mkdirAll with
  | some e => (action spec.path actionType "" ("create parent directory: " ++ e), entry)
  | none =>
    match writeContent p calls spec entry with
    | .error e => (action spec.path actionType "" ("atomic write: " ++ e), entry)
    | .ok file =>
      match if checkMode calls spec entry then .ok file else setMode p calls spec file with
      | .error e => (action spec.path actionType "" ("set mode: " ++ e), some file)
      | .ok file =>
        -- A failure to set the owner is logged, and the action reports success.
        let owner :=
          if checkOwner p calls spec entry then file.owner
          else (setOwner p spec file.owner).getD file.owner
        (action spec.path actionType
          (describe entry.isSome (contentMatches spec entry) (checkMode calls spec entry)
            (checkOwner p calls spec entry)) "",
          some { file with owner := owner })

/-- `reconcileFile` for what is at the path: the action, and what is there after it. -/
def reconcileEntry (entry : Option File) : Action × Option File :=
  if spec.path = "" then (action spec.resource .skipped "" "empty file path", entry)
  else
    match calls.readFile with
    | some e => (action spec.path .skipped "" ("read existing file: " ++ e), entry)
    | none =>
      if contentMatches spec entry && checkMode calls spec entry &&
          checkOwner p calls spec entry then
        (action spec.path .noop "file already matches desired state" "", entry)
      else repair p calls spec entry

end Manager

/-- The file of a spec. -/
def FileSpec.file (spec : FileSpec) (p : Platform) : String := p.resolve spec.path

/-- `reconcileFile`. -/
def reconcileFile (p : Platform) (calls : FileSpec → Calls) (spec : FileSpec) (files : Files) :
    Action × Files :=
  let r := reconcileEntry p (calls spec) spec (files (spec.file p))
  (r.1, Function.update files (spec.file p) r.2)

/-- `Reconcile`. -/
def reconcile (p : Platform) (calls : FileSpec → Calls) (ctx : Context) (specs : List FileSpec)
    (files : Files) : List Action × Files :=
  reconcileEach name FileSpec.resource (reconcileFile p calls) ctx specs files

/-- A repair is about the path of the file, and is not skipped. -/
theorem resource_repair (p : Platform) (calls : Calls) (spec : FileSpec) (entry : Option File) :
    (repair p calls spec entry).1.resource = spec.path ∧
      (repair p calls spec entry).1.actionType ≠ .skipped := by
  have htype : (if entry.isSome then ActionType.update else .create) ≠ .skipped := by
    split_ifs <;> decide
  rw [repair]
  dsimp only
  split
  · exact ⟨rfl, htype⟩
  · split
    · exact ⟨rfl, htype⟩
    · split
      · exact ⟨rfl, htype⟩
      · exact ⟨rfl, htype⟩

/-- The action of a file is about its path, and is skipped only with an error. -/
theorem accountsFor_reconcileFile (p : Platform) (calls : FileSpec → Calls) {spec : FileSpec}
    (hresource : spec.resource = spec.path) (files : Files) :
    (reconcileFile p calls spec files).1.AccountsFor spec.path := by
  rw [reconcileFile, reconcileEntry]
  by_cases hpath : spec.path = ""
  · rw [if_pos hpath]
    exact ⟨hresource, fun _ => by simp [Action.Ok, action]⟩
  · rw [if_neg hpath]
    rcases (calls spec).readFile with _ | e
    · dsimp only
      split_ifs
      · exact ⟨rfl, fun h => by cases h⟩
      · obtain ⟨hname, htype⟩ := resource_repair p (calls spec) spec (files (spec.file p))
        exact ⟨hname, fun h => absurd h htype⟩
    · exact ⟨rfl, fun _ => by simp [Action.Ok, action]⟩

/-! ### What one spec leaves -/

section Entry

variable (p : Platform) (spec : FileSpec) (entry : Option File)

/-- The file that the permissions and the owner are set on: the one that was there, if it had the
content, and else a new one. -/
def written : File :=
  match entry with
  | some file => if file.content = spec.content then file else created p spec
  | none => created p spec

/-- The file that is left where every call succeeds. -/
def left : File where
  content := spec.content
  mode :=
    if checkMode .succeed spec entry then (written p spec entry).mode
    else Mode.ofFileMode ((parseUint spec.mode).toOption.getD 0)
  owner :=
    if checkOwner p .succeed spec entry then (written p spec entry).owner
    else (setOwner p spec (written p spec entry).owner).getD (written p spec entry).owner

/-- Content, permissions and owner are found to be right. -/
def Matches : Prop :=
  contentMatches spec entry ∧ checkMode .succeed spec entry ∧ checkOwner p .succeed spec entry

instance : Decidable (Matches p spec entry) := inferInstanceAs (Decidable (_ ∧ _))

variable {p spec entry}

@[simp] theorem contentMatches_none : contentMatches spec none = false := rfl

@[simp] theorem contentMatches_some {file : File} :
    contentMatches spec (some file) = true ↔ file.content = spec.content := by
  simp [contentMatches]

theorem written_of_content {file : File} (h : file.content = spec.content) :
    written p spec (some file) = file := if_pos h

theorem written_of_ne {file : File} (h : file.content ≠ spec.content) :
    written p spec (some file) = created p spec := if_neg h

theorem content_written (entry : Option File) :
    (written p spec entry).content = spec.content := by
  rcases entry with _ | file
  · rfl
  · by_cases h : file.content = spec.content
    · rw [written_of_content h, h]
    · rw [written_of_ne h, created]

/-- Where everything matches, the file is left as it is. -/
theorem left_of_matches (h : Matches p spec entry) : some (left p spec entry) = entry := by
  obtain ⟨hcontent, hmode, howner⟩ := h
  rcases entry with _ | file
  · simp at hcontent
  · have hfile := contentMatches_some.mp hcontent
    simp only [left, hmode, howner, if_true, written_of_content hfile]
    rw [← hfile]

theorem writeContent_succeed (entry : Option File) :
    writeContent p .succeed spec entry = .ok (written p spec entry) := by
  rcases entry with _ | file
  · rfl
  · rw [writeContent, written]
    split_ifs <;> rfl

theorem setMode_succeed (p : Platform) (hmode : spec.mode = "" ∨ ∃ m, parseUint spec.mode = .ok m)
    (h : ¬ checkMode .succeed spec entry) (file : File) :
    setMode p .succeed spec file =
      .ok { file with mode := Mode.ofFileMode ((parseUint spec.mode).toOption.getD 0) } := by
  rcases hmode with hempty | ⟨mode, hparse⟩
  · simp [checkMode, hempty] at h
  · simp [setMode, hparse, Calls.succeed, Except.toOption]

/-- What a repair leaves where every call succeeds. -/
theorem repair_succeed (p : Platform) (entry : Option File)
    (hmode : spec.mode = "" ∨ ∃ m, parseUint spec.mode = .ok m) :
    (repair p .succeed spec entry).1.Ok ∧
      (repair p .succeed spec entry).2 = some (left p spec entry) ∧
      (repair p .succeed spec entry).1.actionType ≠ .noop := by
  have hmkdir : Calls.succeed.mkdirAll = none := rfl
  have hcontent : (written p spec entry).content = spec.content := content_written entry
  have htype : (if entry.isSome then ActionType.update else .create) ≠ .noop := by
    split_ifs <;> simp
  rw [repair, hmkdir]
  simp only [writeContent_succeed]
  by_cases hcheck : checkMode .succeed spec entry
  · simp only [hcheck, if_true]
    refine ⟨rfl, ?_, htype⟩
    simp [left, hcheck, ← hcontent]
  · simp only [hcheck, setMode_succeed p hmode hcheck]
    refine ⟨rfl, ?_, htype⟩
    simp [left, hcheck, ← hcontent]

/-- What a spec leaves where every call succeeds. -/
theorem reconcileEntry_succeed (p : Platform) (entry : Option File) (hpath : spec.path ≠ "")
    (hmode : spec.mode = "" ∨ ∃ m, parseUint spec.mode = .ok m) :
    (reconcileEntry p .succeed spec entry).1.Ok ∧
      (reconcileEntry p .succeed spec entry).2 = some (left p spec entry) ∧
      ((reconcileEntry p .succeed spec entry).1.actionType = .noop ↔ Matches p spec entry) := by
  have hread : Calls.succeed.readFile = none := rfl
  have hall : (contentMatches spec entry && checkMode .succeed spec entry &&
      checkOwner p .succeed spec entry) = true ↔ Matches p spec entry := by
    simp [Matches, and_assoc]
  rw [reconcileEntry, if_neg hpath, hread]
  dsimp only
  by_cases hmatches : Matches p spec entry
  · rw [if_pos (hall.mpr hmatches)]
    exact ⟨rfl, (left_of_matches hmatches).symm, by simp [action, hmatches]⟩
  · rw [if_neg (hmatches ∘ hall.mp)]
    obtain ⟨hok, hleft, hnoop⟩ := repair_succeed p entry hmode
    exact ⟨hok, hleft, iff_of_false hnoop hmatches⟩

end Entry

/-! ### What a spec asks for -/

section Asked

variable (p : Platform) (spec : FileSpec) (before : Option File)

/-- What a spec asks of the file at its path, where `before` was there. -/
structure Asked (file : File) : Prop where
  content : file.content = spec.content
  mode : spec.mode ≠ "" → parseUint spec.mode = .ok file.mode.perm
  keptMode : spec.mode = "" → ∀ old ∈ before, file.mode.perm = old.mode.perm
  owner : spec.owner ≠ "" → p.Means spec.owner file.owner
  keptOwner : spec.owner = "" → ∀ old ∈ before, file.owner = old.owner

/-- The repair reaches what is asked for: an owner is written as `user:group`, and where the content
is replaced, the permissions and the owner that were right before are those of the new file. -/
structure Lasting : Prop where
  format : spec.owner = "" ∨ (splitOwner spec.owner).isSome
  mode : ∀ old ∈ before, old.content ≠ spec.content → checkMode .succeed spec (some old) →
    p.tempMode.perm = old.mode.perm
  owner : ∀ old ∈ before, old.content ≠ spec.content → checkOwner p .succeed spec (some old) →
    if spec.owner = "" then p.createdOwner spec.path = old.owner
    else p.Means spec.owner (p.createdOwner spec.path)

/-- The command `chown` succeeds for the owner of the spec, and leaves an owner as said. -/
def FileSpec.ChownLeaves (said : Owner → Prop) : Prop :=
  (splitOwner spec.owner).isSome → ∀ o, ∃ o' ∈ p.chown spec.owner o, said o'

variable {p spec before}

theorem perm_ofFileMode {m : ℕ} (hm : m ≤ 0o777) : (Mode.ofFileMode m).perm = m := by
  have hmod : m &&& 2 ^ 9 - 1 = m % 2 ^ 9 := Nat.and_two_pow_sub_one_eq_mod m 9
  have hlt : m % 2 ^ 9 = m := Nat.mod_eq_of_lt (by omega)
  exact hmod.trans hlt

theorem checkMode_of_empty (h : spec.mode = "") (entry : Option File) :
    checkMode .succeed spec entry = true := if_pos h

theorem checkMode_none (h : spec.mode ≠ "") : checkMode .succeed spec none = false := by
  simp [checkMode, h]

theorem checkMode_some (h : spec.mode ≠ "") (file : File) :
    checkMode .succeed spec (some file) = true ↔ parseUint spec.mode = .ok file.mode.perm := by
  rw [checkMode, if_neg h, Option.filter_some_pos rfl]
  rcases parseUint spec.mode with _ | mode
  · simp
  · simp [eq_comm]

theorem checkOwner_of_empty (h : spec.owner = "") (entry : Option File) :
    checkOwner p .succeed spec entry = true := if_pos h

theorem checkOwner_none (h : spec.owner ≠ "") : checkOwner p .succeed spec none = false := by
  simp [checkOwner, h]

theorem checkOwner_some (h : spec.owner ≠ "") (file : File) :
    checkOwner p .succeed spec (some file) = p.names spec.owner file.owner := by
  rw [checkOwner, if_neg h, Option.filter_some_pos rfl]

/-- An owner that names one is written as `user:group`. -/
theorem isSome_splitOwner {owner : String} {o : Owner} (h : p.names owner o) :
    (splitOwner owner).isSome := by
  rw [Platform.names] at h
  split at h
  · exact absurd h (by simp)
  · simp [*]

/-- An owner that is meant is written as `user:group`. -/
theorem isSome_splitOwner_of_means {owner : String} {o : Owner} (h : p.Means owner o) :
    (splitOwner owner).isSome := by
  rw [Platform.Means] at h
  split at h
  · exact h.elim
  · simp [*]

/-- The names of a user and a group mean what they name. -/
theorem means_of_names {owner : String} {o : Owner} (h : p.names owner o) : p.Means owner o := by
  rw [Platform.names] at h
  rw [Platform.Means]
  split at h
  · exact absurd h (by simp)
  · obtain ⟨huser, hgroup⟩ := of_decide_eq_true h
    simp [huser, hgroup]

/-- A mode that was not right is set. -/
theorem mode_left_of_checkMode_ne {m : ℕ} (hm : m ≤ 0o777) (hparse : parseUint spec.mode = .ok m)
    (hcheck : ¬ checkMode .succeed spec before) :
    parseUint spec.mode = .ok (left p spec before).mode.perm := by
  have hmode : (left p spec before).mode = Mode.ofFileMode m := by
    rw [left, if_neg hcheck, hparse]
    rfl
  rw [hparse, hmode, perm_ofFileMode hm]

/-- An owner that was not right is set, if it is written as `user:group`. -/
theorem owner_left_of_checkOwner_ne {said : Owner → Prop} (hchown : spec.ChownLeaves p said)
    (hcheck : ¬ checkOwner p .succeed spec before) (hformat : (splitOwner spec.owner).isSome) :
    said (left p spec before).owner := by
  obtain ⟨parts, hsplit⟩ := Option.isSome_iff_exists.mp hformat
  obtain ⟨o, ho, hsaid⟩ := hchown hformat (written p spec before).owner
  rw [left]
  simp only [if_neg hcheck]
  rw [setOwner, hsplit, Option.bind_some, Option.mem_def.mp ho, Option.getD_some]
  exact hsaid

/-- The permissions that are left are as asked for iff those of a new file are the ones that were
found to be right. -/
theorem mode_left_iff (p : Platform) (before : Option File)
    (hmode : spec.mode = "" ∨ ∃ m ≤ 0o777, parseUint spec.mode = .ok m) :
    ((spec.mode ≠ "" → parseUint spec.mode = .ok (left p spec before).mode.perm) ∧
        (spec.mode = "" → ∀ old ∈ before, (left p spec before).mode.perm = old.mode.perm)) ↔
      ∀ old ∈ before, old.content ≠ spec.content → checkMode .succeed spec (some old) →
        p.tempMode.perm = old.mode.perm := by
  by_cases hcheck : checkMode .succeed spec before
  · have hleft : (left p spec before).mode = (written p spec before).mode := if_pos hcheck
    rw [hleft]
    rcases before with _ | old
    · have hempty : spec.mode = "" := by
        by_contra hne
        rw [checkMode_none hne] at hcheck
        exact absurd hcheck (by simp)
      simp [hempty]
    · have hright : ∀ n, ((spec.mode ≠ "" → parseUint spec.mode = .ok n) ∧
          (spec.mode = "" → n = old.mode.perm)) ↔ n = old.mode.perm := by
        intro n
        by_cases hempty : spec.mode = ""
        · simp [hempty]
        · have hparse := (checkMode_some hempty old).mp hcheck
          simp [hempty, hparse, eq_comm]
      simp only [Option.mem_some, forall_eq', hright]
      by_cases hcontent : old.content = spec.content
      · simp [written_of_content hcontent, hcontent]
      · simp [written_of_ne hcontent, hcontent, hcheck, created]
  · have hne : spec.mode ≠ "" := fun hempty => hcheck (checkMode_of_empty hempty before)
    obtain ⟨m, hm, hparse⟩ := hmode.resolve_left hne
    refine iff_of_true ⟨fun _ => mode_left_of_checkMode_ne hm hparse hcheck,
      fun hempty => absurd hempty hne⟩ ?_
    rintro old rfl - hold
    exact absurd hold hcheck

/-- The owner that is left is as asked for iff it is written as `user:group` and the owner of a new
file is the one that was found to be right. -/
theorem owner_left_iff (before : Option File)
    (hchown : spec.ChownLeaves p (p.Means spec.owner)) :
    ((spec.owner ≠ "" → p.Means spec.owner (left p spec before).owner) ∧
        (spec.owner = "" → ∀ old ∈ before, (left p spec before).owner = old.owner)) ↔
      (spec.owner = "" ∨ (splitOwner spec.owner).isSome) ∧
        ∀ old ∈ before, old.content ≠ spec.content → checkOwner p .succeed spec (some old) →
          if spec.owner = "" then p.createdOwner spec.path = old.owner
          else p.Means spec.owner (p.createdOwner spec.path) := by
  by_cases hcheck : checkOwner p .succeed spec before
  · have hleft : (left p spec before).owner = (written p spec before).owner := if_pos hcheck
    rw [hleft]
    rcases before with _ | old
    · have hempty : spec.owner = "" := by
        by_contra hne
        rw [checkOwner_none hne] at hcheck
        exact absurd hcheck (by simp)
      simp [hempty]
    · simp only [Option.mem_some, forall_eq']
      by_cases hempty : spec.owner = ""
      · by_cases hcontent : old.content = spec.content
        · simp [hempty, written_of_content hcontent, hcontent]
        · simp [hempty, written_of_ne hcontent, hcontent, hcheck, created]
      · have hnames : p.names spec.owner old.owner := by rwa [checkOwner_some hempty] at hcheck
        have hformat : (splitOwner spec.owner).isSome := isSome_splitOwner hnames
        by_cases hcontent : old.content = spec.content
        · simp [hempty, written_of_content hcontent, hcontent, means_of_names hnames, hformat]
        · simp [hempty, written_of_ne hcontent, hcontent, hcheck, hformat, created]
  · have hne : spec.owner ≠ "" := fun hempty => hcheck (checkOwner_of_empty hempty before)
    have hold : ∀ old ∈ before, ¬ checkOwner p .succeed spec (some old) := by
      rintro old rfl
      exact hcheck
    constructor
    · rintro ⟨hmeans, -⟩
      exact ⟨.inr (isSome_splitOwner_of_means (hmeans hne)),
        fun old hmem _ hright => absurd hright (hold old hmem)⟩
    · rintro ⟨hformat, -⟩
      exact ⟨fun _ => owner_left_of_checkOwner_ne hchown hcheck (hformat.resolve_left hne),
        fun hempty => absurd hempty hne⟩

/-- **One spec.** Where every call succeeds, and `chown` sets the owner that it is told to set, the
file that is left has the content, and the permissions and the owner that are given or else those
that it had, if and only if the repair is lasting. -/
theorem repaired_iff (hchown : spec.ChownLeaves p (p.Means spec.owner)) (hpath : spec.path ≠ "")
    (hmode : spec.mode = "" ∨ ∃ m ≤ 0o777, parseUint spec.mode = .ok m)
    (calls : FileSpec → Calls) (hcalls : calls spec = .succeed) (files : Files) :
    ((reconcileFile p calls spec files).1.Ok →
        ∃ file, (reconcileFile p calls spec files).2 (spec.file p) = some file ∧
          Asked p spec (files (spec.file p)) file) ↔
      Lasting p spec (files (spec.file p)) := by
  have hparses : spec.mode = "" ∨ ∃ m, parseUint spec.mode = .ok m :=
    hmode.imp_right fun ⟨m, _, hparse⟩ => ⟨m, hparse⟩
  obtain ⟨hok, hleft, -⟩ := reconcileEntry_succeed p (files (spec.file p)) hpath hparses
  rw [reconcileFile, hcalls]
  have hmodes := mode_left_iff p (files (spec.file p)) hmode
  have howners := owner_left_iff (files (spec.file p)) hchown
  simp only [hok, hleft, Function.update_self, forall_const, Option.some.injEq, exists_eq_left']
  constructor
  · intro h
    exact ⟨(howners.mp ⟨h.owner, h.keptOwner⟩).1, hmodes.mp ⟨h.mode, h.keptMode⟩,
      (howners.mp ⟨h.owner, h.keptOwner⟩).2⟩
  · intro h
    obtain ⟨hmode, hkeptMode⟩ := hmodes.mpr h.mode
    obtain ⟨howner, hkeptOwner⟩ := howners.mpr ⟨h.format, h.owner⟩
    exact ⟨rfl, hmode, hkeptMode, howner, hkeptOwner⟩

end Asked

namespace Example

/-- Two users with their groups, on a system with the usual umask; the agent runs as `root`. -/
def lookup (name : String) : Option ℕ :=
  if name = "root" then some 0 else if name = "app" then some 1000 else none

def platform : Platform where
  resolve path := if path = "/etc//app.conf" then "/etc/app.conf" else path
  umask := 0o022
  createdOwner _ := ⟨0, 0⟩
  lookupUser := lookup
  lookupGroup := lookup
  number := String.toNat?
  chown owner o := do
    let (user, group) ← splitOwner owner
    let uid ← if user = "" then some o.uid else (lookup user).or user.toNat?
    let gid ← if group = "" then some o.gid else (lookup group).or group.toNat?
    return ⟨uid, gid⟩
  isPrint c := c ≠ '\n'

/-- A file that everyone may read, with another content than the spec has. -/
def conf : FileSpec := ⟨"/etc/app.conf", "/etc/app.conf", [1], "0644", ""⟩

def files : Files := fun path =>
  if path = "/etc/app.conf" then some ⟨[0], Mode.ofFileMode 0o644, ⟨0, 0⟩⟩ else none

theorem chownLeaves_conf (said : Owner → Prop) : conf.ChownLeaves platform said := by
  intro h
  exact absurd h (by decide)

theorem parseUint_conf : parseUint conf.mode = .ok 0o644 := by decide +kernel

end Example

open Example in
/-- A file that is not there yet gets what its spec asks for. -/
theorem repaired_conf_of_absent :
    (conf.ChownLeaves platform (platform.Means conf.owner) ∧ conf.path ≠ "" ∧
        ∃ m ≤ 0o777, parseUint conf.mode = .ok m) ∧
      ((reconcileFile platform (fun _ => .succeed) conf fun _ => none).1.Ok →
        ∃ file, (reconcileFile platform (fun _ => .succeed) conf fun _ => none).2
          (conf.file platform) = some file ∧ Asked platform conf none file) := by
  have hmode : ∃ m ≤ 0o777, parseUint conf.mode = .ok m := ⟨0o644, by decide, parseUint_conf⟩
  have hlasting : Lasting platform conf none :=
    ⟨.inl rfl, fun _ h => absurd h (by simp), fun _ h => absurd h (by simp)⟩
  exact ⟨⟨chownLeaves_conf _, by decide, hmode⟩,
    (repaired_iff (chownLeaves_conf _) (by decide) (.inr hmode) (fun _ => .succeed) rfl
      fun _ => none).mpr hlasting⟩

open Example in
/-- The permissions of a file were right, and its content was not: it has those of a temporary file
after the write. -/
theorem not_repaired_conf :
    ¬ ∀ (p : Platform) (spec : FileSpec) (files : Files),
        spec.ChownLeaves p (p.Means spec.owner) → spec.path ≠ "" →
        (spec.mode = "" ∨ ∃ m ≤ 0o777, parseUint spec.mode = .ok m) →
        (reconcileFile p (fun _ => .succeed) spec files).1.Ok →
          ∃ file, (reconcileFile p (fun _ => .succeed) spec files).2 (spec.file p) = some file ∧
            Asked p spec (files (spec.file p)) file := by
  intro h
  obtain ⟨file, hfile, hasked⟩ := h platform conf files (chownLeaves_conf _) (by decide)
    (.inr ⟨0o644, by decide, parseUint_conf⟩) (by decide +kernel)
  have hleft : ((reconcileFile platform (fun _ => .succeed) conf files).2
      (conf.file platform)).map (fun file => file.mode.perm) = some 0o600 := by decide +kernel
  have hmode := hasked.mode (by decide)
  rw [hfile, Option.map_some] at hleft
  rw [parseUint_conf, Option.some.inj hleft] at hmode
  exact absurd hmode (by decide)

/-! ### Passes -/

/-- What the checks can find to be right, whatever is at the path. -/
structure FileSpec.Attainable (spec : FileSpec) : Prop where
  path : spec.path ≠ ""
  mode : spec.mode = "" ∨ ∃ m ≤ 0o777, parseUint spec.mode = .ok m
  owner : spec.owner = "" ∨ (splitOwner spec.owner).isSome

/-- A pass in which every call succeeds. -/
def pass (p : Platform) (ctx : Context) (specs : List FileSpec) (files : Files) :
    List Action × Files :=
  reconcile p (fun _ => .succeed) ctx specs files

/-- After two passes, a third one finds nothing to do and changes nothing. -/
def ConvergesInTwo (p : Platform) (ctx₁ ctx₂ ctx₃ : Context) (specs : List FileSpec)
    (files : Files) : Prop :=
  let second := (pass p ctx₂ specs (pass p ctx₁ specs files).2).2
  (∀ a ∈ (pass p ctx₃ specs second).1, a.actionType = .noop) ∧ (pass p ctx₃ specs second).2 = second

section Passes

variable {p : Platform} {spec : FileSpec} {entry : Option File}

/-- A spec whose file is found to be right is attainable. -/
theorem attainable_of_matches (hpath : spec.path ≠ "") (h : Matches p spec entry) :
    spec.Attainable := by
  obtain ⟨hcontent, hmode, howner⟩ := h
  rcases entry with _ | file
  · simp at hcontent
  · refine ⟨hpath, or_iff_not_imp_left.mpr fun hne => ?_, or_iff_not_imp_left.mpr fun hne => ?_⟩
    · exact ⟨file.mode.perm, file.mode.perm_le, (checkMode_some hne file).mp hmode⟩
    · rw [checkOwner_some hne] at howner
      exact isSome_splitOwner howner

/-- The content is right after one repair, and the rest after two. -/
theorem matches_left_left (hchown : spec.ChownLeaves p fun o => p.names spec.owner o)
    (h : spec.Attainable) (entry : Option File) :
    Matches p spec (some (left p spec (some (left p spec entry)))) := by
  have hwritten : written p spec (some (left p spec entry)) = left p spec entry :=
    written_of_content rfl
  refine ⟨contentMatches_some.mpr rfl, ?_, ?_⟩
  · by_cases hempty : spec.mode = ""
    · exact checkMode_of_empty hempty _
    · obtain ⟨m, hm, hparse⟩ := h.mode.resolve_left hempty
      rw [checkMode_some hempty]
      by_cases hcheck : checkMode .succeed spec (some (left p spec entry))
      · have hright := (checkMode_some hempty _).mp hcheck
        have hkept : (left p spec (some (left p spec entry))).mode = (left p spec entry).mode := by
          rw [left, if_pos hcheck, hwritten]
        rw [hkept, hright]
      · exact mode_left_of_checkMode_ne hm hparse hcheck
  · by_cases hempty : spec.owner = ""
    · exact checkOwner_of_empty hempty _
    · rw [checkOwner_some hempty]
      by_cases hcheck : checkOwner p .succeed spec (some (left p spec entry))
      · have hright := checkOwner_some (p := p) hempty (left p spec entry)
        have hkept :
            (left p spec (some (left p spec entry))).owner = (left p spec entry).owner := by
          rw [left]
          simp only [if_pos hcheck, hwritten]
        rw [hkept, ← hright, hcheck]
      · exact owner_left_of_checkOwner_ne hchown hcheck (h.owner.resolve_left hempty)

/-- What a spec does depends on its file, and changes nothing else. -/
theorem determined_reconcileFile (p : Platform) (calls : FileSpec → Calls) :
    KeyedPass.Determined (reconcileFile p calls) (fun spec => spec.file p) id
      fun spec => reconcileEntry p (calls spec) spec where
  isLocal _ _ _ hne := Function.update_of_ne hne _ _
  result _ _ := rfl
  left _ _ := Function.update_self _ _ _

variable {specs : List FileSpec}

/-- A pass takes each file as if it were alone. -/
theorem pass_fst {ctx : Context} (hctx : ctx.Outlasts specs)
    (hnodup : (specs.map fun spec => spec.file p).Nodup) (files : Files) :
    (pass p ctx specs files).1 =
      specs.map fun spec => (reconcileEntry p .succeed spec (files (spec.file p))).1 := by
  rw [pass, reconcile, reconcileEach_of_outlasts hctx]
  exact (determined_reconcileFile p _).run_fst hnodup files

theorem pass_snd {ctx : Context} (hctx : ctx.Outlasts specs)
    (hnodup : (specs.map fun spec => spec.file p).Nodup) (files : Files) (hspec : spec ∈ specs) :
    (pass p ctx specs files).2 (spec.file p) =
      (reconcileEntry p .succeed spec (files (spec.file p))).2 := by
  rw [pass, reconcile, reconcileEach_of_outlasts hctx]
  exact (determined_reconcileFile p _).view_run hnodup files hspec

theorem pass_snd_of_notMem {ctx : Context} (hctx : ctx.Outlasts specs) (files : Files)
    {file : String} (hfile : file ∉ specs.map fun spec => spec.file p) :
    (pass p ctx specs files).2 file = files file := by
  rw [pass, reconcile, reconcileEach_of_outlasts hctx]
  exact KeyedPass.view_run_of_notMem (determined_reconcileFile p _).isLocal hfile files

/-- An action is a `Noop` only for a spec with a path whose file is found to be right. -/
theorem attainable_of_noop (hmode : spec.mode = "" ∨ ∃ m, parseUint spec.mode = .ok m)
    (h : (reconcileEntry p .succeed spec entry).1.actionType = .noop) : spec.Attainable := by
  by_cases hpath : spec.path = ""
  · rw [reconcileEntry, if_pos hpath] at h
    exact absurd h (by simp [action])
  · exact attainable_of_matches hpath ((reconcileEntry_succeed p entry hpath hmode).2.2.mp h)

/-- **Convergence.** Where every call succeeds, `chown` leaves an owner that the check accepts, and
no context is cancelled, two passes over distinct files leave nothing to do if and only if every
spec is attainable: it has a path, its mode is within the nine permission bits, and its owner is
written as `user:group`. -/
theorem third_pass_iff (hnodup : (specs.map fun spec => spec.file p).Nodup)
    (hmodes : ∀ spec ∈ specs, spec.mode = "" ∨ ∃ m, parseUint spec.mode = .ok m)
    (hchown : ∀ spec ∈ specs, spec.ChownLeaves p fun o => p.names spec.owner o)
    {ctx₁ ctx₂ ctx₃ : Context} (h₁ : ctx₁.Outlasts specs) (h₂ : ctx₂.Outlasts specs)
    (h₃ : ctx₃.Outlasts specs) (files : Files) :
    ConvergesInTwo p ctx₁ ctx₂ ctx₃ specs files ↔ ∀ spec ∈ specs, spec.Attainable := by
  rw [ConvergesInTwo]
  set first := (pass p ctx₁ specs files).2 with hfirst
  set second := (pass p ctx₂ specs first).2 with hsecond
  constructor
  · rintro ⟨hnoop, -⟩ spec hspec
    rw [pass_fst h₃ hnodup] at hnoop
    exact attainable_of_noop (hmodes spec hspec) (hnoop _ (List.mem_map_of_mem hspec))
  · intro hattainable
    have hmatches : ∀ spec ∈ specs, Matches p spec (second (spec.file p)) := by
      intro spec hspec
      have hpath := (hattainable spec hspec).path
      have hleft₁ := (reconcileEntry_succeed p (files (spec.file p)) hpath (hmodes spec hspec)).2.1
      have hleft₂ := (reconcileEntry_succeed p (first (spec.file p)) hpath (hmodes spec hspec)).2.1
      rw [hsecond, pass_snd h₂ hnodup first hspec, hleft₂, hfirst,
        pass_snd h₁ hnodup files hspec, hleft₁]
      exact matches_left_left (hchown spec hspec) (hattainable spec hspec) _
    have hthird : ∀ spec ∈ specs,
        (reconcileEntry p .succeed spec (second (spec.file p))).1.actionType = .noop ∧
          (reconcileEntry p .succeed spec (second (spec.file p))).2 = second (spec.file p) := by
      intro spec hspec
      obtain ⟨-, hleft, hnoop⟩ := reconcileEntry_succeed p (second (spec.file p))
        (hattainable spec hspec).path (hmodes spec hspec)
      exact ⟨hnoop.mpr (hmatches spec hspec), hleft.trans (left_of_matches (hmatches spec hspec))⟩
    constructor
    · intro a ha
      rw [pass_fst h₃ hnodup] at ha
      obtain ⟨spec, hspec, rfl⟩ := List.mem_map.mp ha
      exact (hthird spec hspec).1
    · funext file
      by_cases hfile : file ∈ specs.map fun spec => spec.file p
      · obtain ⟨spec, hspec, rfl⟩ := List.mem_map.mp hfile
        rw [pass_snd h₃ hnodup second hspec]
        exact (hthird spec hspec).2
      · exact pass_snd_of_notMem h₃ second hfile

end Passes

open Example in
/-- The passes over one file whose mode is within the permission bits. -/
theorem third_pass_conf :
    (([conf].map fun spec => spec.file platform).Nodup ∧
        (∀ spec ∈ [conf], spec.mode = "" ∨ ∃ m, parseUint spec.mode = .ok m) ∧
        ∀ spec ∈ [conf], spec.ChownLeaves platform fun o => platform.names spec.owner o) ∧
      ConvergesInTwo platform none none none [conf] files := by
  have hnodup : ([conf].map fun spec => spec.file platform).Nodup := by decide
  have hmodes : ∀ spec ∈ [conf], spec.mode = "" ∨ ∃ m, parseUint spec.mode = .ok m := by
    simpa using .inr ⟨0o644, parseUint_conf⟩
  have hchown : ∀ spec ∈ [conf],
      spec.ChownLeaves platform fun o => platform.names spec.owner o := by
    simpa using chownLeaves_conf _
  have hattainable : ∀ spec ∈ [conf], spec.Attainable := by
    simpa using ⟨by decide, .inr ⟨0o644, by decide, parseUint_conf⟩, .inl rfl⟩
  have hctx : Context.Outlasts none [conf] := rfl
  exact ⟨⟨hnodup, hmodes, hchown⟩,
    (third_pass_iff hnodup hmodes hchown hctx hctx hctx files).mpr hattainable⟩

namespace Example

/-- A mode with the sticky bit where Unix has it. -/
def sticky : FileSpec := { conf with mode := "1777" }

theorem chownLeaves_sticky (said : Owner → Prop) : sticky.ChownLeaves platform said := by
  intro h
  exact absurd h (by decide)

theorem parseUint_sticky : parseUint sticky.mode = .ok 0o1777 := by decide +kernel

end Example

open Example in
/-- A mode beyond the permission bits is set in every pass. -/
theorem not_converges_sticky :
    ¬ ∀ (p : Platform) (specs : List FileSpec) (files : Files),
        (specs.map fun spec => spec.file p).Nodup →
        (∀ spec ∈ specs, spec.mode = "" ∨ ∃ m, parseUint spec.mode = .ok m) →
        (∀ spec ∈ specs, spec.ChownLeaves p fun o => p.names spec.owner o) →
          ConvergesInTwo p none none none specs files := by
  intro h
  obtain ⟨hnoop, -⟩ := h platform [sticky] files (by decide)
    (by simpa using .inr ⟨0o1777, parseUint_sticky⟩) (by simpa using chownLeaves_sticky _)
  have hupdate : ((pass platform none [sticky] (pass platform none [sticky]
      (pass platform none [sticky] files).2).2).1.map Action.actionType) = [.update] := by
    decide +kernel
  have hall : ∀ t ∈ [ActionType.update], t = .noop := by
    rw [← hupdate]
    simpa using hnoop
  exact absurd (hall .update List.mem_cons_self) (by decide)

end EdgeGuardian.Agent.FileManager
