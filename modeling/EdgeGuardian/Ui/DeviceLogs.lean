import EdgeGuardian.Controller.LogIngestion

/-!
# The logs that a page shows

The page of a device asks for the newest 200 lines of a range of time, and sends the level that is
chosen and the text that is searched for along. A level is searched for as a text too, and
*All Levels* is one of the levels for this: it is sent as the level `all`.

Source: `ui/app/(dashboard)/devices/[id]/logs/page.tsx`, `ui/app/(dashboard)/devices/[id]/page.tsx`,
`ui/lib/api/devices.ts` (`getDeviceLogs`).

## Main definitions

* `LogsPage`, `LogsPage.params`: what is chosen, and what is asked for.
* `LogsPage.shown`: the lines that are shown.
* `Sought`: the lines of entries that a device has sent and that are asked for.
* `NewestOf`: all of some lines, or the newest of them.

## Main results

* `newestOf_shown`: what a page shows of the logs of a device.
* `shown_of_level_iff`: what the choice of a level shows of the lines that are shown without it.
-/

namespace EdgeGuardian.Ui

open Controller GoString LogQl

/-! ### The page -/

/-- The choices of a level. -/
def levelChoices : List String := ["all", "ERROR", "WARN", "INFO", "DEBUG"]

/-- The state of the page; at first no level is chosen. -/
structure LogsPage where
  search : String
  level : String
  timeRange : String
  level_mem : level ∈ "" :: levelChoices

/-- The length of a range of time in milliseconds. -/
def rangeMillis : String → ℤ
  | "15m" => 15 * 60 * 1000
  | "6h" => 6 * 60 * 60 * 1000
  | "24h" => 24 * 60 * 60 * 1000
  | "7d" => 7 * 24 * 60 * 60 * 1000
  | _ => 60 * 60 * 1000

/-- `text || undefined`. -/
def orUndefined (text : String) : Option String := if text = "" then none else some text

namespace LogsPage

/-- No level is chosen. -/
def withoutLevel (p : LogsPage) : LogsPage := ⟨p.search, "", p.timeRange, List.mem_cons_self⟩

/-- The start of the range, in nanoseconds. -/
def start (p : LogsPage) (now : ℤ) : ℤ := (now - rangeMillis p.timeRange) * 1000000

/-- What the page asks for, where `now` is the clock of the browser. -/
def params (p : LogsPage) (now : ℤ) : LogParams where
  start := some (p.start now)
  stop := none
  limit := some 200
  level := orUndefined p.level
  search := orUndefined p.search

end LogsPage

/-- `logLines`, from the answer of the API. -/
def logLines : Except ServiceError (Option (List Stream)) → List (ℤ × List UInt8)
  | .ok (some streams) => streams.flatMap Stream.values
  | _ => []

/-- One look at the logs of a device: the user, the clocks and the store that answers. -/
structure Look where
  loki : Loki
  principal : TenantPrincipal
  db : Db
  /-- The clock of the browser, in milliseconds. -/
  now : ℤ
  /-- The clock of the controller, in nanoseconds. -/
  serverNow : ℤ
  deviceId : String

/-- The lines that the page shows. -/
def LogsPage.shown (p : LogsPage) (look : Look) : List (ℤ × List UInt8) :=
  logLines (getDeviceLogs look.loki look.serverNow look.serverNow look.deviceId
    (p.params look.now) look.principal look.db)

/-- The store answers what the page asks for. -/
def LogsPage.Answered (p : LogsPage) (look : Look) : Prop :=
  (look.loki (queryLogs look.deviceId (orUndefined p.level) (orUndefined p.search))
    (p.start look.now) look.serverNow 200).isSome

/-! ### What is shown -/

/-- The line is that of an entry which the device has sent. -/
def SentLine (ctx : LogContext) (messages : List LogMessage) (deviceId : String)
    (v : ℤ × List UInt8) (e : LogEntry) : Prop :=
  ∃ m ∈ messages, m.client.clientId = deviceId ∧ m.Carries ctx ⟨labelsOf deviceId, v.1, v.2⟩ e

/-- The line is one of the device, of the range of time, and with the texts that are asked for. -/
structure Sought (ctx : LogContext) (messages : List LogMessage) (p : LogsPage) (look : Look)
    (v : ℤ × List UInt8) : Prop where
  sent : ∃ e, SentLine ctx messages look.deviceId v e ∧
    HasTexts (orUndefined p.level) (orUndefined p.search) (logLine e)
  start_le : p.start look.now ≤ v.1
  lt_stop : v.1 < look.serverNow

/-- The lines are all that are wanted, or `limit` of them and the newest ones; none is there
twice. -/
structure NewestOf (limit : ℕ) (wanted : ℤ × List UInt8 → Prop) (lines : List (ℤ × List UInt8)) :
    Prop where
  nodup : lines.Nodup
  wanted_of_mem : ∀ v ∈ lines, wanted v
  newest : ∀ v, wanted v → v ∉ lines → lines.length = limit ∧ ∀ v' ∈ lines, v.1 ≤ v'.1

/-- Lines below the limit are all that are wanted. -/
theorem NewestOf.mem_iff {limit : ℕ} {wanted : ℤ × List UInt8 → Prop}
    {lines : List (ℤ × List UInt8)} (h : NewestOf limit wanted lines)
    (hlt : lines.length < limit) {v : ℤ × List UInt8} : v ∈ lines ↔ wanted v := by
  refine ⟨h.wanted_of_mem v, fun hv => ?_⟩
  by_contra hnot
  exact absurd (h.newest v hv hnot).1 hlt.ne

/-- All clients are devices, Loki answers from what they have sent, and the device is one of the
organization of the user. -/
structure LooksAt (re : Regexes) (ctx : LogContext) (messages : List LogMessage) (look : Look) :
    Prop where
  devices : ∀ m ∈ messages, m.client.IsDevice
  serves : Serves re (stored ctx messages) look.loki
  verbatim : Verbatim look.deviceId.toList
  owner : (findByIdForOrganization look.db look.deviceId look.principal.organizationId).isSome

/-- Nothing in the text that is searched for is read as an escape or ends a literal. -/
def LogsPage.PlainSearch (p : LogsPage) : Prop := '\\' ∉ p.search.toList ∧ '\n' ∉ p.search.toList

section Shown

variable {re : Regexes} {ctx : LogContext} {messages : List LogMessage} {p : LogsPage}
  {look : Look} {r : Record} {v : ℤ × List UInt8} {e : LogEntry}

/-- The levels that can be chosen end no literal. -/
theorem LogsPage.splices (hid : Verbatim look.deviceId.toList) (hsearch : p.PlainSearch) :
    Splices look.deviceId (orUndefined p.level) (orUndefined p.search) := by
  have hlevels : ∀ level ∈ "" :: levelChoices, Verbatim level.toList := by decide
  refine ⟨hid, fun l hl => ?_, fun s hs => ?_⟩
  · rw [orUndefined] at hl
    split_ifs at hl
    · cases hl
    · cases hl
      exact hlevels _ p.level_mem
  · rw [orUndefined] at hs
    split_ifs at hs
    · cases hs
    · cases hs
      exact hsearch

theorem line_of_carries {m : LogMessage} (h : m.Carries ctx r e) :
    r.labels = labelsOf m.client.clientId ∧ r.line = utf8 (logLine e).toList := by
  obtain ⟨entries, i, json, -, -, -, rfl⟩ := h.entry
  exact ⟨rfl, rfl⟩

/-- The lines of the store that the query accepts are the lines that are sought. -/
theorem mem_matching_iff (hdevices : ∀ m ∈ messages, m.client.IsDevice) :
    r ∈ matching re (deviceQuery look.deviceId (orUndefined p.level) (orUndefined p.search))
        (p.start look.now) look.serverNow (stored ctx messages) ↔
      r.labels = labelsOf look.deviceId ∧ Sought ctx messages p look (r.time, r.line) := by
  simp only [matching, List.mem_filter, decide_eq_true_iff]
  constructor
  · rintro ⟨hstored, hstart, hstop, haccepts⟩
    obtain ⟨m, hm, e, hcarries⟩ := (mem_stored_iff_of_device hdevices).mp hstored
    obtain ⟨hlabels, hline⟩ := line_of_carries hcarries
    obtain ⟨labels, time, line⟩ := r
    obtain rfl : labels = labelsOf m.client.clientId := hlabels
    obtain rfl : line = utf8 (logLine e).toList := hline
    obtain ⟨hid, htexts⟩ := accepts_deviceQuery_iff.mp haccepts
    exact ⟨congrArg labelsOf hid, ⟨e, ⟨m, hm, hid, hid ▸ hcarries⟩, htexts⟩, hstart, hstop⟩
  · rintro ⟨hlabels, ⟨e, ⟨m, hm, hid, hcarries⟩, htexts⟩, hstart, hstop⟩
    obtain ⟨labels, time, line⟩ := r
    obtain rfl : labels = labelsOf look.deviceId := hlabels
    obtain rfl : line = utf8 (logLine e).toList := (line_of_carries hcarries).2
    exact ⟨(mem_stored_iff_of_device hdevices).mpr ⟨m, hm, e, hcarries⟩, hstart, hstop,
      accepts_deviceQuery_iff.mpr ⟨rfl, htexts⟩⟩

/-- The lines that are shown are those of the streams of the answer. -/
theorem flatMap_values (streams : List Stream) : streams.flatMap Stream.values =
    (streams.flatMap Stream.records).map fun r => (r.time, r.line) := by
  rw [List.map_flatMap]
  refine List.flatMap_congr fun s _ => ?_
  simp [Stream.records, Function.comp_def]

theorem LogsPage.shown_of_answer {device : Device} {streams : List Stream}
    (hfind : findByIdForOrganization look.db look.deviceId look.principal.organizationId =
      some device)
    (hloki : look.loki (queryLogs look.deviceId (orUndefined p.level) (orUndefined p.search))
      (p.start look.now) look.serverNow 200 = some streams) :
    p.shown look = streams.flatMap Stream.values := by
  have hload : loadForTenant look.deviceId look.principal look.db = .ok device := by
    rw [loadForTenant, hfind]
  rw [LogsPage.shown, getDeviceLogs, hload]
  simp only [LogsPage.params, Option.getD_some, Option.getD_none, bind, Except.bind, pure,
    Except.pure, hloki, logLines]

theorem LooksAt.newestOf (h : LooksAt re ctx messages look)
    (hsplices : Splices look.deviceId (orUndefined p.level) (orUndefined p.search))
    (hanswered : p.Answered look) : NewestOf 200 (Sought ctx messages p look) (p.shown look) := by
  obtain ⟨device, hfind⟩ := Option.isSome_iff_exists.mp h.owner
  obtain ⟨streams, hloki⟩ := Option.isSome_iff_exists.mp hanswered
  have hanswers := h.serves _ _ _ _ _ _ hloki (parse_queryLogs_of_splices hsplices)
  have hmem : ∀ r ∈ streams.flatMap Stream.records, r.labels = labelsOf look.deviceId ∧
      Sought ctx messages p look (r.time, r.line) := fun r hr =>
    (mem_matching_iff h.devices).mp (hanswers.subperm.subset hr)
  rw [LogsPage.shown_of_answer hfind hloki, flatMap_values]
  refine ⟨?_, ?_, ?_⟩
  · refine List.Nodup.map_on ?_ (hanswers.nodup nodup_stored)
    rintro ⟨labels, time, line⟩ hr ⟨labels', time', line'⟩ hr' heq
    obtain ⟨rfl, rfl⟩ := Prod.mk.inj heq
    obtain rfl : labels = labels' := (hmem _ hr).1.trans (hmem _ hr').1.symm
    rfl
  · intro v hv
    obtain ⟨r, hr, rfl⟩ := List.mem_map.mp hv
    exact (hmem r hr).2
  · intro v hv hnot
    have hr : (⟨labelsOf look.deviceId, v.1, v.2⟩ : Record) ∈ matching re _ _ _ _ :=
      (mem_matching_iff h.devices).mpr ⟨rfl, hv⟩
    have hr' : (⟨labelsOf look.deviceId, v.1, v.2⟩ : Record) ∉ streams.flatMap Stream.records :=
      fun hmem => hnot (List.mem_map.mpr ⟨_, hmem, rfl⟩)
    refine ⟨by rw [List.length_map, hanswers.full hr hr'], ?_⟩
    intro v' hv'
    obtain ⟨r', hmem', rfl⟩ := List.mem_map.mp hv'
    exact hanswers.newest _ hr hr' r' hmem'

/-- **What a page shows of the logs of a device**: the lines of the entries that its own client has
sent, of the range of time and with the texts that are asked for, or the newest 200 of them. -/
theorem newestOf_shown (h : LooksAt re ctx messages look) (hsearch : p.PlainSearch)
    (hanswered : p.Answered look) : NewestOf 200 (Sought ctx messages p look) (p.shown look) :=
  h.newestOf (LogsPage.splices h.verbatim hsearch) hanswered

end Shown

namespace StartedDevice

def context : LogContext where
  numberText _ _ := ""
  epochMilli text := if text = "2026-01-01T00:00:00Z" then some 1767225600000 else none

/-- Regular expressions, which no query of a page has. -/
def regexes : Regexes := ⟨fun _ _ => false, fun _ _ => false⟩

/-- The device `d` has started. -/
def message : LogMessage where
  client := ⟨none, "d"⟩
  topic := BrokerAcl.deviceTopic "d" ["logs"]
  payload := some (.arr [.obj [("timestamp", .str "2026-01-01T00:00:00Z"), ("level", .str "INFO"),
    ("message", .str "started"), ("source", .str "agent")]])
  clock _ := 0
  taken _ := true

/-- A member of organization 1 looks a second later. -/
def look : Look where
  loki := lokiOf regexes (stored context [message])
  principal := ⟨1, 1⟩
  db := ForgedRequest.devices
  now := 1767225601000
  serverNow := 1767225601 * 1000000000
  deviceId := "d"

/-- *All Levels* is chosen. -/
def allLevels : LogsPage := ⟨"", "all", "1h", by decide⟩

def line : ℤ × List UInt8 :=
  (1767225600 * 1000000000, utf8 "level=INFO source=agent started".toList)

theorem looksAt : LooksAt regexes context [message] look where
  devices := by
    rintro m hm
    obtain rfl := List.mem_singleton.mp hm
    exact ⟨nofun, nofun, BrokerAcl.isLevel_of_not_mem (by decide) (by decide) (by decide)⟩
  serves := serves_lokiOf _ _
  verbatim := by decide
  owner := by decide +kernel

theorem answered (p : LogsPage) (hsearch : p.PlainSearch) : p.Answered look := by
  have hparse := parse_queryLogs_of_splices (LogsPage.splices looksAt.verbatim hsearch)
  show ((LogQl.parse _).map _).isSome
  rw [hparse]
  rfl

/-- The entry that the device has sent. -/
theorem entry_of_sent {v : ℤ × List UInt8} {e : LogEntry}
    (h : SentLine context [message] "d" v e) :
    e = ⟨"2026-01-01T00:00:00Z", "INFO", "started", "agent"⟩ := by
  obtain ⟨m, hm, -, hcarries⟩ := h
  obtain rfl := List.mem_singleton.mp hm
  obtain ⟨entries, i, json, hpayload, hjson, rfl, -⟩ := hcarries.entry
  cases hpayload
  obtain ⟨-, rfl⟩ := List.getElem?_eq_some_iff.mp hjson
  simp only [List.getElem_singleton]
  rfl

theorem newestOf_shown_started : NewestOf 200 (Sought context [message] allLevels look)
    (allLevels.shown look) :=
  newestOf_shown looksAt ⟨by decide, by decide⟩ (answered _ ⟨by decide, by decide⟩)

end StartedDevice

/-! ### Levels -/

section Levels

/-- A text that goes on with a blank does not begin with another one that has none up to its `=`. -/
theorem not_isPrefix_of_blank {word sought rest : List Char} (hword : '=' ∉ word)
    (hblank : ' ' ∉ word) : ¬ "level=".toList ++ sought <+: word ++ ' ' :: rest := by
  rintro ⟨tail, htail⟩
  -- the first character that is a blank or the sign is a blank on one side only
  have hdrop := congrArg (List.dropWhile fun c => c ≠ '=' && c ≠ ' ') htail
  have hleft : (("level=".toList ++ sought ++ tail).dropWhile fun c => c ≠ '=' && c ≠ ' ') =
      '=' :: (sought ++ tail) := rfl
  have hright : ((word ++ ' ' :: rest).dropWhile fun c => c ≠ '=' && c ≠ ' ') = ' ' :: rest := by
    rw [List.dropWhile_append_of_pos]
    · rfl
    · intro c hc
      simp only [Bool.and_eq_true, decide_eq_true_iff]
      exact ⟨fun h => hword (h ▸ hc), fun h => hblank (h ▸ hc)⟩
  rw [hleft, hright] at hdrop
  cases hdrop

/-- Where `level=` and a text occur in what goes on with a blank: behind that blank. -/
theorem isInfix_append_blank_iff {word sought rest : List Char} (hword : '=' ∉ word)
    (hblank : ' ' ∉ word) : "level=".toList ++ sought <:+: word ++ ' ' :: rest ↔
      "level=".toList ++ sought <:+: ' ' :: rest := by
  induction word with
  | nil => rfl
  | cons c word ih =>
    have hnot : ¬ "level=".toList ++ sought <+: c :: word ++ ' ' :: rest :=
      not_isPrefix_of_blank hword hblank
    simp only [List.mem_cons, not_or] at hword hblank
    rw [List.cons_append, List.infix_cons_iff, ih hword.2 hblank.2]
    exact or_iff_right hnot

/-- **Where a level is found in a line**: as the beginning of its own level, or in the source or the
message. -/
theorem isInfix_logLine_iff {level sought rest : List Char} (hword : '=' ∉ level)
    (hblank : ' ' ∉ level) (hsought : ' ' ∉ sought) :
    "level=".toList ++ sought <:+: "level=".toList ++ (level ++ ' ' :: rest) ↔
      sought <+: level ∨ "level=".toList ++ sought <:+: ' ' :: rest := by
  have hbegin : sought <+: level ++ ' ' :: rest ↔ sought <+: level := by
    constructor
    · rintro ⟨tail, htail⟩
      obtain ⟨more, rfl, -⟩ | ⟨more, rfl, hmore⟩ := List.append_eq_append_iff.mp htail
      · exact List.prefix_append _ _
      · cases more with
        | nil => simp
        | cons c more =>
          obtain ⟨rfl, -⟩ := List.cons.inj hmore
          exact absurd (List.mem_append_right _ List.mem_cons_self) hsought
    · exact fun h => h.trans (List.prefix_append _ _)
  have hliteral : "level=".toList = ['l', 'e', 'v', 'e', 'l', '='] := rfl
  rw [← isInfix_append_blank_iff hword hblank, ← hbegin, hliteral]
  simp [List.infix_cons_iff, List.cons_prefix_cons]

/-- The entry has a level that begins with the choice, or the text for the choice elsewhere. -/
def NamesLevel (choice : String) (e : LogEntry) : Prop :=
  choice.toList <+: e.level.toList ∨
    ("level=" ++ choice).toList <:+: (" source=" ++ e.source ++ " " ++ e.message).toList

/-- The level of the entry is a word. -/
def WordLevel (e : LogEntry) : Prop := '=' ∉ e.level.toList ∧ ' ' ∉ e.level.toList

variable {ctx : LogContext} {messages : List LogMessage} {p : LogsPage} {look : Look}
  {v : ℤ × List UInt8} {e : LogEntry} {search : Option String}

/-- The choices are words. -/
theorem blank_not_mem_choice : ∀ choice ∈ levelChoices, choice ≠ "" ∧ ' ' ∉ choice.toList := by
  decide

theorem hasTexts_level_iff {choice : String} (hchoice : choice ∈ levelChoices)
    (hword : WordLevel e) : HasTexts (some choice) search (logLine e) ↔
      HasTexts none search (logLine e) ∧ NamesLevel choice e := by
  obtain ⟨hne, hblank⟩ := blank_not_mem_choice choice hchoice
  have hline : (logLine e).toList = "level=".toList ++ (e.level.toList ++
      ' ' :: ("source=" ++ e.source ++ " " ++ e.message).toList) := by
    simp [logLine]
  have hrest : (" source=" ++ e.source ++ " " ++ e.message).toList =
      ' ' :: ("source=" ++ e.source ++ " " ++ e.message).toList := by
    simp
  have hfound : "level=".toList ++ choice.toList <:+: "level=".toList ++ (e.level.toList ++
      ' ' :: ("source=" ++ e.source ++ " " ++ e.message).toList) ↔ _ :=
    isInfix_logLine_iff hword.1 hword.2 hblank
  rw [NamesLevel, String.toList_append (s := "level="), hrest, ← hfound, ← hline,
    ← String.toList_append]
  simp [HasTexts, hne, and_comm]

theorem sought_level_iff (hlevel : p.level ≠ "")
    (hwords : ∀ v e, SentLine ctx messages look.deviceId v e → WordLevel e) :
    Sought ctx messages p look v ↔ Sought ctx messages p.withoutLevel look v ∧
      ∃ e, SentLine ctx messages look.deviceId v e ∧ NamesLevel p.level e := by
  have hchoice : p.level ∈ levelChoices := (List.mem_cons.mp p.level_mem).resolve_left hlevel
  have hsome : orUndefined p.level = some p.level := if_neg hlevel
  have hnone : orUndefined p.withoutLevel.level = none := rfl
  constructor
  · rintro ⟨⟨e, hsent, htexts⟩, hstart, hstop⟩
    rw [hsome, hasTexts_level_iff hchoice (hwords v e hsent)] at htexts
    exact ⟨⟨⟨e, hsent, htexts.1⟩, hstart, hstop⟩, e, hsent, htexts.2⟩
  · rintro ⟨⟨⟨e₀, ⟨m₀, -, -, hcarries₀⟩, htexts⟩, hstart, hstop⟩, e, hsent, hnames⟩
    -- both entries have the line
    have hline : logLine e₀ = logLine e := by
      obtain ⟨m, -, -, hcarries⟩ := hsent
      have hbytes := (line_of_carries hcarries₀).2.symm.trans (line_of_carries hcarries).2
      exact String.toList_inj.mp (utf8_injective hbytes)
    refine ⟨⟨e, hsent, ?_⟩, hstart, hstop⟩
    rw [hsome, hasTexts_level_iff hchoice (hwords v e hsent), ← hline]
    exact ⟨htexts, hnames⟩

variable {re : Regexes}

/-- **What the choice of a level shows** of the lines that are shown without it: those of entries
whose level begins with it, or with the text for it in the source or the message. -/
theorem shown_of_level_iff (h : LooksAt re ctx messages look) (hsearch : p.PlainSearch)
    (hanswered : p.Answered look) (hanswered' : p.withoutLevel.Answered look)
    (hlt : (p.shown look).length < 200) (hlt' : (p.withoutLevel.shown look).length < 200)
    (hlevel : p.level ≠ "")
    (hwords : ∀ v e, SentLine ctx messages look.deviceId v e → WordLevel e) :
    v ∈ p.shown look ↔ v ∈ p.withoutLevel.shown look ∧
      ∃ e, SentLine ctx messages look.deviceId v e ∧ NamesLevel p.level e := by
  have hnewest := h.newestOf (LogsPage.splices h.verbatim hsearch) hanswered
  have hnewest' := h.newestOf (p := p.withoutLevel) (LogsPage.splices h.verbatim hsearch) hanswered'
  rw [hnewest.mem_iff hlt, hnewest'.mem_iff hlt', sought_level_iff hlevel hwords]

end Levels

open StartedDevice in
/-- *All Levels* hides a line that is shown before it is chosen. -/
theorem not_shown_of_all_levels :
    line ∈ allLevels.withoutLevel.shown look ∧ line ∉ allLevels.shown look := by
  have hshown : allLevels.withoutLevel.shown look = [line] := by decide +kernel
  have hlt : (allLevels.shown look).length < 200 := by decide +kernel
  have hlt' : (allLevels.withoutLevel.shown look).length < 200 := by
    rw [hshown]
    decide
  have hsearch : allLevels.PlainSearch := ⟨by decide, by decide⟩
  have hwords : ∀ v e, SentLine context [message] look.deviceId v e → WordLevel e := by
    intro v e hsent
    rw [entry_of_sent hsent]
    exact ⟨by decide, by decide⟩
  have hiff := shown_of_level_iff (v := line) looksAt hsearch (answered _ hsearch)
    (answered _ hsearch) hlt hlt' (by decide) hwords
  refine ⟨hshown ▸ List.mem_singleton_self line, fun hline => ?_⟩
  obtain ⟨-, e, hsent, hnames⟩ := hiff.mp hline
  rw [entry_of_sent hsent, NamesLevel] at hnames
  revert hnames
  decide

end EdgeGuardian.Ui
