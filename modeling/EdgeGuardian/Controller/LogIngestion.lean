import EdgeGuardian.BrokerAcl
import EdgeGuardian.Controller.LogQueries
import EdgeGuardian.Controller.Reads
import EdgeGuardian.Lib.LogStore

/-!
# The logs of devices in the store

A device sends its log entries in batches. The controller makes a line of text of each entry and
pushes the lines of a batch to Loki, as a stream that is labelled with the id in the topic. A user
queries the lines of a device of their organization.

An entry is read with a default for each member that is missing. A time that cannot be parsed is
replaced by the clock, and the others are cut off at milliseconds. Loki may refuse any of the lines,
or not be reached; it is asked here with times as numbers.

Source: `mqtt/LogIngestionListener.java`, `service/LogService.java`, `api/DeviceController.java`
(`getDeviceLogs`) under `controller/src/main/java/com/edgeguardian/controller/`.

## Main definitions

* `readEntry`, `logLine`, `pushToLoki`, `onLogMessage`: from a message to lines.
* `LogMessage`, `stored`: the messages of a run, and what the store has after them.
* `Serves`: Loki answers queries from what it has.
* `getDeviceLogs`: the endpoint.

## Main results

* `mem_stored_iff_of_device`: the store has the lines that devices have sent on their own topics.
* `parse_queryLogs_of_splices`, `accepts_deviceQuery_iff`: what is asked for, and which lines that
  are.
-/

namespace EdgeGuardian.Controller

open GoString LogQl

/-! ### Lines -/

/-- What the reading of an entry takes from Jackson and from the Java library. -/
structure LogContext where
  /-- `JsonNode.asText` of a number. -/
  numberText : ℤ → ℕ → String
  /-- `Instant.parse(text).toEpochMilli()`, where neither of them throws. -/
  epochMilli : String → Option ℤ

/-- `entry.path(name).asText(defaultValue)`. -/
def asText (ctx : LogContext) (defaultValue : String) : Option Json → String
  | none | some .null => defaultValue
  | some (.str s) => s
  | some (.bool b) => if b then "true" else "false"
  | some (.num mantissa exponent) => ctx.numberText mantissa exponent
  | some (.arr _) | some (.obj _) => ""

/-- What `pushToLoki` reads of an entry. -/
structure LogEntry where
  timestamp : String
  level : String
  message : String
  source : String
deriving DecidableEq, Repr

def readEntry (ctx : LogContext) (entry : Json) : LogEntry where
  timestamp := asText ctx "" (entry.member "timestamp")
  level := asText ctx "INFO" (entry.member "level")
  message := asText ctx "" (entry.member "message")
  source := asText ctx "agent" (entry.member "source")

/-- The line of an entry. -/
def logLine (e : LogEntry) : String :=
  "level=" ++ e.level ++ " source=" ++ e.source ++ " " ++ e.message

/-- Milliseconds in nanoseconds, as a `long`. -/
def toNanos (millis : ℤ) : ℤ := (millis * 1000000).bmod (2 ^ 64)

/-- The time of an entry, where `now` is the clock. -/
def timeOf (ctx : LogContext) (now : ℤ) (e : LogEntry) : ℤ :=
  toNanos ((ctx.epochMilli e.timestamp).getD now)

/-- The labels of the stream of a device. -/
def labelsOf (deviceId : String) : Labels :=
  [("job".toList, utf8 "edgeguardian".toList), ("device_id".toList, utf8 deviceId.toList)]

/-- The line of an entry of a device. -/
def recordOf (ctx : LogContext) (deviceId : String) (now : ℤ) (e : LogEntry) : Record :=
  ⟨labelsOf deviceId, timeOf ctx now e, utf8 (logLine e).toList⟩

/-- The values that `LogService.pushToLoki` sends; the clock is read for each entry. -/
def pushToLoki (ctx : LogContext) (clock : ℕ → ℤ) (deviceId : String) (entries : List Json) :
    List Record :=
  entries.mapIdx fun i entry => recordOf ctx deviceId (clock i) (readEntry ctx entry)

/-- `LogIngestionListener.onLogMessage`; a payload may be no JSON. -/
def onLogMessage (ctx : LogContext) (clock : ℕ → ℤ) (topic : Topic) (payload : Option Json) :
    List Record :=
  match extractDeviceId topic with
  | none => []
  | some deviceId =>
    if deviceId = "" then []
    else
      match payload with
      | some (.arr entries) => pushToLoki ctx clock deviceId entries
      | _ => []

/-! ### Runs -/

open TopicFilter BrokerAcl in
/-- A message that a client sends, and what happens to it. -/
structure LogMessage where
  client : Client
  topic : Topic
  payload : Option Json
  clock : ℕ → ℤ
  /-- Loki takes the line. -/
  taken : Record → Bool

open TopicFilter BrokerAcl in
/-- The lines of a message that come into the store: the broker lets it through, and the listener
has subscribed to its topic. -/
def LogMessage.records (ctx : LogContext) (m : LogMessage) : List Record :=
  if AccessRule.permits acl m.client .publish (ofTopic m.topic) ∧
      accepts (Listener.logIngestion.filter "edgeguardian") (ofTopic m.topic) then
    (onLogMessage ctx m.clock m.topic m.payload).filter m.taken
  else []

/-- What the store has after some messages. -/
def stored (ctx : LogContext) (messages : List LogMessage) : List Record :=
  messages.foldl (fun records m => store records (m.records ctx)) []

section Stored

variable {ctx : LogContext} {messages : List LogMessage} {m : LogMessage} {r : Record}

theorem mem_stored_iff : r ∈ stored ctx messages ↔ ∃ m ∈ messages, r ∈ m.records ctx := by
  induction messages using List.reverseRecOn with
  | nil => simp [stored]
  | append_singleton messages m ih =>
    have hstep : stored ctx (messages ++ [m]) = store (stored ctx messages) (m.records ctx) := by
      simp [stored, List.foldl_append]
    simp [hstep, mem_store_iff, ih, or_and_right, exists_or]

theorem nodup_stored : (stored ctx messages).Nodup := by
  induction messages using List.reverseRecOn with
  | nil => exact List.nodup_nil
  | append_singleton messages m ih =>
    have hstep : stored ctx (messages ++ [m]) = store (stored ctx messages) (m.records ctx) := by
      simp [stored, List.foldl_append]
    rw [hstep]
    exact nodup_store ih

/-- The line is that of an entry in a message that a client has sent on the topic of its own
device. -/
structure LogMessage.Carries (ctx : LogContext) (m : LogMessage) (r : Record) (e : LogEntry) :
    Prop where
  topic : m.topic = BrokerAcl.deviceTopic m.client.clientId ["logs"]
  ne_empty : m.client.clientId ≠ ""
  entry : ∃ entries i json, m.payload = some (.arr entries) ∧ entries[i]? = some json ∧
    e = readEntry ctx json ∧ r = recordOf ctx m.client.clientId (m.clock i) e
  taken : m.taken r

theorem mem_onLogMessage_iff {clock : ℕ → ℤ} {topic : Topic} {deviceId : String}
    {payload : Option Json} (htopic : extractDeviceId topic = some deviceId) :
    r ∈ onLogMessage ctx clock topic payload ↔
      deviceId ≠ "" ∧ ∃ entries i json, payload = some (.arr entries) ∧ entries[i]? = some json ∧
        r = recordOf ctx deviceId (clock i) (readEntry ctx json) := by
  rw [onLogMessage, htopic]
  dsimp only
  by_cases hne : deviceId = ""
  · simp [hne]
  rw [if_neg hne, and_iff_right hne]
  rcases payload with _ | json
  · simp
  cases json with
  | arr entries =>
    simp only [pushToLoki, List.mem_mapIdx, Option.some.injEq, Json.arr.injEq]
    constructor
    · rintro ⟨i, hi, rfl⟩
      exact ⟨entries, i, entries[i], rfl, List.getElem?_eq_getElem hi, rfl⟩
    · rintro ⟨_, i, json, rfl, hjson, rfl⟩
      obtain ⟨hi, rfl⟩ := List.getElem?_eq_some_iff.mp hjson
      exact ⟨i, hi, rfl⟩
  | _ => simp

/-- The lines of a message of the client of a device. -/
theorem mem_records_iff_of_device (hc : m.client.IsDevice) :
    r ∈ m.records ctx ↔ ∃ e, m.Carries ctx r e := by
  have haccepts : ∀ u : BrokerAcl.Upstream, TopicFilter.accepts
      (BrokerAcl.Listener.logIngestion.filter "edgeguardian")
      (TopicFilter.ofTopic (BrokerAcl.deviceTopic m.client.clientId u.suffix)) ↔
        u.listener = .logIngestion := fun _ => BrokerAcl.Listener.accepts_iff
  rw [LogMessage.records]
  constructor
  · intro h
    split_ifs at h with hdelivered
    · obtain ⟨u, hu⟩ := (BrokerAcl.permits_publish_iff_of_device hc).mp hdelivered.1
      have hlogs : u = .logs := by
        have hlistener := hdelivered.2
        rw [hu, haccepts] at hlistener
        cases u <;> first | rfl | cases hlistener
      subst hlogs
      obtain ⟨hmem, htaken⟩ := List.mem_filter.mp h
      have hid : extractDeviceId m.topic = some m.client.clientId := by
        rw [hu]
        rfl
      rw [mem_onLogMessage_iff hid] at hmem
      obtain ⟨hne, entries, i, json, hpayload, hjson, rfl⟩ := hmem
      exact ⟨readEntry ctx json, hu, hne, ⟨entries, i, json, hpayload, hjson, rfl, rfl⟩, htaken⟩
    · cases h
  · rintro ⟨e, htopic, hne, ⟨entries, i, json, hpayload, hjson, rfl, rfl⟩, htaken⟩
    have hpermits : AccessRule.permits BrokerAcl.acl m.client .publish
        (TopicFilter.ofTopic m.topic) :=
      (BrokerAcl.permits_publish_iff_of_device hc).mpr ⟨.logs, htopic⟩
    have hlistener : TopicFilter.accepts (BrokerAcl.Listener.logIngestion.filter "edgeguardian")
        (TopicFilter.ofTopic m.topic) := by
      rw [htopic]
      exact (haccepts .logs).mpr rfl
    have hid : extractDeviceId m.topic = some m.client.clientId := by
      rw [htopic]
      rfl
    rw [if_pos ⟨hpermits, hlistener⟩, List.mem_filter, mem_onLogMessage_iff hid]
    exact ⟨⟨hne, entries, i, json, hpayload, hjson, rfl⟩, htaken⟩

theorem value_device_labelsOf (deviceId : String) :
    (labelsOf deviceId).value "device_id".toList = utf8 deviceId.toList := rfl

/-- **The store** has the lines that clients of devices have sent on the topics of their own
devices, where all clients are devices. -/
theorem mem_stored_iff_of_device (hdevices : ∀ m ∈ messages, m.client.IsDevice) :
    r ∈ stored ctx messages ↔ ∃ m ∈ messages, ∃ e, m.Carries ctx r e := by
  rw [mem_stored_iff]
  refine exists_congr fun m => and_congr_right fun hm => ?_
  exact mem_records_iff_of_device (hdevices m hm)

end Stored

/-! ### Queries -/

section Queries

variable {deviceId d : String} {level search : Option String}

/-- The text of a query is read as the query that is meant, if nothing in the texts in it ends a
literal or is read as an escape. -/
theorem parse_queryLogs_of_splices (h : Splices deviceId level search) :
    LogQl.parse (queryLogs deviceId level search) = some (deviceQuery deviceId level search) := by
  obtain ⟨hid, hlevel, hsearch⟩ := h
  have htail : RunsToBlank ((levelFilter level).toList ++ (searchFilter search).toList) :=
    (runsToBlank_searchFilter search).levelFilter level
  have hfilters := (lex_levelFilter_iff (runsToBlank_searchFilter search)).mpr
    ⟨hlevel, lex_searchFilter_iff.mpr hsearch⟩
  have hliteral := (lex_literal_iff htail.brace).mpr
    ⟨hid, lex_closeBrace.trans (congrArg (Option.map _) hfilters)⟩
  rw [parse_eq_some_iff (List.cons_ne_nil _ _), toList_queryLogs, lex_selector, hliteral,
    Option.map_some, Query.tokens, deviceQuery, List.flatMap_append]
  rfl

/-- The line has the texts that are searched for. -/
def HasTexts (level search : Option String) (line : String) : Prop :=
  (∀ l ∈ level, l = "" ∨ ("level=" ++ l).toList <:+: line.toList) ∧
    ∀ s ∈ search, s.toList <:+: line.toList

theorem accepts_contains {re : Regexes} {text : String} {cs : List Char} {line : String} :
    ((contains text cs).all fun f => f.accepts re (utf8 line.toList)) ↔
      text = "" ∨ cs <:+: line.toList := by
  rw [contains]
  split_ifs with hempty
  · simp [String.isEmpty_iff.mp hempty]
  · have hne : text ≠ "" := fun h => hempty (String.isEmpty_iff.mpr h)
    simp [hne, LineFilter.accepts_utf8]

/-- **What is asked for**: the lines of the device with the texts that are searched for. -/
theorem accepts_deviceQuery_iff {re : Regexes} {time : ℤ} {line : String} :
    (deviceQuery deviceId level search).accepts re ⟨labelsOf d, time, utf8 line.toList⟩ ↔
      d = deviceId ∧ HasTexts level search line := by
  have hmatchers : ((deviceQuery deviceId level search).matchers.all fun m =>
      m.accepts re (labelsOf d)) ↔ d = deviceId := by
    have hjob : (labelsOf d).value "job".toList = utf8 "edgeguardian".toList := rfl
    simp only [deviceQuery, List.all_cons, List.all_nil, Matcher.accepts, hjob,
      value_device_labelsOf, decide_true, Bool.true_and, Bool.and_true, decide_eq_true_iff,
      utf8_injective.eq_iff, String.toList_inj]
  have hlevel : ((level.elim [] fun level => contains level ("level=".toList ++ level.toList)).all
      fun f => f.accepts re (utf8 line.toList)) ↔
        ∀ l ∈ level, l = "" ∨ ("level=" ++ l).toList <:+: line.toList := by
    cases level with
    | none => simp
    | some l =>
      have htext : "level=".toList ++ l.toList = ("level=" ++ l).toList :=
        String.toList_append.symm
      simp only [Option.elim_some, accepts_contains, Option.mem_some_iff, forall_eq', htext]
  have hsearch : ((search.elim [] fun search => contains search search.toList).all
      fun f => f.accepts re (utf8 line.toList)) ↔ ∀ s ∈ search, s.toList <:+: line.toList := by
    cases search with
    | none => simp
    | some s =>
      simp only [Option.elim_some, accepts_contains, Option.mem_some_iff, forall_eq']
      constructor
      · rintro (rfl | h)
        exacts [List.nil_infix, h]
      · exact .inr
  rw [Query.accepts, Bool.and_eq_true, hmatchers, deviceQuery, List.all_append, Bool.and_eq_true,
    hlevel, hsearch, HasTexts]

end Queries

/-! ### The endpoint -/

/-- What Loki answers to a text, for a window of time and with a limit; `none` where it fails. -/
abbrev Loki := String → ℤ → ℤ → ℕ → Option (List Stream)

/-- Loki answers a query from what it has. -/
def Serves (re : Regexes) (records : List Record) (loki : Loki) : Prop :=
  ∀ text start stop limit streams q, loki text start stop limit = some streams →
    LogQl.parse text = some q → Answers re q start stop limit records streams

/-- A store that answers the queries it can read. -/
def lokiOf (re : Regexes) (records : List Record) : Loki := fun text start stop limit =>
  (LogQl.parse text).map fun q => answer re q start stop limit records

theorem serves_lokiOf (re : Regexes) (records : List Record) :
    Serves re records (lokiOf re records) := by
  intro text start stop limit streams q hstreams hparse
  rw [lokiOf, hparse, Option.map_some] at hstreams
  obtain rfl := Option.some.inj hstreams
  exact answers_answer

/-- The parameters of the endpoint, with times in nanoseconds. -/
structure LogParams where
  start : Option ℤ
  stop : Option ℤ
  limit : Option ℕ
  level : Option String
  search : Option String
deriving DecidableEq, Repr

/-- An hour in nanoseconds. -/
def hour : ℤ := 3600 * 1000000000

/-- `DeviceController.getDeviceLogs`, with the clock where a start and an end are filled in. -/
def getDeviceLogs (loki : Loki) (now now' : ℤ) (deviceId : String) (params : LogParams)
    (principal : TenantPrincipal) (db : Db) : Except ServiceError (Option (List Stream)) := do
  let _ ← loadForTenant deviceId principal db
  return loki (queryLogs deviceId params.level params.search) (params.start.getD (now - hour))
    (params.stop.getD now') (params.limit.getD 100)

end EdgeGuardian.Controller
