import EdgeGuardian.Controller.Listeners
import EdgeGuardian.Lib.JavaString
import Mathlib.Algebra.Ring.Nat

/-!
# Topics on the way from the agent to the controller

An agent builds the topics that it publishes to from the root of all topics, its id and a suffix,
one after the other with slashes between them. The controller splits a topic at its slashes and
takes the id of the device from the third place, and the id of a shell session from the last place
but one. Neither the root nor the id is kept from having a slash in it.

Source: `agent/internal/comms/mqtt_client.go` (`topic`), `agent/cmd/agent/shell_wiring.go`
(`PublishShellOutput`), `controller/src/main/java/com/edgeguardian/controller/mqtt/MqttTopics.java`,
`mqtt/ShellMqttBridge.java` (`sessionIdFromOutputTopic`), `service/ShellSessionService.java`
(`create`), `mqtt/EnrollmentListener.java` (`validate`).

## Main definitions

* `Topics.topic`, `Topics.outputTopic`: the topics of an agent.
* `Topics.levels`, `Topics.sessionIdFromOutputTopic`: how the controller reads a topic.
* `Topics.newSessionId`: the ids of the sessions.
* `Topics.RoundTrips`: every topic of a device gives its id, and every output topic the session.
* `Topics.ThirdLevel`: when the third level of every topic is the id of the device.

## Main results

* `Topics.roundTrips_iff`: the topics round-trip if and only if `ThirdLevel` holds.
-/

namespace EdgeGuardian.Topics

open Controller

/-! ### The agent -/

/-- `MQTTClient.topic`. -/
def topic (topicRoot deviceId suffix : String) : String :=
  topicRoot ++ "/device/" ++ deviceId ++ "/" ++ suffix

/-- The topic of `PublishShellOutput`. -/
def outputTopic (topicRoot deviceId sessionId : String) : String :=
  topic topicRoot deviceId ("shell/" ++ sessionId ++ "/out")

/-! ### The controller -/

/-- `topic.split("/")`. -/
def levels (topic : String) : Topic := (JavaString.split '/' topic.toList).map String.ofList

/-- `ShellMqttBridge.sessionIdFromOutputTopic`. -/
def sessionIdFromOutputTopic (parts : Topic) : Option String :=
  if 2 ≤ parts.length then parts[parts.length - 2]? else none

/-- The lowest hexadecimal digits of a number, `UUID.digits`. -/
def hexDigits (value : BitVec 64) (digits : ℕ) : List Char :=
  (List.range digits).reverse.map fun i => Nat.digitChar (value.toNat / 16 ^ i % 16)

/-- `UUID.toString`. -/
def uuidToString (mostSigBits leastSigBits : BitVec 64) : String :=
  String.ofList (hexDigits (mostSigBits >>> 32) 8 ++ '-' :: hexDigits (mostSigBits >>> 16) 4 ++
    '-' :: hexDigits mostSigBits 4 ++ '-' :: hexDigits (leastSigBits >>> 48) 4 ++
      '-' :: hexDigits leastSigBits 12)

/-- The id of a session that `ShellSessionService.create` makes: `UUID.randomUUID` sets the version
and the variant in sixteen random bytes. -/
def newSessionId (high low : BitVec 64) : String :=
  uuidToString (high &&& ~~~0xF000#64 ||| 0x4000#64)
    (low &&& 0x3FFFFFFFFFFFFFFF#64 ||| 0x8000000000000000#64)

/-! ### Round trips -/

/-- Whatever the suffix, a topic of the device gives its id, and whatever the session, the topic for
its output gives the session. -/
def RoundTrips (topicRoot deviceId : String) : Prop :=
  (∀ suffix, extractDeviceId (levels (topic topicRoot deviceId suffix)) = some deviceId) ∧
    ∀ high low, sessionIdFromOutputTopic
      (levels (outputTopic topicRoot deviceId (newSessionId high low))) =
        some (newSessionId high low)

/-- Neither the root nor the id has a slash in it; or the root has one, and the id is just what
comes in the third place of the root with `device` behind it. -/
def ThirdLevel (topicRoot deviceId : String) : Prop :=
  ('/' ∉ topicRoot.toList ∧ '/' ∉ deviceId.toList) ∨
    ('/' ∈ topicRoot.toList ∧
      (topicRoot.toList.splitOn '/' ++ ["device".toList])[2]? = some deviceId.toList)

variable {topicRoot deviceId suffix : String}

theorem toList_topic : (topic topicRoot deviceId suffix).toList =
    topicRoot.toList ++ '/' :: ("device".toList ++ '/' ::
      (deviceId.toList ++ '/' :: suffix.toList)) := by
  have happend : ∀ a b c d e : String, (a ++ b ++ c ++ d ++ e).toList =
      a.toList ++ (b.toList ++ (c.toList ++ (d.toList ++ e.toList))) := by
    intro a b c d e
    simp only [String.toList_append, List.append_assoc]
  exact happend topicRoot _ deviceId _ suffix

theorem splitOn_topic : (topic topicRoot deviceId suffix).toList.splitOn '/' =
    topicRoot.toList.splitOn '/' ++ "device".toList ::
      (deviceId.toList.splitOn '/' ++ suffix.toList.splitOn '/') := by
  have hdevice : '/' ∉ "device".toList := by decide
  rw [toList_topic, List.splitOn_append_cons_self,
    List.splitOn_append_cons_self_of_not_mem hdevice, List.splitOn_append_cons_self]

theorem slash_mem_topic : '/' ∈ (topic topicRoot deviceId suffix).toList := by
  rw [toList_topic]
  exact List.mem_append_right _ List.mem_cons_self

/-- What comes in the third place of a topic, before the empty levels at its end are dropped. -/
theorem thirdLevel_iff (suffix : String) : ThirdLevel topicRoot deviceId ↔
    ((topic topicRoot deviceId suffix).toList.splitOn '/')[2]? = some deviceId.toList := by
  rw [splitOn_topic, ThirdLevel]
  by_cases hroot : '/' ∈ topicRoot.toList
  · have hlen : 2 < (topicRoot.toList.splitOn '/' ++ ["device".toList]).length := by
      rw [List.length_append]
      exact Nat.succ_lt_succ (JavaString.one_lt_length_splitOn hroot)
    rw [List.append_cons (topicRoot.toList.splitOn '/') "device".toList (_ ++ _),
      List.getElem?_append_left hlen]
    simp only [hroot, not_true_eq_false, false_and, false_or, true_and]
  · have hpos : 0 < (deviceId.toList.splitOn '/').length :=
      List.length_pos_iff.mpr (List.splitOn_ne_nil _ _)
    simp only [hroot, not_false_eq_true, true_and, false_and, or_false]
    rw [List.splitOn_eq_singleton hroot, List.singleton_append, List.getElem?_cons_succ,
      List.getElem?_cons_succ, List.getElem?_append_left hpos,
      JavaString.splitOn_getElem?_zero_iff]

/-- The id of a device comes back from its topics if and only if it is their third level. -/
theorem extractDeviceId_topic_iff (hblank : isBlank deviceId = false) :
    extractDeviceId (levels (topic topicRoot deviceId suffix)) = some deviceId ↔
      ThirdLevel topicRoot deviceId := by
  have hne : deviceId.toList ≠ [] := by
    intro hnil
    rw [isBlank, hnil] at hblank
    cases hblank
  rw [thirdLevel_iff suffix, extractDeviceId, levels, List.getElem?_map,
    Option.map_eq_some_iff]
  constructor
  · rintro ⟨piece, hpiece, rfl⟩
    rw [String.toList_ofList]
    exact JavaString.getElem?_of_split slash_mem_topic hpiece
  · intro h
    exact ⟨deviceId.toList, JavaString.split_getElem? slash_mem_topic h hne, String.ofList_toList⟩

/-! ### Sessions -/

theorem slash_not_mem_hexDigits {value : BitVec 64} {digits : ℕ} :
    '/' ∉ hexDigits value digits := by
  have hdigit : ∀ n < 16, Nat.digitChar n ≠ '/' := by decide
  intro hmem
  obtain ⟨i, -, hi⟩ := List.mem_map.mp hmem
  exact hdigit _ (Nat.mod_lt _ (by decide)) hi

theorem slash_not_mem_newSessionId {high low : BitVec 64} :
    '/' ∉ (newSessionId high low).toList := by
  rw [newSessionId, uuidToString, String.toList_ofList]
  simp [slash_not_mem_hexDigits]

theorem sessionIdFromOutputTopic_append {parts : Topic} {sessionId last : String} :
    sessionIdFromOutputTopic (parts ++ [sessionId] ++ [last]) = some sessionId := by
  simp [sessionIdFromOutputTopic]

/-- The session comes back from the topic for its output, whatever the root and the id are. -/
theorem sessionIdFromOutputTopic_outputTopic {sessionId : String}
    (hsession : '/' ∉ sessionId.toList) :
    sessionIdFromOutputTopic (levels (outputTopic topicRoot deviceId sessionId)) =
      some sessionId := by
  have hshell : '/' ∉ "shell".toList := by decide
  have hout : '/' ∉ "out".toList := by decide
  have hsuffix : ("shell/" ++ sessionId ++ "/out").toList =
      "shell".toList ++ '/' :: (sessionId.toList ++ '/' :: "out".toList) := by
    rw [String.toList_append, String.toList_append, List.append_assoc]
    rfl
  rw [outputTopic]
  have hpieces : (topic topicRoot deviceId ("shell/" ++ sessionId ++ "/out")).toList.splitOn '/' =
      (topicRoot.toList.splitOn '/' ++ "device".toList :: deviceId.toList.splitOn '/' ++
        ["shell".toList] ++ [sessionId.toList]) ++ ["out".toList] := by
    rw [splitOn_topic, hsuffix, List.splitOn_append_cons_self_of_not_mem hshell,
      List.splitOn_append_cons_self_of_not_mem hsession, List.splitOn_eq_singleton hout]
    simp only [List.append_assoc, List.cons_append, List.nil_append]
  have hsplit := JavaString.split_eq_splitOn slash_mem_topic hpieces (by decide)
  rw [levels, hsplit, List.map_append, List.map_append, List.map_singleton, String.ofList_toList]
  exact sessionIdFromOutputTopic_append

/-- **Topics round-trip** if and only if the id of the device is the third level of its topics. -/
theorem roundTrips_iff (topicRoot deviceId : String) (hblank : isBlank deviceId = false) :
    RoundTrips topicRoot deviceId ↔ ThirdLevel topicRoot deviceId := by
  constructor
  · intro h
    exact (extractDeviceId_topic_iff hblank).mp (h.1 "")
  · intro h
    exact ⟨fun suffix => (extractDeviceId_topic_iff hblank).mpr h,
      fun high low => sessionIdFromOutputTopic_outputTopic slash_not_mem_newSessionId⟩

/-- The default root and an id without slashes. -/
theorem roundTrips_default :
    isBlank "rpi-001" = false ∧ RoundTrips "edgeguardian" "rpi-001" :=
  ⟨by decide, (roundTrips_iff "edgeguardian" "rpi-001" (by decide)).mpr
    (.inl ⟨by decide, by decide⟩)⟩

/-- The answers for an id with a slash in it go to another device, and with a slash in the root all
topics give the same id. -/
theorem not_roundTrips :
    isBlank "rpi/001" = false ∧ isBlank "rpi-001" = false ∧
      extractDeviceId (levels (topic "edgeguardian" "rpi/001" "enroll/request")) = some "rpi" ∧
      extractDeviceId (levels (topic "site/edgeguardian" "rpi-001" "enroll/request")) =
        some "device" ∧
      ¬ RoundTrips "edgeguardian" "rpi/001" ∧ ¬ RoundTrips "site/edgeguardian" "rpi-001" := by
  refine ⟨by decide, by decide, by decide +kernel, by decide +kernel, ?_, ?_⟩
  · intro h
    have hid := h.1 "enroll/request"
    revert hid
    decide +kernel
  · intro h
    have hid := h.1 "enroll/request"
    revert hid
    decide +kernel

end EdgeGuardian.Topics
