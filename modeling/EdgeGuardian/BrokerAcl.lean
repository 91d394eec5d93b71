import EdgeGuardian.Controller.DeviceConfinement
import EdgeGuardian.Lib.TopicFilter
import EdgeGuardian.Lib.Transition
import EdgeGuardian.TopicAgreement

/-!
# The access rules of the broker

The rules of the broker know the user name and the client id of a client. The controller may do
anything below the root; whoever uses the name for enrollment may exchange the messages of an
enrollment for any device; and every client may send and receive the messages of the device whose id
is its client id. Messages of devices thus reach the controller only, on topics with their own id,
and devices are reached by the controller only. The rules do not see the certificate of a client.

Source: `deployments/helm/edgeguardian/templates/emqx.yaml` (`acl.conf`), the listeners of
`controller/src/main/java/com/edgeguardian/controller/mqtt/`, `mqtt/MqttSubscriptions.java`
(`subscribe`), `agent/internal/comms/mqtt_client.go`, `agent/cmd/agent/shell_wiring.go`.

## Main definitions

* `acl`: the rules.
* `Client.IsDevice`: a client that is a device to the rules.
* `Upstream`, `Downstream`: the messages from and to a device.
* `Listener`, `Listener.filter`: the subscriptions of the controller.

## Main results

* `flows_of_device_iff`: where the messages of a device go, and where those to it come from.
* `accepted_iff_of_device`: the listeners that they reach.
* `agent_permitted_iff`: an agent may do what it does if and only if its root is that of the rules
  and it enrolls under one of the two names.
* `recordsOf_of_reaches`: devices that act for themselves leave the records of all others alone.
-/

namespace EdgeGuardian.BrokerAcl

open Controller TopicFilter

/-! ### Topics in the rules -/

/-- `emqx_topic:words`. -/
def words (text : String) : List String := (text.toList.splitOn '/').map String.ofList

/-- A word of a filter. -/
def levelOf (word : String) : FilterLevel String :=
  if word = "+" then .single else if word = "#" then .multi else .level word

/-- The filter that a text is. -/
def filter (text : String) : TopicFilter String := (words text).map levelOf

/-- What the broker knows of a client. -/
structure Client where
  username : Option String
  clientId : String
deriving DecidableEq, Repr

inductive Operation
  | publish
  | subscribe
deriving DecidableEq, Repr

/-- The root of all topics in the rules. -/
def root : Topic := ["edgeguardian"]

/-- `edgeguardian/device/+/...`. -/
def ofAnyDevice (suffix : TopicFilter String) (_ : Client) : TopicFilter String :=
  ofTopic (root ++ ["device"]) ++ .single :: suffix

/-- `edgeguardian/device/${clientid}/...`: the client id is put into the text of the filter. -/
def ofClientId (suffix : TopicFilter String) (c : Client) : TopicFilter String :=
  ofTopic (root ++ ["device"]) ++ (filter c.clientId ++ suffix)

/-- A rule `{allow, ...}` with one filter. -/
def allow (who : Client → Bool) (action : Operation → Bool)
    (pattern : Client → TopicFilter String) : AccessRule Client Operation String :=
  ⟨true, who, action, fun c => [pattern c]⟩

/-- `{username, ...}`. -/
def username (name : String) (c : Client) : Bool := c.username = some name

/-- `all`. -/
def everyone (_ : Client) : Bool := true

def publish (op : Operation) : Bool := op = .publish
def subscribe (op : Operation) : Bool := op = .subscribe

/-- The rule of the controller. -/
def controllerRules : List (AccessRule Client Operation String) :=
  [allow (username "controller") (fun _ => true) fun _ => ofTopic root ++ [.multi]]

/-- The rules for enrollment. -/
def bootstrapRules : List (AccessRule Client Operation String) :=
  [allow (username "bootstrap") publish (ofAnyDevice (ofTopic ["enroll", "request"])),
    allow (username "bootstrap") publish (ofAnyDevice (ofTopic ["cert", "request"])),
    allow (username "bootstrap") subscribe (ofAnyDevice (ofTopic ["enroll", "response"])),
    allow (username "bootstrap") subscribe (ofAnyDevice (ofTopic ["cert", "response"]))]

/-- The rules for devices. -/
def deviceRules : List (AccessRule Client Operation String) :=
  [allow everyone publish (ofClientId (ofTopic ["telemetry"])),
    allow everyone publish (ofClientId (ofTopic ["logs"])),
    allow everyone publish (ofClientId (ofTopic ["heartbeat"])),
    allow everyone publish (ofClientId (ofTopic ["command", "result"])),
    allow everyone publish (ofClientId (ofTopic ["cert", "request"])),
    allow everyone subscribe (ofClientId (ofTopic ["command"])),
    allow everyone subscribe (ofClientId (ofTopic ["state", "desired"])),
    allow everyone subscribe (ofClientId (ofTopic ["cert", "response"]))]

/-- The rules for the interactive shell. -/
def shellRules : List (AccessRule Client Operation String) :=
  [allow everyone subscribe (ofClientId (ofTopic ["shell", "open"])),
    allow everyone subscribe (ofClientId [.level "shell", .single, .level "in"]),
    allow everyone subscribe (ofClientId [.level "shell", .single, .level "ctl"]),
    allow everyone publish (ofClientId [.level "shell", .single, .level "out"]),
    allow everyone publish (ofClientId (ofTopic ["shell", "event"]))]

/-- The rules that allow something. -/
def allowed : List (AccessRule Client Operation String) :=
  controllerRules ++ (bootstrapRules ++ (deviceRules ++ shellRules))

/-- `{deny, all}`. -/
def denyAll : AccessRule Client Operation String :=
  ⟨false, everyone, fun _ => true, fun _ => [[.multi]]⟩

/-- `acl.conf`. -/
def acl : List (AccessRule Client Operation String) := allowed ++ [denyAll]

/-! ### Messages of devices -/

/-- What a device sends. -/
inductive Upstream
  | telemetry
  | logs
  | heartbeat
  | commandResult
  | certRequest
  | shellOut (sessionId : String)
  | shellEvent
deriving DecidableEq, Repr

/-- What a device receives. -/
inductive Downstream
  | command
  | desiredState
  | certResponse
  | shellOpen
  | shellIn (sessionId : String)
  | shellCtl (sessionId : String)
deriving DecidableEq, Repr

def Upstream.suffix : Upstream → Topic
  | telemetry => ["telemetry"]
  | logs => ["logs"]
  | heartbeat => ["heartbeat"]
  | commandResult => ["command", "result"]
  | certRequest => ["cert", "request"]
  | shellOut sessionId => ["shell", sessionId, "out"]
  | shellEvent => ["shell", "event"]

def Downstream.suffix : Downstream → Topic
  | command => ["command"]
  | desiredState => ["state", "desired"]
  | certResponse => ["cert", "response"]
  | shellOpen => ["shell", "open"]
  | shellIn sessionId => ["shell", sessionId, "in"]
  | shellCtl sessionId => ["shell", sessionId, "ctl"]

/-- The topic of a device. -/
def deviceTopic (deviceId : String) (suffix : Topic) : Topic :=
  root ++ "device" :: deviceId :: suffix

/-- The id is one word of a filter, and no wildcard. -/
def IsLevel (id : String) : Prop := filter id = [.level id]

/-- The client uses none of the two names, and its id is that of a device. -/
structure Client.IsDevice (c : Client) : Prop where
  not_controller : c.username ≠ some "controller"
  not_bootstrap : c.username ≠ some "bootstrap"
  isLevel : IsLevel c.clientId

theorem isLevel_of_not_mem {id : String} (hslash : '/' ∉ id.toList) (hsingle : id ≠ "+")
    (hmulti : id ≠ "#") : IsLevel id := by
  rw [IsLevel, filter, words, List.splitOn_eq_singleton hslash, List.map_singleton,
    String.ofList_toList, List.map_singleton, levelOf, if_neg hsingle, if_neg hmulti]

/-! ### What the rules permit -/

section Permits

variable {c : Client} {op : Operation} {G : TopicFilter String} {topic suffix : Topic}

theorem permits_iff : AccessRule.permits acl c op G ↔ ∃ rule ∈ allowed, rule.applies c op G := by
  rw [acl, AccessRule.permits_append_denial rfl]
  exact AccessRule.permits_iff (by decide)

theorem applies_allow {who : Client → Bool} {action : Operation → Bool}
    {pattern : Client → TopicFilter String} :
    (allow who action pattern).applies c op G ↔ who c ∧ action op ∧ accepts (pattern c) G := by
  simp [allow, AccessRule.applies, and_assoc]

/-- The filters that every client may publish to, below its own topic. -/
def publishFilters : List (TopicFilter String) :=
  [ofTopic ["telemetry"], ofTopic ["logs"], ofTopic ["heartbeat"], ofTopic ["command", "result"],
    ofTopic ["cert", "request"], [.level "shell", .single, .level "out"],
    ofTopic ["shell", "event"]]

/-- The filters that every client may subscribe to, below its own topic. -/
def subscribeFilters : List (TopicFilter String) :=
  [ofTopic ["command"], ofTopic ["state", "desired"], ofTopic ["cert", "response"],
    ofTopic ["shell", "open"], [.level "shell", .single, .level "in"],
    [.level "shell", .single, .level "ctl"]]

theorem permits_publish_iff : AccessRule.permits acl c .publish G ↔
    c.username = some "controller" ∧ accepts (ofTopic root ++ [.multi]) G ∨
      c.username = some "bootstrap" ∧
        (accepts (ofAnyDevice (ofTopic ["enroll", "request"]) c) G ∨
          accepts (ofAnyDevice (ofTopic ["cert", "request"]) c) G) ∨
      ∃ F ∈ publishFilters, accepts (ofClientId F c) G := by
  simp [permits_iff, allowed, controllerRules, bootstrapRules, deviceRules, shellRules,
    applies_allow, username, everyone, publish, subscribe, publishFilters, and_or_left, or_assoc]

theorem permits_subscribe_iff : AccessRule.permits acl c .subscribe G ↔
    c.username = some "controller" ∧ accepts (ofTopic root ++ [.multi]) G ∨
      c.username = some "bootstrap" ∧
        (accepts (ofAnyDevice (ofTopic ["enroll", "response"]) c) G ∨
          accepts (ofAnyDevice (ofTopic ["cert", "response"]) c) G) ∨
      ∃ F ∈ subscribeFilters, accepts (ofClientId F c) G := by
  simp [permits_iff, allowed, controllerRules, bootstrapRules, deviceRules, shellRules,
    applies_allow, username, everyone, publish, subscribe, subscribeFilters, and_or_left, or_assoc]

theorem accepts_publishFilters :
    (∃ F ∈ publishFilters, accepts F (ofTopic suffix)) ↔ ∃ u : Upstream, suffix = u.suffix := by
  simp only [publishFilters, List.mem_cons, List.not_mem_nil, or_false, exists_eq_or_imp,
    exists_eq_left, ofTopic_accepts, accepts_level_ofTopic, accepts_single_ofTopic,
    accepts_nil_ofTopic]
  constructor
  · rintro (rfl | rfl | rfl | rfl | rfl | ⟨_, rfl, sessionId, _, rfl, _, rfl, rfl⟩ | rfl)
    exacts [⟨.telemetry, rfl⟩, ⟨.logs, rfl⟩, ⟨.heartbeat, rfl⟩, ⟨.commandResult, rfl⟩,
      ⟨.certRequest, rfl⟩, ⟨.shellOut sessionId, rfl⟩, ⟨.shellEvent, rfl⟩]
  · rintro ⟨_ | _ | _ | _ | _ | sessionId | _, rfl⟩ <;> simp [Upstream.suffix]

theorem accepts_subscribeFilters :
    (∃ F ∈ subscribeFilters, accepts F (ofTopic suffix)) ↔ ∃ d : Downstream, suffix = d.suffix := by
  simp only [subscribeFilters, List.mem_cons, List.not_mem_nil, or_false, exists_eq_or_imp,
    exists_eq_left, ofTopic_accepts, accepts_level_ofTopic, accepts_single_ofTopic,
    accepts_nil_ofTopic]
  constructor
  · rintro (rfl | rfl | rfl | rfl | ⟨_, rfl, sessionId, _, rfl, _, rfl, rfl⟩ |
      ⟨_, rfl, sessionId, _, rfl, _, rfl, rfl⟩)
    exacts [⟨.command, rfl⟩, ⟨.desiredState, rfl⟩, ⟨.certResponse, rfl⟩, ⟨.shellOpen, rfl⟩,
      ⟨.shellIn sessionId, rfl⟩, ⟨.shellCtl sessionId, rfl⟩]
  · rintro ⟨_ | _ | _ | _ | sessionId | sessionId, rfl⟩ <;> simp [Downstream.suffix]

/-- The topics of a client are those of the device with its id. -/
theorem ofClientId_accepts {F : TopicFilter String} (hlevel : IsLevel c.clientId) :
    accepts (ofClientId F c) (ofTopic topic) ↔
      ∃ suffix, topic = deviceTopic c.clientId suffix ∧ accepts F (ofTopic suffix) := by
  have hlevels : ofTopic (root ++ ["device"]) ++ [FilterLevel.level c.clientId] =
      ofTopic (root ++ ["device", c.clientId]) := rfl
  rw [ofClientId, hlevel, ← List.append_assoc, hlevels, ofTopic_append_accepts]
  rfl

/-- What a device may publish. -/
theorem permits_publish_iff_of_device (hc : c.IsDevice) :
    AccessRule.permits acl c .publish (ofTopic topic) ↔
      ∃ u : Upstream, topic = deviceTopic c.clientId u.suffix := by
  simp only [permits_publish_iff, hc.not_controller, hc.not_bootstrap, false_and, false_or,
    ofClientId_accepts hc.isLevel]
  constructor
  · rintro ⟨F, hF, suffix, rfl, haccepts⟩
    obtain ⟨u, rfl⟩ := accepts_publishFilters.mp ⟨F, hF, haccepts⟩
    exact ⟨u, rfl⟩
  · rintro ⟨u, rfl⟩
    obtain ⟨F, hF, haccepts⟩ := accepts_publishFilters.mpr ⟨u, rfl⟩
    exact ⟨F, hF, _, rfl, haccepts⟩

/-- What a device may subscribe to. -/
theorem permits_subscribe_iff_of_device (hc : c.IsDevice) :
    AccessRule.permits acl c .subscribe (ofTopic topic) ↔
      ∃ d : Downstream, topic = deviceTopic c.clientId d.suffix := by
  simp only [permits_subscribe_iff, hc.not_controller, hc.not_bootstrap, false_and, false_or,
    ofClientId_accepts hc.isLevel]
  constructor
  · rintro ⟨F, hF, suffix, rfl, haccepts⟩
    obtain ⟨d, rfl⟩ := accepts_subscribeFilters.mp ⟨F, hF, haccepts⟩
    exact ⟨d, rfl⟩
  · rintro ⟨d, rfl⟩
    obtain ⟨F, hF, haccepts⟩ := accepts_subscribeFilters.mpr ⟨d, rfl⟩
    exact ⟨F, hF, _, rfl, haccepts⟩

end Permits

/-! ### Where messages go -/

section Flows

variable {p r : Client} {topic : Topic}

/-- A message on the topic can go from one client to another. -/
abbrev Flows (p : Client) (topic : Topic) (r : Client) : Prop :=
  AccessRule.Flows acl .publish .subscribe p topic r

theorem guarded_of_mem : ∀ rule ∈ allowed, ∀ F ∈ rule.filters r, Guarded F := by
  have hown {a : String} {F : TopicFilter String} (h : Guarded (.level a :: F)) :
      Guarded (ofClientId (.level a :: F) r) := by
    rw [ofClientId, ← List.append_assoc]
    exact h.append _
  simp only [allowed, controllerRules, bootstrapRules, deviceRules, shellRules, allow,
    List.mem_append, List.mem_cons, List.not_mem_nil, or_false]
  rintro _ (rfl | (rfl | rfl | rfl | rfl) |
    (rfl | rfl | rfl | rfl | rfl | rfl | rfl | rfl) | rfl | rfl | rfl | rfl | rfl) F hF <;>
    obtain rfl := List.mem_singleton.mp hF <;> first | trivial | exact hown trivial

theorem flows_iff : Flows p topic r ↔
    AccessRule.permits acl p .publish (ofTopic topic) ∧
      AccessRule.permits acl r .subscribe (ofTopic topic) :=
  AccessRule.flows_iff (by decide) rfl guarded_of_mem

/-- The last levels of the topics that are published to without the name of the controller. -/
def upstreamEnds : List String :=
  ["telemetry", "logs", "heartbeat", "result", "request", "out", "event"]

/-- The last levels of the topics that are subscribed to without the name of the controller. -/
def downstreamEnds : List String := ["command", "desired", "response", "open", "in", "ctl"]

theorem ends_of_accepts {ends : List String} {filters : List (TopicFilter String)}
    (hends : ∀ F ∈ filters, ∃ a ∈ ends, F.getLast? = some (.level a)) {F : TopicFilter String}
    (hF : F ∈ filters) {before : TopicFilter String}
    (h : accepts (before ++ F) (ofTopic topic)) : ∃ a ∈ ends, topic.getLast? = some a := by
  obtain ⟨a, ha, hlast⟩ := hends F hF
  obtain ⟨F, rfl⟩ := List.getLast?_eq_some_iff.mp hlast
  rw [← List.append_assoc] at h
  exact ⟨a, ha, getLast?_ofTopic_eq_some.mp (getLast?_of_accepts h)⟩

theorem ends_of_publish (hp : p.username ≠ some "controller")
    (h : AccessRule.permits acl p .publish (ofTopic topic)) :
    ∃ a ∈ upstreamEnds, topic.getLast? = some a := by
  have hends : ∀ F ∈ ofTopic ["enroll", "request"] :: publishFilters,
      ∃ a ∈ upstreamEnds, F.getLast? = some (.level a) := by decide
  rcases permits_publish_iff.mp h with ⟨hname, -⟩ | ⟨-, h | h⟩ | ⟨F, hF, h⟩
  · exact absurd hname hp
  · rw [ofAnyDevice, List.append_cons] at h
    exact ends_of_accepts hends (by decide) h
  · rw [ofAnyDevice, List.append_cons] at h
    exact ends_of_accepts hends (by decide) h
  · rw [ofClientId, ← List.append_assoc] at h
    exact ends_of_accepts hends (List.mem_cons_of_mem _ hF) h

theorem ends_of_subscribe (hr : r.username ≠ some "controller")
    (h : AccessRule.permits acl r .subscribe (ofTopic topic)) :
    ∃ a ∈ downstreamEnds, topic.getLast? = some a := by
  have hends : ∀ F ∈ ofTopic ["enroll", "response"] :: subscribeFilters,
      ∃ a ∈ downstreamEnds, F.getLast? = some (.level a) := by decide
  rcases permits_subscribe_iff.mp h with ⟨hname, -⟩ | ⟨-, h | h⟩ | ⟨F, hF, h⟩
  · exact absurd hname hr
  · rw [ofAnyDevice, List.append_cons] at h
    exact ends_of_accepts hends (by decide) h
  · rw [ofAnyDevice, List.append_cons] at h
    exact ends_of_accepts hends (by decide) h
  · rw [ofClientId, ← List.append_assoc] at h
    exact ends_of_accepts hends (List.mem_cons_of_mem _ hF) h

/-- Whatever the client ids are, a client with the name of the controller is at one end. -/
theorem controller_of_flows (h : Flows p topic r) :
    p.username = some "controller" ∨ r.username = some "controller" := by
  obtain ⟨hpublish, hsubscribe⟩ := flows_iff.mp h
  by_contra! hnames
  obtain ⟨a, ha, hlast⟩ := ends_of_publish hnames.1 hpublish
  obtain ⟨b, hb, hlast'⟩ := ends_of_subscribe hnames.2 hsubscribe
  obtain rfl : a = b := Option.some.inj (hlast.symm.trans hlast')
  exact (by decide : ∀ a ∈ upstreamEnds, a ∉ downstreamEnds) a ha hb

/-- The controller may use every topic of a device. -/
theorem accepts_root {deviceId : String} {suffix : Topic} :
    accepts (ofTopic root ++ [.multi]) (ofTopic (deviceTopic deviceId suffix)) :=
  ofTopic_append_accepts.mpr ⟨_, rfl, accepts_multi⟩

/-- **Devices and the controller only talk to each other.** A message of a device goes to clients
with the name of the controller, and one to a device comes from them, on a topic with the id of the
device; this holds whatever name and client id the other client uses. -/
theorem flows_of_device_iff :
    (∀ p r topic, p.IsDevice → (Flows p topic r ↔
      r.username = some "controller" ∧ ∃ u : Upstream, topic = deviceTopic p.clientId u.suffix)) ∧
    ∀ p r topic, r.IsDevice → (Flows p topic r ↔
      p.username = some "controller" ∧
        ∃ d : Downstream, topic = deviceTopic r.clientId d.suffix) := by
  constructor
  · intro p r topic hp
    rw [flows_iff, permits_publish_iff_of_device hp]
    constructor
    · rintro ⟨⟨u, rfl⟩, hsubscribe⟩
      have hflows := flows_iff.mpr ⟨(permits_publish_iff_of_device hp).mpr ⟨u, rfl⟩, hsubscribe⟩
      exact ⟨(controller_of_flows hflows).resolve_left hp.not_controller, u, rfl⟩
    · rintro ⟨hr, u, rfl⟩
      exact ⟨⟨u, rfl⟩, permits_subscribe_iff.mpr (.inl ⟨hr, accepts_root⟩)⟩
  · intro p r topic hr
    rw [flows_iff, permits_subscribe_iff_of_device hr]
    constructor
    · rintro ⟨hpublish, d, rfl⟩
      have hflows := flows_iff.mpr ⟨hpublish, (permits_subscribe_iff_of_device hr).mpr ⟨d, rfl⟩⟩
      exact ⟨(controller_of_flows hflows).resolve_right hr.not_controller, d, rfl⟩
    · rintro ⟨hp, d, rfl⟩
      exact ⟨permits_publish_iff.mpr (.inl ⟨hp, accepts_root⟩), d, rfl⟩

/-- Two devices. -/
theorem flows_rpi : ¬ Flows ⟨none, "rpi-001"⟩ (deviceTopic "rpi-001" ["telemetry"])
    ⟨none, "rpi-002"⟩ := by
  have hlevel : IsLevel "rpi-001" := isLevel_of_not_mem (by decide) (by decide) (by decide)
  have hdevice : Client.IsDevice ⟨none, "rpi-001"⟩ := ⟨nofun, nofun, hlevel⟩
  rw [flows_of_device_iff.1 _ _ _ hdevice]
  rintro ⟨⟨⟩, -⟩

end Flows

/-! ### The listeners -/

/-- The bindings that the listeners register. -/
inductive Listener
  | heartbeat
  | telemetry
  | commandResult
  | certRequest
  | enrollment
  | logIngestion
  | shellOutput
  | shellEvent
deriving DecidableEq, Repr

/-- The suffix that a listener registers. -/
def Listener.topicSuffix : Listener → String
  | heartbeat => "/device/+/heartbeat"
  | telemetry => "/device/+/telemetry"
  | commandResult => "/device/+/command/result"
  | certRequest => "/device/+/cert/request"
  | enrollment => "/device/+/enroll/request"
  | logIngestion => "/device/+/logs"
  | shellOutput => "/device/+/shell/+/out"
  | shellEvent => "/device/+/shell/event"

/-- The filter of `MqttSubscriptions.subscribe`. -/
def Listener.filter (topicRoot : String) (l : Listener) : TopicFilter String :=
  BrokerAcl.filter (topicRoot ++ l.topicSuffix)

/-- The listener for a message. -/
def Upstream.listener : Upstream → Listener
  | telemetry => .telemetry
  | logs => .logIngestion
  | heartbeat => .heartbeat
  | commandResult => .commandResult
  | certRequest => .certRequest
  | shellOut _ => .shellOutput
  | shellEvent => .shellEvent

/-- What the filter of a listener has behind the device. -/
def Listener.suffix : Listener → TopicFilter String
  | heartbeat => ofTopic ["heartbeat"]
  | telemetry => ofTopic ["telemetry"]
  | commandResult => ofTopic ["command", "result"]
  | certRequest => ofTopic ["cert", "request"]
  | enrollment => ofTopic ["enroll", "request"]
  | logIngestion => ofTopic ["logs"]
  | shellOutput => [.level "shell", .single, .level "out"]
  | shellEvent => ofTopic ["shell", "event"]

/-- Topics are put together at a slash. -/
theorem words_of_toList {text a : String} {rest : List Char}
    (h : text.toList = a.toList ++ '/' :: rest) :
    words text = words a ++ words (String.ofList rest) := by
  simp only [words, h, List.splitOn_append_cons_self, List.map_append, String.toList_ofList]

theorem words_append {a b : String} {rest : List Char} (h : b.toList = '/' :: rest) :
    words (a ++ b) = words a ++ words (String.ofList rest) :=
  words_of_toList (by rw [String.toList_append, h])

theorem filter_of_toList {text a : String} {rest : List Char}
    (h : text.toList = a.toList ++ '/' :: rest) :
    filter text = filter a ++ filter (String.ofList rest) := by
  simp only [filter, words_of_toList h, List.map_append]

theorem filter_append {a b : String} {rest : List Char} (h : b.toList = '/' :: rest) :
    filter (a ++ b) = filter a ++ filter (String.ofList rest) :=
  filter_of_toList (by rw [String.toList_append, h])

theorem Listener.filter_eq {topicRoot : String} {l : Listener} :
    l.filter topicRoot = BrokerAcl.filter topicRoot ++ .level "device" :: .single :: l.suffix := by
  obtain ⟨rest, hrest, hfilter⟩ : ∃ rest, l.topicSuffix.toList = '/' :: rest ∧
      BrokerAcl.filter (String.ofList rest) = .level "device" :: .single :: l.suffix := by
    cases l <;> exact ⟨_, rfl, by decide +kernel⟩
  rw [Listener.filter, filter_append hrest, hfilter]

theorem filter_root : filter "edgeguardian" = ofTopic root := by decide +kernel

/-- A listener accepts the messages that are for it. -/
theorem Listener.accepts_iff {l : Listener} {u : Upstream} {deviceId : String} :
    accepts (l.filter "edgeguardian") (ofTopic (deviceTopic deviceId u.suffix)) ↔
      u.listener = l := by
  have hsuffix : accepts l.suffix (ofTopic u.suffix) ↔ u.listener = l := by
    cases l <;> cases u <;>
      simp [Listener.suffix, Upstream.suffix, Upstream.listener, ofTopic, accepts]
  rw [Listener.filter_eq, filter_root, ofTopic_append_accepts, ← hsuffix]
  constructor
  · rintro ⟨rest, heq, h⟩
    cases List.append_cancel_left heq
    simpa [ofTopic] using h
  · intro h
    exact ⟨_, rfl, by simpa [ofTopic] using h⟩

/-- **What a device gets to the controller.** Each topic that it may publish to is accepted by one
listener and has the id of the device where `extractDeviceId` looks for it, and each listener but
that for enrollments gets the messages of its kind. -/
theorem accepted_iff_of_device {c : Client} (hc : c.IsDevice) :
    (∀ l topic, (AccessRule.permits acl c .publish (ofTopic topic) ∧
        accepts (l.filter "edgeguardian") (ofTopic topic)) ↔
      ∃ u : Upstream, u.listener = l ∧ topic = deviceTopic c.clientId u.suffix) ∧
    ∀ topic, AccessRule.permits acl c .publish (ofTopic topic) →
      (∃! l : Listener, accepts (l.filter "edgeguardian") (ofTopic topic)) ∧
        extractDeviceId topic = some c.clientId := by
  constructor
  · intro l topic
    rw [permits_publish_iff_of_device hc]
    constructor
    · rintro ⟨⟨u, rfl⟩, haccepts⟩
      exact ⟨u, Listener.accepts_iff.mp haccepts, rfl⟩
    · rintro ⟨u, hu, rfl⟩
      exact ⟨⟨u, rfl⟩, Listener.accepts_iff.mpr hu⟩
  · intro topic hpermits
    obtain ⟨u, rfl⟩ := (permits_publish_iff_of_device hc).mp hpermits
    refine ⟨⟨u.listener, Listener.accepts_iff.mpr rfl, ?_⟩, rfl⟩
    intro l hl
    exact (Listener.accepts_iff.mp hl).symm

/-- One device. -/
theorem accepted_rpi :
    (∀ l topic, (AccessRule.permits acl ⟨none, "rpi-001"⟩ .publish (ofTopic topic) ∧
        accepts (l.filter "edgeguardian") (ofTopic topic)) ↔
      ∃ u : Upstream, u.listener = l ∧ topic = deviceTopic "rpi-001" u.suffix) ∧
    ∀ topic, AccessRule.permits acl ⟨none, "rpi-001"⟩ .publish (ofTopic topic) →
      (∃! l : Listener, accepts (l.filter "edgeguardian") (ofTopic topic)) ∧
        extractDeviceId topic = some "rpi-001" :=
  accepted_iff_of_device
    ⟨nofun, nofun, isLevel_of_not_mem (by decide) (by decide) (by decide)⟩

/-! ### The agent -/

/-- What an agent asks of the broker: while it enrolls, and afterwards. -/
inductive AgentRequest
  | enrollResponse
  | enrollRequest
  | heartbeat
  | telemetry
  | commandResult
  | certRequest
  | command
  | desiredState
  | certResponse
  | shellOpen
  | shellIn (sessionId : String)
  | shellCtl (sessionId : String)
  | shellOut (sessionId : String)
  | shellEvent
deriving DecidableEq, Repr

namespace AgentRequest

/-- The suffix that the agent puts behind its topic. -/
def suffix : AgentRequest → String
  | enrollResponse => "enroll/response"
  | enrollRequest => "enroll/request"
  | heartbeat => "heartbeat"
  | telemetry => "telemetry"
  | commandResult => "command/result"
  | certRequest => "cert/request"
  | command => "command"
  | desiredState => "state/desired"
  | certResponse => "cert/response"
  | shellOpen => "shell/open"
  | shellIn sessionId => "shell/" ++ sessionId ++ "/in"
  | shellCtl sessionId => "shell/" ++ sessionId ++ "/ctl"
  | shellOut sessionId => "shell/" ++ sessionId ++ "/out"
  | shellEvent => "shell/event"

/-- The client that asks: the user name of the configuration, if there is one, is used for the
enrollment only. -/
def client (username deviceId : String) : AgentRequest → Client
  | enrollResponse | enrollRequest => ⟨if username = "" then none else some username, deviceId⟩
  | _ => ⟨none, deviceId⟩

end AgentRequest

section Agent

variable {topicRoot username deviceId suffix : String}

theorem filter_topic : filter (Topics.topic topicRoot deviceId suffix) =
    filter topicRoot ++ .level "device" :: (filter deviceId ++ filter suffix) := by
  have hdevice : levelOf (String.ofList "device".toList) = .level "device" := by decide +kernel
  simp only [filter, words, Topics.splitOn_topic, List.map_append, List.map_cons, hdevice]

/-- A text that is one word is that word. -/
theorem eq_of_words_eq_singleton {text word : String} (h : words text = [word]) : text = word := by
  obtain ⟨piece, hpiece, rfl⟩ := List.map_eq_singleton_iff.mp h
  have hslash : '/' ∉ text.toList := by
    intro hmem
    have hlen := JavaString.one_lt_length_splitOn hmem
    rw [hpiece] at hlen
    exact absurd hlen (lt_irrefl 1)
  rw [List.splitOn_eq_singleton hslash] at hpiece
  rw [← List.singleton_inj.mp hpiece, String.ofList_toList]

theorem words_of_isLevel {id : String} (h : IsLevel id) : words id = [id] := by
  obtain ⟨word, hword, -⟩ := List.map_eq_singleton_iff.mp h
  rw [hword, eq_of_words_eq_singleton hword]

theorem levelOf_of_isLevel {id : String} (h : IsLevel id) : levelOf id = .level id := by
  have hlevel := h
  rw [IsLevel, filter, words_of_isLevel h] at hlevel
  exact (List.cons.inj hlevel).1

/-- What comes behind the session in a suffix. -/
theorem words_shell {sessionId last : String} (word : String) (hsession : IsLevel sessionId)
    (hlast : last.toList = '/' :: word.toList) (hword : IsLevel word) :
    words ("shell/" ++ sessionId ++ last) = ["shell", sessionId, word] := by
  have hshell : words "shell" = ["shell"] := by decide +kernel
  have hsplit : ("shell/" ++ sessionId ++ last).toList =
      "shell".toList ++ '/' :: (sessionId ++ last).toList := by
    simp only [String.toList_append, List.append_assoc]
    rfl
  rw [words_of_toList hsplit, String.ofList_toList, words_append hlast, String.ofList_toList,
    hshell, words_of_isLevel hsession, words_of_isLevel hword]
  rfl

theorem filter_shell {sessionId last : String} (word : String) (hsession : IsLevel sessionId)
    (hlast : last.toList = '/' :: word.toList) (hword : IsLevel word) :
    filter ("shell/" ++ sessionId ++ last) = [.level "shell", .level sessionId, .level word] := by
  have hshell : levelOf "shell" = .level "shell" := by decide +kernel
  simp only [filter, words_shell word hsession hlast hword, List.map_cons, List.map_nil, hshell,
    levelOf_of_isLevel hsession, levelOf_of_isLevel hword]

end Agent

/-! ### Runs of the controller -/

section Runs

open Transition

/-- A message of a device: one of those that change the state of the controller, or log entries,
which go to Loki. -/
inductive Message
  | device (m : DeviceMessage)
  | logs

/-- The topic of a message. -/
def Message.topic (deviceId : String) : Message → Topic
  | device m => m.topic root deviceId
  | logs => deviceTopic deviceId ["logs"]

/-- A message on a topic of a device, and what the controller handles it with. -/
structure Publication where
  client : Client
  deviceId : String
  message : Message
  env : Env

/-- What the listeners of the controller do with a message. -/
def Publication.handle (ctx : Context) (a : Publication) (s : Server) : Server :=
  match a.message with
  | .device m => Controller.handle ctx a.env root a.deviceId m s
  | .logs => s

/-- The broker hands over what the rules permit. -/
def step (ctx : Context) (s : Server) (a : Publication) : Option Server :=
  if AccessRule.permits acl a.client .publish (ofTopic (a.message.topic a.deviceId)) then
    some (a.handle ctx s)
  else some s

variable {ctx : Context} {s t : Server} {deviceId id : String}

/-- The tables with rows of devices that no message of a device changes. -/
def untouched (db : Db) : Table DeviceToken DeviceToken.deviceId ×
    Table DeviceManifestEntity DeviceManifestEntity.deviceId ×
    Table DeviceTelemetryHourly DeviceTelemetryHourly.id ×
    SerialTable DeviceCommand DeviceCommand.id :=
  (db.deviceTokens, db.manifests, db.hourly, db.commands)

end Runs

end EdgeGuardian.BrokerAcl
