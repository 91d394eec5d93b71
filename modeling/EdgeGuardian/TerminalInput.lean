import EdgeGuardian.Agent.Shell.OpenDelivery
import EdgeGuardian.BrokerAcl
import EdgeGuardian.Controller.ShellTickets
import EdgeGuardian.Lib.GoString

/-!
# Who types into the shell of a device

What a user types goes from the socket of the browser to the controller, as a message on a topic of
the session to the broker, and from the agent into the PTY of the session. The socket has presented
a ticket, which the controller has given to a user of the organization of the device. The agent
knows a session by the id in the message that opens it.

A message that the broker has accepted may be delivered never, or any number of times, in any order
with the others. Other clients of the broker publish what the rules of the broker permit them, and
anything may happen to the database.

Source: `controller/src/main/java/com/edgeguardian/controller/mqtt/ShellWebSocketHandler.java`,
`mqtt/ShellMqttBridge.java`, `service/ShellSessionService.java`, `agent/cmd/agent/shell_wiring.go`,
`agent/internal/shell/manager.go` (`Input`), `deployments/helm/edgeguardian/templates/emqx.yaml`
(`acl.conf`).

## Main definitions

* `TerminalInput.publishOpen`, `TerminalInput.publishInput`: the messages of the controller.
* `TerminalInput.step`: the controller, its sockets, the broker and the agents.

## Main results

* `TerminalInput.typed_of_written`: what is written to a PTY was typed on the socket that has
  presented the ticket of the session.
-/

namespace EdgeGuardian.TerminalInput

open Controller BrokerAcl TopicFilter Transition

/-! ### Messages -/

/-- A message that a client has sent to the broker. -/
structure Message where
  publisher : Client
  topic : String
  payload : List UInt8
deriving DecidableEq, Repr

/-- The topic as the broker reads it. -/
def Message.levels (m : Message) : Topic := words m.topic

/-- The request for a session, as Jackson writes it and the agent reads it. -/
structure OpenJson where
  write : String → ℤ → ℤ → List UInt8
  unmarshal : List UInt8 → Option Agent.Shell.OpenRequest
  sessionID_of_unmarshal : ∀ {sessionId : String} {rows cols : ℤ} {req : Agent.Shell.OpenRequest},
    unmarshal (write sessionId rows cols) = some req → req.sessionID = sessionId

def controller : Client := ⟨some "controller", "edgeguardian-controller"⟩

/-- `ShellMqttBridge.publishRaw`. -/
def publishRaw (deviceId suffix : String) (payload : List UInt8) : Message :=
  ⟨controller, Topics.topic "edgeguardian" deviceId suffix, payload⟩

/-- `ShellMqttBridge.publishOpen`. -/
def publishOpen (json : OpenJson) (session : ShellSession) : Message :=
  publishRaw session.deviceId "shell/open"
    (json.write session.sessionId session.rows session.cols)

/-- `ShellMqttBridge.publishInput`. -/
def publishInput (session : ShellSession) (data : List UInt8) : Message :=
  publishRaw session.deviceId ("shell/" ++ session.sessionId ++ "/in") data

/-- `ShellMqttBridge.publishControl`, `publishClose`. -/
def publishControl (session : ShellSession) (data : List UInt8) : Message :=
  publishRaw session.deviceId ("shell/" ++ session.sessionId ++ "/ctl") data

/-- The message of `publishClose`. -/
def closeJson : List UInt8 := GoString.utf8 "\x7b\"type\":\"close\"\x7d".toList

/-! ### The system -/

/-- A ticket that was given out, and the database at that time. -/
structure Issue where
  sessionId : String
  ticket : String
  deviceId : String
  principal : TenantPrincipal
  db : Db

/-- What has happened: no part of the system. -/
structure History where
  issued : List Issue
  /-- The sockets whose tickets were accepted. -/
  accepted : List (ℕ × String)
  /-- What was typed on each socket. -/
  typed : List (ℕ × List UInt8)

/-- What was written to the PTY of a session on a device. -/
structure Input where
  client : Client
  sessionId : String
  data : List UInt8
deriving DecidableEq, Repr

structure State where
  server : Server
  /-- The session that a socket has as an attribute. -/
  sockets : List (ℕ × ShellSession)
  /-- The messages that the broker has accepted. -/
  broker : List Message
  /-- The sessions to whose input agents are subscribed. -/
  subscribed : List (Client × String)
  /-- The sessions in the maps of the shell managers. -/
  running : List (Client × String)
  written : List Input
  history : History

def State.initial (db : Db) : State :=
  ⟨⟨db, .empty⟩, [], [], [], [], [], ⟨[], [], []⟩⟩

inductive Action
  | create (env : Env) (principal : TenantPrincipal) (deviceId : String) (rows cols : ℤ)
    (fresh : Shell.ShellTicket)
  /-- `afterConnectionEstablished`. -/
  | connect (env : Env) (ticket : String) (socket : ℕ)
  /-- `handleBinaryMessage`. -/
  | binary (socket : ℕ) (data : List UInt8)
  /-- `handleTextMessage`. -/
  | text (socket : ℕ) (data : List UInt8)
  /-- `afterConnectionClosed`. -/
  | disconnect (env : Env) (socket : ℕ)
  /-- Events and output of devices. -/
  | event (env : Env) (payload : Option ShellEventPayload)
  | output (topic : Topic) (data : List UInt8)
  /-- Anything else changes the database. -/
  | world (db : Db)
  /-- Another client sends a message. -/
  | publish (m : Message)
  /-- An agent receives a message to open a session. -/
  | receiveOpen (c : Client) (i : ℕ) (inOk ctlOk : Bool)
  /-- `Manager.Open` has started a session, or one has ended. -/
  | opened (c : Client) (sessionId : String)
  | ended (c : Client) (sessionId : String)
  /-- An agent receives input. -/
  | receiveInput (c : Client) (sessionId : String) (i : ℕ)

/-- The subscription of a client is permitted, and has the message delivered. -/
def Receives (c : Client) (suffix : String) (m : Message) : Prop :=
  AccessRule.permits acl c .subscribe (filter (Topics.topic "edgeguardian" c.clientId suffix)) ∧
    accepts (filter (Topics.topic "edgeguardian" c.clientId suffix)) (ofTopic m.levels)

instance (c : Client) (suffix : String) (m : Message) : Decidable (Receives c suffix m) :=
  inferInstanceAs (Decidable (_ ∧ _))

section Step

variable (json : OpenJson) (props : ShellProperties)

def step (s : State) : Action → Option State
  | .create env principal deviceId rows cols fresh =>
    match Shell.create props env principal deviceId rows cols fresh s.server with
    | (.error _, server) => some { s with server := server }
    | (.ok t, server) =>
      let issue : Issue := ⟨t.sessionId, t.ticket, deviceId, principal, s.server.db⟩
      some { s with
        server := server
        history := { s.history with issued := s.history.issued ++ [issue] } }
  | .connect env ticket socket =>
    let server := Shell.afterConnectionEstablished env ticket socket s.server
    match (Shell.activate env ticket socket s.server).1 with
    | .error _ => some { s with server := server }
    | .ok session =>
      some { s with
        server := server
        sockets := (socket, session) :: s.sockets
        broker := s.broker ++ [publishOpen json session]
        history := { s.history with accepted := s.history.accepted ++ [(socket, ticket)] } }
  | .binary socket data =>
    match s.sockets.find? fun p => p.1 = socket with
    | none => some s
    | some p =>
      some { s with
        broker := s.broker ++ [publishInput p.2 data]
        history := { s.history with typed := s.history.typed ++ [(socket, data)] } }
  | .text socket data =>
    match s.sockets.find? fun p => p.1 = socket with
    | none => some s
    | some p => some { s with broker := s.broker ++ [publishControl p.2 data] }
  | .disconnect env socket =>
    match s.sockets.find? fun p => p.1 = socket with
    | none => some s
    | some p =>
      some { s with
        server := Shell.close env p.2.sessionId "ws_closed"
          (Shell.closeTerminal p.2.sessionId s.server)
        sockets := s.sockets.filter fun q => q.1 ≠ socket
        broker := s.broker ++ [publishControl p.2 closeJson] }
  | .event env payload => some { s with server := Shell.onEvent env payload s.server }
  | .output topic data => some { s with server := Shell.onOutput topic data s.server }
  | .world db => some { s with server := { s.server with db := db } }
  | .publish m =>
    if AccessRule.permits acl m.publisher .publish (ofTopic m.levels) then
      some { s with broker := s.broker ++ [m] }
    else none
  | .receiveOpen c i inOk ctlOk => do
    let m ← s.broker[i]?
    if Receives c "shell/open" m then
      match Agent.Shell.handleOpen json.unmarshal m.payload inOk ctlOk with
      | none => some s
      | some req => some { s with subscribed := (c, req.sessionID) :: s.subscribed }
    else none
  | .opened c sessionId =>
    if (c, sessionId) ∈ s.subscribed then
      some { s with running := (c, sessionId) :: s.running }
    else none
  | .ended c sessionId =>
    some { s with
      running := s.running.filter fun p => p ≠ (c, sessionId)
      subscribed := s.subscribed.filter fun p => p ≠ (c, sessionId) }
  | .receiveInput c sessionId i => do
    let m ← s.broker[i]?
    if (c, sessionId) ∈ s.subscribed ∧ Receives c ("shell/" ++ sessionId ++ "/in") m then
      -- `Manager.Input` drops what comes before the session is in the map
      if (c, sessionId) ∈ s.running then
        some { s with written := s.written ++ [⟨c, sessionId, m.payload⟩] }
      else some s
    else none

end Step

/-- Session ids and tickets are random and not used twice, only the controller has its name at the
broker, and agents are clients of devices. -/
def Allowed (s : State) : Action → Prop
  | .create _ _ _ _ _ fresh => IsLevel fresh.sessionId ∧ ∀ issue ∈ s.history.issued,
      issue.sessionId ≠ fresh.sessionId ∧ issue.ticket ≠ fresh.ticket
  | .publish m => m.publisher.username ≠ some "controller"
  | .receiveOpen c _ _ _ | .receiveInput c _ _ => c.IsDevice
  | _ => True

/-! ### Topics -/

section Topics

variable {c : Client} {deviceId sessionId suffix : String} {levels : Topic}

theorem words_topic : words (Topics.topic "edgeguardian" deviceId suffix) =
    root ++ "device" :: (words deviceId ++ words suffix) := by
  have hroot : words "edgeguardian" = root := by decide +kernel
  have hdevice : String.ofList "device".toList = "device" := String.ofList_toList
  rw [← hroot]
  simp only [words, Topics.splitOn_topic, List.map_append, List.map_cons, hdevice]

theorem words_input (hsession : IsLevel sessionId) :
    words ("shell/" ++ sessionId ++ "/in") = ["shell", sessionId, "in"] :=
  words_shell "in" hsession (by decide) (isLevel_of_not_mem (by decide) (by decide) (by decide))

theorem words_control (hsession : IsLevel sessionId) :
    words ("shell/" ++ sessionId ++ "/ctl") = ["shell", sessionId, "ctl"] :=
  words_shell "ctl" hsession (by decide) (isLevel_of_not_mem (by decide) (by decide) (by decide))

theorem getLast?_topic {rest : Topic} (h : words suffix = rest) (hne : rest ≠ []) :
    (words (Topics.topic "edgeguardian" deviceId suffix)).getLast? = rest.getLast? := by
  rw [words_topic, h, ← List.cons_append, ← List.append_assoc, List.getLast?_append_of_ne_nil _ hne]

/-- The input of a session goes to the topic with its id. -/
theorem accepts_input_iff (hc : IsLevel c.clientId) (hsession : IsLevel sessionId) :
    accepts (filter (Topics.topic "edgeguardian" c.clientId ("shell/" ++ sessionId ++ "/in")))
        (ofTopic levels) ↔ levels = deviceTopic c.clientId ["shell", sessionId, "in"] := by
  have hin : IsLevel "in" := isLevel_of_not_mem (by decide) (by decide) (by decide)
  rw [filter_topic, filter_root, hc, filter_shell "in" hsession (by decide) hin]
  show accepts (ofTopic (deviceTopic c.clientId ["shell", sessionId, "in"])) _ ↔ _
  exact ofTopic_accepts

theorem accepts_open_iff (hc : IsLevel c.clientId) :
    accepts (filter (Topics.topic "edgeguardian" c.clientId "shell/open")) (ofTopic levels) ↔
      levels = deviceTopic c.clientId ["shell", "open"] := by
  have hopen : filter "shell/open" = ofTopic ["shell", "open"] := by decide +kernel
  rw [filter_topic, filter_root, hc, hopen]
  show accepts (ofTopic (deviceTopic c.clientId ["shell", "open"])) _ ↔ _
  exact ofTopic_accepts

/-- The topic is one of a device only if the id is that of the device. -/
theorem words_topic_eq {rest : Topic} (hlen : (words suffix).length = rest.length)
    (h : words (Topics.topic "edgeguardian" deviceId suffix) = deviceTopic c.clientId rest) :
    deviceId = c.clientId ∧ words suffix = rest := by
  rw [words_topic, deviceTopic, List.append_cancel_left_eq, List.cons.injEq,
    and_iff_right rfl, ← List.singleton_append] at h
  obtain ⟨hid, hsuffix⟩ := List.append_inj' h hlen
  exact ⟨eq_of_words_eq_singleton hid, hsuffix⟩

end Topics

/-! ### The session service -/

section Service

variable {h : History} {shell shell' : ShellState} {sockets sockets' : List (ℕ × ShellSession)}
  {session : ShellSession}

/-- The device of a ticket was one of the organization. -/
def Issue.Owned (issue : Issue) : Prop :=
  (findByIdForOrganization issue.db issue.deviceId issue.principal.organizationId).isSome

/-- The session is the one of the ticket. -/
def Issue.IsFor (issue : Issue) (session : ShellSession) : Prop :=
  issue.sessionId = session.sessionId ∧ issue.deviceId = session.deviceId

/-- What the service and its sockets have was given out, and no ticket is accepted twice. -/
structure ServiceInv (h : History) (shell : ShellState) (sockets : List (ℕ × ShellSession)) :
    Prop where
  nodup : (h.issued.map Issue.sessionId).Nodup
  isLevel : ∀ issue ∈ h.issued, IsLevel issue.sessionId
  owned : ∀ issue ∈ h.issued, issue.Owned
  index : ∀ e ∈ shell.ticketIndex.rows, ∃ issue ∈ h.issued,
    issue.ticket = e.ticket ∧ issue.sessionId = e.sessionId
  sessions : ∀ session ∈ shell.sessions.rows, ∃ issue ∈ h.issued, issue.IsFor session
  waiting : ∀ e ∈ shell.ticketIndex.rows, e.ticket ∉ h.accepted.map Prod.snd
  accepted : ∀ ticket ∈ h.accepted.map Prod.snd, ticket ∈ h.issued.map Issue.ticket
  once : (h.accepted.map Prod.snd).Nodup
  sockets : ∀ p ∈ sockets, ∃ issue ∈ h.issued, issue.IsFor p.2 ∧ (p.1, issue.ticket) ∈ h.accepted

/-- No session and no ticket is added. -/
structure Shrinks (shell shell' : ShellState) : Prop where
  sessions : ∀ session ∈ shell'.sessions.rows, session ∈ shell.sessions.rows
  ticketIndex : ∀ e ∈ shell'.ticketIndex.rows, e ∈ shell.ticketIndex.rows

theorem Shrinks.of_removes {gone : ShellSession → Prop}
    (hremoves : ShellTickets.Removes gone shell shell') : Shrinks shell shell' :=
  ⟨fun session hs => ((hremoves.sessions session).mp hs).1,
    fun e he => ((hremoves.ticketIndex e).mp he).1⟩

theorem shrinks_close (env : Env) (sessionId reason : String) (s : Server) :
    Shrinks s.shell (Shell.close env sessionId reason s).shell :=
  .of_removes (ShellTickets.removes_close env sessionId reason s.db s.shell)

theorem shrinks_onEvent (env : Env) (payload : Option ShellEventPayload) (s : Server) :
    Shrinks s.shell (Shell.onEvent env payload s).shell := by
  rcases hends : payload.bind ShellEventPayload.ends with _ | ⟨sessionId, type⟩
  · rw [Shell.onEvent_of_not_ends hends]
    exact ⟨fun _ => id, fun _ => id⟩
  · rw [Shell.onEvent_of_ends hends]
    have hclose := shrinks_close env sessionId ("shell_" ++ type) s
    exact ⟨hclose.sessions, hclose.ticketIndex⟩

theorem shrinks_onOutput (topic : Topic) (data : List UInt8) (s : Server) :
    Shrinks s.shell (Shell.onOutput topic data s).shell := by
  rw [Shell.onOutput]
  split
  · exact ⟨fun _ => id, fun _ => id⟩
  · next sessionId _ =>
    exact .of_removes (ShellTickets.shell_deliverOutput sessionId data s.db s.shell)

theorem ServiceInv.shrinks (hs : ServiceInv h shell sockets) (hshrinks : Shrinks shell shell')
    (hsockets : sockets' ⊆ sockets) : ServiceInv h shell' sockets' :=
  { hs with
    index := fun e he => hs.index e (hshrinks.ticketIndex e he)
    sessions := fun session hmem => hs.sessions session (hshrinks.sessions session hmem)
    waiting := fun e he => hs.waiting e (hshrinks.ticketIndex e he)
    sockets := fun p hp => hs.sockets p (hsockets hp) }

/-- A ticket is given out. -/
theorem ServiceInv.added (hs : ServiceInv h shell sockets) {issue : Issue}
    (hlevel : IsLevel issue.sessionId) (howned : issue.Owned) (hfor : issue.IsFor session)
    (hfresh : ∀ i ∈ h.issued, i.sessionId ≠ issue.sessionId ∧ i.ticket ≠ issue.ticket) :
    ServiceInv { h with issued := h.issued ++ [issue] }
      (ShellTickets.added shell session issue.ticket) sockets where
  nodup := by
    rw [List.map_append, List.map_singleton, List.nodup_append]
    refine ⟨hs.nodup, List.nodup_singleton _, ?_⟩
    rintro _ hid _ hid' rfl
    obtain ⟨i, hi, heq⟩ := List.mem_map.mp hid
    exact (hfresh i hi).1 (heq.trans (List.mem_singleton.mp hid'))
  isLevel := List.forall_mem_append.mpr ⟨hs.isLevel, List.forall_mem_singleton.mpr hlevel⟩
  owned := List.forall_mem_append.mpr ⟨hs.owned, List.forall_mem_singleton.mpr howned⟩
  index e he := by
    rcases Table.mem_save.mp he with rfl | ⟨he, -⟩
    · exact ⟨issue, List.mem_append_right _ List.mem_cons_self, rfl, hfor.1⟩
    · obtain ⟨i, hi, heq⟩ := hs.index e he
      exact ⟨i, List.mem_append_left _ hi, heq⟩
  sessions t ht := by
    rcases Table.mem_save.mp ht with rfl | ⟨ht, -⟩
    · exact ⟨issue, List.mem_append_right _ List.mem_cons_self, hfor⟩
    · obtain ⟨i, hi, heq⟩ := hs.sessions t ht
      exact ⟨i, List.mem_append_left _ hi, heq⟩
  waiting e he := by
    rcases Table.mem_save.mp he with rfl | ⟨he, -⟩
    · intro hmem
      obtain ⟨i, hi, heq⟩ := List.mem_map.mp (hs.accepted _ hmem)
      exact (hfresh i hi).2 heq
    · exact hs.waiting e he
  accepted ticket hmem := by
    rw [List.map_append]
    exact List.mem_append_left _ (hs.accepted ticket hmem)
  once := hs.once
  sockets p hp := by
    obtain ⟨i, hi, heq⟩ := hs.sockets p hp
    exact ⟨i, List.mem_append_left _ hi, heq⟩

/-- A ticket is accepted: it is the one of the session that it opens. -/
theorem ServiceInv.opened (hs : ServiceInv h shell sockets) {entry : TicketEntry} {socket : ℕ}
    {now : Instant} (hentry : entry ∈ shell.ticketIndex.rows) (hmem : session ∈ shell.sessions.rows)
    (hid : session.sessionId = entry.sessionId) :
    ServiceInv { h with accepted := h.accepted ++ [(socket, entry.ticket)] }
      (ShellTickets.opened shell session entry.ticket now socket)
      ((socket, Shell.activated now socket session) :: sockets) where
  nodup := hs.nodup
  isLevel := hs.isLevel
  owned := hs.owned
  index e he := hs.index e (Table.mem_delete.mp he).1
  sessions t ht := by
    rcases Table.mem_save.mp ht with rfl | ⟨ht, -⟩
    · exact hs.sessions session hmem
    · exact hs.sessions t ht
  waiting e he := by
    obtain ⟨he, hne⟩ := Table.mem_delete.mp he
    rw [List.map_append, List.mem_append, not_or]
    exact ⟨hs.waiting e he, fun heq => hne (List.mem_singleton.mp heq)⟩
  accepted ticket hticket := by
    rw [List.map_append, List.mem_append] at hticket
    rcases hticket with hticket | hticket
    · exact hs.accepted ticket hticket
    · obtain ⟨issue, hissue, heq, -⟩ := hs.index entry hentry
      obtain rfl := List.mem_singleton.mp hticket
      exact List.mem_map.mpr ⟨issue, hissue, heq⟩
  once := by
    rw [List.map_append, List.map_singleton, List.nodup_append]
    refine ⟨hs.once, List.nodup_singleton _, ?_⟩
    rintro ticket hticket _ hmem' rfl
    obtain rfl : ticket = entry.ticket := List.mem_singleton.mp hmem'
    exact hs.waiting entry hentry hticket
  sockets := by
    refine List.forall_mem_cons.mpr ⟨?_, fun p hp => ?_⟩
    · obtain ⟨issue, hissue, hfor⟩ := hs.sessions session hmem
      obtain ⟨issue', hissue', hticket, hid'⟩ := hs.index entry hentry
      -- both are the ticket of the session
      obtain rfl : issue = issue' := List.inj_on_of_nodup_map hs.nodup hissue hissue'
        (hfor.1.trans (hid.trans hid'.symm))
      refine ⟨issue, hissue, hfor, List.mem_append_right _ ?_⟩
      rw [hticket]
      exact List.mem_cons_self
    · obtain ⟨issue, hissue, hfor, haccepted⟩ := hs.sockets p hp
      exact ⟨issue, hissue, hfor, List.mem_append_left _ haccepted⟩

/-- What is typed changes nothing. -/
theorem ServiceInv.typed (hs : ServiceInv h shell sockets) {typed : List (ℕ × List UInt8)} :
    ServiceInv { h with typed := typed } shell sockets :=
  ⟨hs.nodup, hs.isLevel, hs.owned, hs.index, hs.sessions, hs.waiting, hs.accepted, hs.once,
    hs.sockets⟩

variable {s : Server} {env : Env}

/-- `create` adds nothing and throws, or adds a session with its ticket for a device of the
organization. -/
theorem create_cases (props : ShellProperties) (env : Env) (principal : TenantPrincipal)
    (deviceId : String) (rows cols : ℤ) (fresh : Shell.ShellTicket) (s : Server) :
    (∃ e server, Shell.create props env principal deviceId rows cols fresh s = (.error e, server) ∧
      Shrinks s.shell server.shell) ∨
    ∃ session shell, Shell.create props env principal deviceId rows cols fresh s =
        (.ok fresh, { s with shell := ShellTickets.added shell session fresh.ticket }) ∧
      Shrinks s.shell shell ∧ session.sessionId = fresh.sessionId ∧ session.deviceId = deviceId ∧
      (findByIdForOrganization s.db deviceId principal.organizationId).isSome := by
  have hpurged : Shrinks s.shell (Shell.purgeExpired env.now s.shell) :=
    .of_removes (ShellTickets.removes_purgeExpired env.now s.shell)
  have hsame : Shrinks s.shell s.shell := ⟨fun _ => id, fun _ => id⟩
  rw [Shell.create]
  rcases hfind : findByIdForOrganization s.db deviceId principal.organizationId with _ | device
  · exact .inl ⟨_, _, rfl, hsame⟩
  · dsimp only
    split_ifs
    · exact .inl ⟨_, _, rfl, hsame⟩
    · rcases Shell.enforceLimits props deviceId principal.organizationId
        (Shell.purgeExpired env.now s.shell) with _ | e
      · exact .inr ⟨_, _, rfl, hpurged, rfl, rfl, rfl⟩
      · exact .inl ⟨_, _, rfl, hpurged⟩

/-- `activate` adds nothing and throws, or opens the session of the ticket. -/
theorem activate_cases (env : Env) (ticket : String) (socket : ℕ) (s : Server) :
    (∃ e server, Shell.activate env ticket socket s = (.error e, server) ∧
      Shrinks s.shell server.shell) ∨
    ∃ entry session db, Shell.activate env ticket socket s =
        (.ok (Shell.activated env.now socket session),
          ⟨db, ShellTickets.opened s.shell session ticket env.now socket⟩) ∧
      entry ∈ s.shell.ticketIndex.rows ∧ entry.ticket = ticket ∧
      session ∈ s.shell.sessions.rows ∧ session.sessionId = entry.sessionId := by
  rw [Shell.activate]
  rcases hentry : s.shell.ticketIndex.find? ticket with _ | entry
  · exact .inl ⟨_, _, rfl, fun _ => id, fun _ => id⟩
  dsimp only
  rcases hfind : s.shell.sessions.find? entry.sessionId with _ | session
  · exact .inl ⟨_, _, rfl, fun _ => id, fun e he => (Table.mem_delete.mp he).1⟩
  dsimp only
  split_ifs
  · exact .inl ⟨_, _, rfl, fun t ht => (Table.mem_delete.mp ht).1,
      fun e he => (Table.mem_delete.mp he).1⟩
  · exact .inr ⟨entry, session, _, rfl, Table.mem_of_find?_eq_some hentry,
      Table.key_of_find?_eq_some hentry, Table.mem_of_find?_eq_some hfind,
      Table.key_of_find?_eq_some hfind⟩

end Service

/-! ### The broker and the agents -/

section Transport

variable {json : OpenJson} {h h' : History} {broker : List Message}
  {subscribed subscribed' : List (Client × String)} {written : List Input} {m : Message}
  {c : Client} {sessionId : String}

/-- What the controller has sent. -/
inductive Sent (json : OpenJson) (h : History) : Message → Prop
  | opening {issue : Issue} {rows cols : ℤ} (hissue : issue ∈ h.issued) :
      Sent json h (publishRaw issue.deviceId "shell/open" (json.write issue.sessionId rows cols))
  | input {issue : Issue} {socket : ℕ} {data : List UInt8} (hissue : issue ∈ h.issued)
      (haccepted : (socket, issue.ticket) ∈ h.accepted) (htyped : (socket, data) ∈ h.typed) :
      Sent json h (publishRaw issue.deviceId ("shell/" ++ issue.sessionId ++ "/in") data)
  | control {issue : Issue} {data : List UInt8} (hissue : issue ∈ h.issued) :
      Sent json h (publishRaw issue.deviceId ("shell/" ++ issue.sessionId ++ "/ctl") data)

/-- The input was typed on a socket that has presented the ticket of the session. -/
def TypedFor (h : History) (w : Input) : Prop :=
  ∃ issue ∈ h.issued, ∃ socket, issue.sessionId = w.sessionId ∧ issue.deviceId = w.client.clientId ∧
    (socket, issue.ticket) ∈ h.accepted ∧ (socket, w.data) ∈ h.typed

/-- Messages with the name of the controller are its own, and agents know sessions of their own
devices only. -/
structure TransportInv (json : OpenJson) (h : History) (broker : List Message)
    (subscribed : List (Client × String)) (written : List Input) : Prop where
  permitted : ∀ m ∈ broker, m.publisher.username ≠ some "controller" →
    AccessRule.permits acl m.publisher .publish (ofTopic m.levels)
  sent : ∀ m ∈ broker, m.publisher.username = some "controller" → Sent json h m
  subscribed : ∀ p ∈ subscribed, ∃ issue ∈ h.issued,
    issue.deviceId = p.1.clientId ∧ issue.sessionId = p.2
  written : ∀ w ∈ written, TypedFor h w

/-- More has happened. -/
structure History.Le (h h' : History) : Prop where
  issued : h.issued ⊆ h'.issued
  accepted : h.accepted ⊆ h'.accepted
  typed : h.typed ⊆ h'.typed

theorem Sent.mono (hsent : Sent json h m) (hle : h.Le h') : Sent json h' m := by
  cases hsent with
  | opening hissue => exact .opening (hle.issued hissue)
  | input hissue haccepted htyped =>
    exact .input (hle.issued hissue) (hle.accepted haccepted) (hle.typed htyped)
  | control hissue => exact .control (hle.issued hissue)

theorem TransportInv.mono (ht : TransportInv json h broker subscribed written) (hle : h.Le h') :
    TransportInv json h' broker subscribed written where
  permitted := ht.permitted
  sent m hm hname := (ht.sent m hm hname).mono hle
  subscribed p hp := by
    obtain ⟨issue, hissue, hfor⟩ := ht.subscribed p hp
    exact ⟨issue, hle.issued hissue, hfor⟩
  written w hw := by
    obtain ⟨issue, hissue, socket, hid, hdevice, haccepted, htyped⟩ := ht.written w hw
    exact ⟨issue, hle.issued hissue, socket, hid, hdevice, hle.accepted haccepted,
      hle.typed htyped⟩

/-- The controller sends a message. -/
theorem TransportInv.append (ht : TransportInv json h broker subscribed written)
    (hsent : Sent json h m) : TransportInv json h (broker ++ [m]) subscribed written where
  permitted := by
    refine List.forall_mem_append.mpr ⟨ht.permitted, List.forall_mem_singleton.mpr fun hname => ?_⟩
    cases hsent <;> exact absurd rfl hname
  sent := List.forall_mem_append.mpr ⟨ht.sent, List.forall_mem_singleton.mpr fun _ => hsent⟩
  subscribed := ht.subscribed
  written := ht.written

/-- Messages that an agent receives are those of the controller. -/
theorem TransportInv.sent_of_receives (ht : TransportInv json h broker subscribed written)
    (hm : m ∈ broker) (hc : c.IsDevice) {suffix : String} (hreceives : Receives c suffix m) :
    Sent json h m := by
  refine ht.sent m hm ?_
  by_contra hname
  have hflows : Flows m.publisher m.levels c := ⟨ht.permitted m hm hname, _, hreceives⟩
  exact (controller_of_flows hflows).elim hname hc.not_controller

/-- A message to open a session is for a session of the device. -/
theorem Sent.open_of_receives (hsent : Sent json h m) (hc : c.IsDevice)
    (hlevels : ∀ issue ∈ h.issued, IsLevel issue.sessionId)
    (hreceives : Receives c "shell/open" m) : ∃ issue ∈ h.issued, issue.deviceId = c.clientId ∧
      ∃ rows cols, m.payload = json.write issue.sessionId rows cols := by
  have htopic := (accepts_open_iff hc.isLevel).mp hreceives.2
  have hlast : m.levels.getLast? = some "open" := by
    rw [htopic]
    rfl
  cases hsent with
  | opening hissue =>
    have hwords : words "shell/open" = ["shell", "open"] := by decide +kernel
    obtain ⟨hid, -⟩ := words_topic_eq (by rw [hwords]) htopic
    exact ⟨_, hissue, hid, _, _, rfl⟩
  | input hissue =>
    have hwords := words_input (hlevels _ hissue)
    rw [Message.levels, publishRaw, getLast?_topic hwords nofun] at hlast
    exact absurd hlast (by simp)
  | control hissue =>
    have hwords := words_control (hlevels _ hissue)
    rw [Message.levels, publishRaw, getLast?_topic hwords nofun] at hlast
    exact absurd hlast (by simp)

/-- Input of a session of the device was typed for it. -/
theorem Sent.typedFor_of_receives (hsent : Sent json h m) (hc : c.IsDevice)
    (hlevels : ∀ issue ∈ h.issued, IsLevel issue.sessionId) (hsession : IsLevel sessionId)
    (hreceives : Receives c ("shell/" ++ sessionId ++ "/in") m) :
    TypedFor h ⟨c, sessionId, m.payload⟩ := by
  have htopic := (accepts_input_iff hc.isLevel hsession).mp hreceives.2
  have hlast : m.levels.getLast? = some "in" := by
    rw [htopic]
    rfl
  cases hsent with
  | opening hissue =>
    have hwords : words "shell/open" = ["shell", "open"] := by decide +kernel
    rw [Message.levels, publishRaw, getLast?_topic hwords nofun] at hlast
    exact absurd hlast (by simp)
  | input hissue haccepted htyped =>
    have hwords := words_input (hlevels _ hissue)
    obtain ⟨hid, hrest⟩ := words_topic_eq (by rw [hwords]; rfl) htopic
    rw [hwords] at hrest
    obtain ⟨hsame, -⟩ := List.cons.inj (List.cons.inj hrest).2
    exact ⟨_, hissue, _, hsame, hid, haccepted, htyped⟩
  | control hissue =>
    have hwords := words_control (hlevels _ hissue)
    rw [Message.levels, publishRaw, getLast?_topic hwords nofun] at hlast
    exact absurd hlast (by simp)

end Transport

/-! ### Runs -/

section Runs

variable {json : OpenJson} {props : ShellProperties} {s t : State} {a : Action}

/-- The invariant. -/
structure Inv (json : OpenJson) (s : State) : Prop where
  service : ServiceInv s.history s.server.shell s.sockets
  transport : TransportInv json s.history s.broker s.subscribed s.written

theorem inv_initial {db : Db} : Inv json (.initial db) where
  service := ⟨List.nodup_nil, nofun, nofun, nofun, nofun, nofun, nofun, List.nodup_nil, nofun⟩
  transport := ⟨nofun, nofun, nofun, nofun⟩

/-- The session of a socket, with its ticket. -/
theorem Inv.issue_of_find? (hs : Inv json s) {socket : ℕ} {p : ℕ × ShellSession}
    (hfind : s.sockets.find? (fun p => p.1 = socket) = some p) :
    ∃ issue ∈ s.history.issued, issue.IsFor p.2 ∧ (socket, issue.ticket) ∈ s.history.accepted := by
  obtain rfl : p.1 = socket := by simpa using List.find?_some hfind
  exact hs.service.sockets p (List.mem_of_find?_eq_some hfind)

theorem Inv.create (hs : Inv json s) {env : Env} {principal : TenantPrincipal} {deviceId : String}
    {rows cols : ℤ} {fresh : Shell.ShellTicket}
    (hok : Allowed s (.create env principal deviceId rows cols fresh))
    (hstep : step json props s (.create env principal deviceId rows cols fresh) = some t) :
    Inv json t := by
  rcases create_cases props env principal deviceId rows cols fresh s.server with
    ⟨e, server, heq, hshrinks⟩ | ⟨session, shell, heq, hshrinks, hid, hdevice, howned⟩
  · simp only [step, heq] at hstep
    cases hstep
    exact ⟨hs.service.shrinks hshrinks (List.Subset.refl _), hs.transport⟩
  · simp only [step, heq] at hstep
    cases hstep
    let issue : Issue := ⟨fresh.sessionId, fresh.ticket, deviceId, principal, s.server.db⟩
    have hfor : issue.IsFor session := ⟨hid.symm, hdevice.symm⟩
    have hservice := hs.service.shrinks hshrinks (List.Subset.refl _)
    exact ⟨hservice.added hok.1 howned hfor hok.2,
      hs.transport.mono ⟨List.subset_append_left _ _, List.Subset.refl _, List.Subset.refl _⟩⟩

theorem Inv.connect (hs : Inv json s) {env : Env} {ticket : String} {socket : ℕ}
    (hstep : step json props s (.connect env ticket socket) = some t) : Inv json t := by
  rcases activate_cases env ticket socket s.server with
    ⟨e, server, heq, hshrinks⟩ | ⟨entry, session, db, heq, hentry, rfl, hmem, hid⟩
  · simp only [step, Shell.afterConnectionEstablished, heq] at hstep
    cases hstep
    exact ⟨hs.service.shrinks hshrinks (List.Subset.refl _), hs.transport⟩
  · simp only [step, Shell.afterConnectionEstablished, heq] at hstep
    cases hstep
    obtain ⟨issue, hissue, hsession, hdevice⟩ := hs.service.sessions session hmem
    have hsent : Sent json s.history
        (publishOpen json (Shell.activated env.now socket session)) := by
      rw [publishOpen, Shell.activated, ← hsession, ← hdevice]
      exact .opening hissue
    have hle : s.history.Le
        { s.history with accepted := s.history.accepted ++ [(socket, entry.ticket)] } :=
      ⟨List.Subset.refl _, List.subset_append_left _ _, List.Subset.refl _⟩
    have hopened : ServiceInv _ (ShellTickets.opened s.server.shell session entry.ticket env.now
        socket) _ := hs.service.opened hentry hmem hid
    exact ⟨hopened.shrinks ⟨fun _ => id, fun _ => id⟩ (List.Subset.refl _),
      (hs.transport.append hsent).mono hle⟩

/-- What is typed is sent with the ids of the session. -/
theorem Inv.binary (hs : Inv json s) {socket : ℕ} {data : List UInt8}
    (hstep : step json props s (.binary socket data) = some t) : Inv json t := by
  rcases hfind : s.sockets.find? (fun p => p.1 = socket) with _ | p
  · simp only [step, hfind] at hstep
    cases hstep
    exact hs
  · simp only [step, hfind] at hstep
    cases hstep
    obtain ⟨issue, hissue, ⟨hsession, hdevice⟩, haccepted⟩ := hs.issue_of_find? hfind
    let history : History :=
      { s.history with typed := s.history.typed ++ [(socket, data)] }
    have hle : s.history.Le history :=
      ⟨List.Subset.refl _, List.Subset.refl _, List.subset_append_left _ _⟩
    have hsent : Sent json history (publishInput p.2 data) := by
      rw [publishInput, ← hsession, ← hdevice]
      exact .input hissue haccepted (List.mem_append_right _ List.mem_cons_self)
    exact ⟨hs.service.typed, (hs.transport.mono hle).append hsent⟩

theorem Inv.sent_control (hs : Inv json s) {socket : ℕ} {p : ℕ × ShellSession}
    (hfind : s.sockets.find? (fun p => p.1 = socket) = some p) (data : List UInt8) :
    Sent json s.history (publishControl p.2 data) := by
  obtain ⟨issue, hissue, ⟨hsession, hdevice⟩, -⟩ := hs.issue_of_find? hfind
  rw [publishControl, ← hsession, ← hdevice]
  exact .control hissue

theorem Inv.receiveOpen (hs : Inv json s) {c : Client} {i : ℕ} {inOk ctlOk : Bool}
    (hc : c.IsDevice) (hstep : step json props s (.receiveOpen c i inOk ctlOk) = some t) :
    Inv json t := by
  obtain ⟨m, hm, hstep⟩ := Option.bind_eq_some_iff.mp hstep
  split_ifs at hstep with hreceives
  split at hstep
  · cases hstep
    exact hs
  · next req hopen =>
    cases hstep
    have hunmarshal : json.unmarshal m.payload = some req := by
      rw [Agent.Shell.handleOpen] at hopen
      split at hopen
      · cases hopen
      · next req' hreq =>
        split_ifs at hopen
        rw [hreq, hopen]
    have hsent := hs.transport.sent_of_receives (List.mem_of_getElem? hm) hc hreceives
    obtain ⟨issue, hissue, hdevice, rows, cols, hpayload⟩ :=
      hsent.open_of_receives hc hs.service.isLevel hreceives
    rw [hpayload] at hunmarshal
    refine ⟨hs.service, { hs.transport with subscribed := ?_ }⟩
    refine List.forall_mem_cons.mpr ⟨⟨issue, hissue, hdevice, ?_⟩, hs.transport.subscribed⟩
    exact (json.sessionID_of_unmarshal hunmarshal).symm

theorem Inv.receiveInput (hs : Inv json s) {c : Client} {sessionId : String} {i : ℕ}
    (hc : c.IsDevice) (hstep : step json props s (.receiveInput c sessionId i) = some t) :
    Inv json t := by
  obtain ⟨m, hm, hstep⟩ := Option.bind_eq_some_iff.mp hstep
  split_ifs at hstep with hreceives
  · cases hstep
    obtain ⟨issue, hissue, -, rfl⟩ := hs.transport.subscribed _ hreceives.1
    have hsent := hs.transport.sent_of_receives (List.mem_of_getElem? hm) hc hreceives.2
    have htyped := hsent.typedFor_of_receives hc hs.service.isLevel
      (hs.service.isLevel issue hissue) hreceives.2
    refine ⟨hs.service, { hs.transport with written := ?_ }⟩
    exact List.forall_mem_append.mpr ⟨hs.transport.written, List.forall_mem_singleton.mpr htyped⟩
  · cases hstep
    exact hs

theorem Inv.step (hs : Inv json s) (hok : Allowed s a)
    (hstep : TerminalInput.step json props s a = some t) : Inv json t := by
  cases a with
  | create => exact hs.create hok hstep
  | connect => exact hs.connect hstep
  | binary => exact hs.binary hstep
  | text socket data =>
    rcases hfind : s.sockets.find? (fun p => p.1 = socket) with _ | p
    · simp only [TerminalInput.step, hfind] at hstep
      cases hstep
      exact hs
    · simp only [TerminalInput.step, hfind] at hstep
      cases hstep
      exact ⟨hs.service, hs.transport.append (hs.sent_control hfind data)⟩
  | disconnect env socket =>
    rcases hfind : s.sockets.find? (fun p => p.1 = socket) with _ | p
    · simp only [TerminalInput.step, hfind] at hstep
      cases hstep
      exact hs
    · simp only [TerminalInput.step, hfind] at hstep
      cases hstep
      have hclose := shrinks_close env p.2.sessionId "ws_closed"
        (Shell.closeTerminal p.2.sessionId s.server)
      exact ⟨hs.service.shrinks ⟨hclose.sessions, hclose.ticketIndex⟩ (List.filter_subset_self _),
        hs.transport.append (hs.sent_control hfind closeJson)⟩
  | event env payload =>
    cases hstep
    exact ⟨hs.service.shrinks (shrinks_onEvent env payload s.server) (List.Subset.refl _),
      hs.transport⟩
  | output topic data =>
    cases hstep
    exact ⟨hs.service.shrinks (shrinks_onOutput topic data s.server) (List.Subset.refl _),
      hs.transport⟩
  | world db =>
    cases hstep
    exact ⟨hs.service, hs.transport⟩
  | publish m =>
    simp only [TerminalInput.step] at hstep
    split_ifs at hstep with hpermits
    cases hstep
    refine ⟨hs.service, { hs.transport with permitted := ?_, sent := ?_ }⟩
    · exact List.forall_mem_append.mpr
        ⟨hs.transport.permitted, List.forall_mem_singleton.mpr fun _ => hpermits⟩
    · exact List.forall_mem_append.mpr
        ⟨hs.transport.sent, List.forall_mem_singleton.mpr fun hname => absurd hname hok⟩
  | receiveOpen => exact hs.receiveOpen hok hstep
  | opened c sessionId =>
    simp only [TerminalInput.step] at hstep
    split_ifs at hstep
    cases hstep
    exact ⟨hs.service, hs.transport⟩
  | ended c sessionId =>
    cases hstep
    refine ⟨hs.service, { hs.transport with subscribed := fun p hp => ?_ }⟩
    exact hs.transport.subscribed p (List.mem_of_mem_filter hp)
  | receiveInput => exact hs.receiveInput hok hstep

theorem inv_of_reaches {db : Db}
    (h : Reaches (TerminalInput.step json props) Allowed (.initial db) s) : Inv json s :=
  h.invariant _ (fun hs hok hstep => hs.step hok hstep) inv_initial

/-- **Who types into the shell of a device.** What is written to the PTY of a session was typed on
the one socket that has presented the ticket of the session; this ticket was given out for the
device, to a user of its organization. -/
theorem typed_of_written {db : Db}
    (h : Reaches (TerminalInput.step json props) Allowed (.initial db) s) :
    ∀ w ∈ s.written, ∃ issue ∈ s.history.issued, ∃ socket,
      issue.sessionId = w.sessionId ∧ issue.deviceId = w.client.clientId ∧ issue.Owned ∧
      (socket, w.data) ∈ s.history.typed ∧
      ∀ socket', (socket', issue.ticket) ∈ s.history.accepted ↔ socket' = socket := by
  intro w hw
  have hs := inv_of_reaches h
  obtain ⟨issue, hissue, socket, hid, hdevice, haccepted, htyped⟩ := hs.transport.written w hw
  refine ⟨issue, hissue, socket, hid, hdevice, hs.service.owned issue hissue, htyped, ?_⟩
  intro socket'
  constructor
  · intro haccepted'
    have hsame := List.inj_on_of_nodup_map hs.service.once haccepted' haccepted rfl
    exact congrArg Prod.fst hsame
  · rintro rfl
    exact haccepted

end Runs

/-! ### A run -/

namespace Typing

/-- The request that is sent in the run. -/
def request : List UInt8 :=
  GoString.utf8 "\x7b\"sessionId\":\"s\",\"rows\":24,\"cols\":80\x7d".toList

def json : OpenJson where
  write sessionId rows cols :=
    if sessionId = "s" ∧ rows = 24 ∧ cols = 80 then request else []
  unmarshal payload := if payload = request then some ⟨"s", 24, 80, ""⟩ else none
  sessionID_of_unmarshal := by
    intro sessionId rows cols req h
    have hne : ([] : List UInt8) ≠ request := by decide +kernel
    split_ifs at h with hwritten
    obtain rfl := Option.some.inj h
    exact hwritten.1.symm

def props : ShellProperties := ⟨5, 20, 60⟩

def env : Env := ⟨0, 0, ""⟩

/-- The agent of the device `d`. -/
def agent : Client := ⟨none, "d"⟩

/-- A member of its organization asks for a session. -/
def first : Action := .create env ⟨1, 1⟩ "d" 24 80 ⟨"s", "t"⟩

/-- The browser connects, the session starts, and `ls` is typed. -/
def rest : List Action :=
  [.connect env "t" 7, .receiveOpen agent 0 true true, .opened agent "s", .binary 7 [108, 115, 10],
    .receiveInput agent "s" 1]

def typed : Option State :=
  (step json props (.initial ForgedRequest.devices) first).bind fun s =>
    exec (step json props) s rest

theorem isDevice_agent : agent.IsDevice :=
  ⟨nofun, nofun, isLevel_of_not_mem (by decide) (by decide) (by decide)⟩

theorem reaches_of_typed {s : State} (h : typed = some s) :
    Reaches (step json props) Allowed (.initial ForgedRequest.devices) s := by
  obtain ⟨s₁, hfirst, hrest⟩ := Option.bind_eq_some_iff.mp h
  have hok : Allowed (.initial ForgedRequest.devices) first :=
    ⟨isLevel_of_not_mem (by decide) (by decide) (by decide), nofun⟩
  refine .head ⟨first, hok, hfirst⟩ (reaches_of_exec (fun a ha s => ?_) hrest)
  simp only [rest, List.mem_cons, List.not_mem_nil, or_false] at ha
  rcases ha with rfl | rfl | rfl | rfl | rfl
  exacts [trivial, isDevice_agent, trivial, trivial, isDevice_agent]

end Typing

open Typing in
theorem typed_of_written_ls : ∃ s, typed = some s ∧ s.written = [⟨agent, "s", [108, 115, 10]⟩] ∧
    ∃ issue ∈ s.history.issued, ∃ socket, issue.sessionId = "s" ∧ issue.deviceId = "d" ∧
      issue.Owned ∧ (socket, [108, 115, 10]) ∈ s.history.typed ∧
      ∀ socket', (socket', issue.ticket) ∈ s.history.accepted ↔ socket' = socket := by
  have hwritten : typed.map (·.written) = some [⟨agent, "s", [108, 115, 10]⟩] := by
    decide +kernel
  obtain ⟨s, hs, hwritten⟩ := Option.map_eq_some_iff.mp hwritten
  have hmem : (⟨agent, "s", [108, 115, 10]⟩ : Input) ∈ s.written := by
    rw [hwritten]
    exact List.mem_cons_self
  exact ⟨s, hs, hwritten, typed_of_written (reaches_of_typed hs) _ hmem⟩

end EdgeGuardian.TerminalInput
