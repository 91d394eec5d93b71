import EdgeGuardian.Agent.Commands.Dispatcher
import EdgeGuardian.Agent.Model.DeviceManifest
import EdgeGuardian.Lib.Transition
import Mathlib.Data.List.Basic
import Mathlib.Logic.Function.Basic

/-!
# Subscriptions and handlers at start-up

When the MQTT client has connected, the library runs `onConnect` on a goroutine of its own: it
subscribes to the topics of the device one by one, and to `shell/open` only if the handler of shells
is set when it looks. Meanwhile `runAgent` goes on from `Connect` and sets the handlers. A message
is handed to the callback of its topic from the moment of the subscription; the callback decodes it,
reads the handler and, if there is none, returns.

A step is one of the operations that touch what is shared: a subscription, its acknowledgement, the
reading or setting of a handler, and the delivery of a message, which counts when the callback reads
the handler. The logs `delivered` and `calls` are no part of the client.

Source: `agent/internal/comms/mqtt_client.go`, lines 94–122, 384–496, `agent/cmd/agent/main.go`,
lines 154–217, `agent/cmd/agent/shell_wiring.go`, lines 29–41.

## Main definitions

* `callFor`: what a message asks for.
* `State`, `Action`, `step`: the client while it starts.
* `NoneLost`: every message got the call it asks for, and the shell is subscribed in the end.
* `HandlerFirst`: a handler is set before its topic is subscribed.

## Main results

* `noneLost_of_handlerFirst`: no message is lost along every run that sets handlers first.
* `lost_of_no_handler`: otherwise the next message is.
-/

namespace EdgeGuardian.Agent.Subscriptions

open GoJson Commands Model

/-! ### Messages -/

/-- The topics of a device to which the agent subscribes. -/
inductive Topic
  | command
  | stateDesired
  | certResponse
  | shellOpen
deriving DecidableEq, Repr

/-- The body of a message; `none` is one that is no JSON. -/
abbrev Payload := Option Json

/-- The response that `handleCertResponse` decodes. -/
structure CertResponse where
  name : String
  accepted : Bool
  message : String
  certPem : String
  caCertPem : String
deriving DecidableEq, Repr

namespace CertResponse

def fields : List (String × GoType) :=
  [("name", .string), ("accepted", .bool), ("message", .string), ("certPem", .string),
    ("caCertPem", .string)]

def zero : CertResponse := ⟨"", false, "", "", ""⟩

def store (json : Json) (old : CertResponse) : CertResponse :=
  let field (name : String) := storeField (fields.map Prod.fst) name storeString (membersOf json)
  { name := field "name" old.name
    accepted := storeField (fields.map Prod.fst) "accepted" storeBool (membersOf json) old.accepted
    message := field "message" old.message
    certPem := field "certPem" old.certPem
    caCertPem := field "caCertPem" old.caCertPem }

/-- `json.Unmarshal`; `none` is an error. -/
def unmarshal (body : Json) : Option CertResponse :=
  if (GoType.struct fields).accepts body then some (store body zero) else none

end CertResponse

/-- The call of a handler. -/
inductive Call
  | command (cmd : Command)
  | desiredState (manifest : DeviceManifest)
  | certResponse (name certPem caCertPem : String)
  | shellOpen (payload : Payload)
deriving DecidableEq, Repr

/-- The call that a message on the topic asks for: none if it is not decoded, or if it says that a
certificate was refused. -/
def callFor (topic : Topic) (payload : Payload) : Option Call :=
  match topic with
  | .command => (payload.bind decodeCommandMessage).map .command
  | .stateDesired => (payload.bind unmarshalManifest).map .desiredState
  | .certResponse => ((payload.bind CertResponse.unmarshal).filter (·.accepted)).map fun resp =>
      .certResponse resp.name resp.certPem resp.caCertPem
  | .shellOpen => some (.shellOpen payload)

/-! ### The client -/

/-- The program point of `onConnect`. -/
inductive ConnectPc
  /-- The client has not connected. -/
  | idle
  /-- Before `client.Subscribe`. -/
  | subscribing (topic : Topic)
  /-- Before `token.WaitTimeout` returns. -/
  | waiting (topic : Topic)
  /-- Before `mc.shellOpenHandler` is read. -/
  | reading
  | done
deriving DecidableEq, Repr

/-- What `onConnect` does after a subscription. -/
def ConnectPc.after : Topic → ConnectPc
  | .command => .subscribing .stateDesired
  | .stateDesired => .subscribing .certResponse
  | .certResponse => .reading
  | .shellOpen => .done

/-- The topic to which `onConnect` is about to subscribe. -/
def ConnectPc.topic : ConnectPc → Option Topic
  | .subscribing topic => some topic
  | _ => none

/-- The client, `onConnect` and `runAgent`. -/
structure State where
  /-- Which handlers are not `nil`. -/
  handlers : Topic → Bool
  /-- The topics with a callback. -/
  routes : Topic → Bool
  /-- The subscriptions that the broker has acknowledged. -/
  subscribed : Topic → Bool
  connect : ConnectPc
  /-- The handlers that `runAgent` has still to set. -/
  unset : List Topic
  /-- The messages that a callback was called with. -/
  delivered : List (Topic × Payload)
  calls : List Call

/-- The agent before it connects. `runAgent` sets the handlers in the order of the list. -/
def start : State where
  handlers := fun _ => false
  routes := fun _ => false
  subscribed := fun _ => false
  connect := .idle
  unset := [.certResponse, .stateDesired, .command, .shellOpen]
  delivered := []
  calls := []

/-- A callback: it decodes the message, and calls the handler if there is one. -/
def State.handle (s : State) (topic : Topic) (payload : Payload) (handler : Bool) : State :=
  { s with
    delivered := s.delivered ++ [(topic, payload)]
    calls := s.calls ++ if handler then (callFor topic payload).toList else [] }

/-- `handleCommand`. -/
def State.handleCommand (s : State) (payload : Payload) : State :=
  s.handle .command payload (s.handlers .command)

/-- `handleDesiredState`. -/
def State.handleDesiredState (s : State) (payload : Payload) : State :=
  s.handle .stateDesired payload (s.handlers .stateDesired)

/-- `handleCertResponse`. -/
def State.handleCertResponse (s : State) (payload : Payload) : State :=
  s.handle .certResponse payload (s.handlers .certResponse)

/-- The callback of `shell/open`, which calls the handler that `onConnect` has read. -/
def State.handleShellOpen (s : State) (payload : Payload) : State :=
  s.handle .shellOpen payload true

/-- The callback of a topic. -/
def State.callback (s : State) : Topic → Payload → State
  | .command => s.handleCommand
  | .stateDesired => s.handleDesiredState
  | .certResponse => s.handleCertResponse
  | .shellOpen => s.handleShellOpen

inductive Action
  /-- The client has connected, at first or again; the broker may have kept its subscriptions. -/
  | connected (session : Bool)
  /-- `onConnect` subscribes, which sets the callback. -/
  | subscribe
  /-- `onConnect` has waited for the broker, which has acknowledged the subscription or not. -/
  | waited (ok : Bool)
  /-- `onConnect` reads `mc.shellOpenHandler`. -/
  | readShellOpenHandler
  /-- `runAgent` sets the next handler. -/
  | setHandler
  /-- The callback of the topic is called. -/
  | deliver (topic : Topic) (payload : Payload)
deriving DecidableEq, Repr

/-- One step. -/
def step (s : State) : Action → Option State
  | .connected session =>
    match s.connect with
    | .idle | .done =>
      some { s with
        connect := .subscribing .command
        subscribed := fun topic => session && s.subscribed topic }
    | _ => none
  | .subscribe =>
    match s.connect with
    | .subscribing topic =>
      some { s with connect := .waiting topic, routes := Function.update s.routes topic true }
    | _ => none
  | .waited ok =>
    match s.connect with
    | .waiting topic =>
      some { s with
        connect := .after topic
        subscribed := Function.update s.subscribed topic (ok || s.subscribed topic) }
    | _ => none
  | .readShellOpenHandler =>
    match s.connect with
    | .reading =>
      some { s with
        connect := if s.handlers .shellOpen then .subscribing .shellOpen else .done }
    | _ => none
  | .setHandler =>
    match s.connect, s.unset with
    | .idle, _ | _, [] => none
    | _, topic :: unset =>
      some { s with handlers := Function.update s.handlers topic true, unset }
  | .deliver topic payload => if s.routes topic then some (s.callback topic payload) else none

/-- Every message that a callback was called with got the call that it asks for, and when
`onConnect` and `runAgent` are through, the agent is subscribed to `shell/open`. -/
structure NoneLost (s : State) : Prop where
  calls : s.calls = s.delivered.filterMap fun d => callFor d.1 d.2
  shell : s.connect = .done → s.unset = [] → s.subscribed .shellOpen

/-- The step does not run ahead of the handlers: a topic is subscribed when its handler is set,
`onConnect` looks for the handler of shells when it is set, and the broker acknowledges the
subscription to `shell/open`. -/
def HandlerFirst (s : State) : Action → Prop
  | .subscribe => ∀ topic ∈ s.connect.topic, s.handlers topic
  | .readShellOpenHandler => s.handlers .shellOpen
  | .waited ok => s.connect = .waiting .shellOpen → ok
  | _ => True

instance (s : State) : ∀ a, Decidable (HandlerFirst s a)
  | .subscribe => inferInstanceAs (Decidable (∀ topic ∈ s.connect.topic, s.handlers topic))
  | .readShellOpenHandler => inferInstanceAs (Decidable (s.handlers .shellOpen))
  | .waited ok => inferInstanceAs (Decidable (s.connect = .waiting .shellOpen → ok))
  | .connected _ | .setHandler | .deliver _ _ => inferInstanceAs (Decidable True)

/-! ### What a delivery does -/

theorem callback_eq (s : State) (topic : Topic) (payload : Payload) :
    s.callback topic payload =
      s.handle topic payload (topic = .shellOpen || s.handlers topic) := by
  cases topic <;> rfl

/-- What the logs must say after one more message. -/
theorem filterMap_delivered_append (s : State) (topic : Topic) (payload : Payload) :
    (s.delivered ++ [(topic, payload)]).filterMap (fun d => callFor d.1 d.2) =
      s.delivered.filterMap (fun d => callFor d.1 d.2) ++ (callFor topic payload).toList := by
  rw [List.filterMap_append]
  cases h : callFor topic payload <;> simp [h]

/-! ### The invariant -/

/-- Every topic with a callback has its handler, so that nothing was lost, and the agent is
subscribed to `shell/open` whenever `onConnect` is through. -/
structure Inv (s : State) : Prop where
  routed : ∀ topic, s.routes topic → s.handlers topic
  calls : s.calls = s.delivered.filterMap fun d => callFor d.1 d.2
  shell : s.connect = .done → s.subscribed .shellOpen

theorem inv_start : Inv start where
  routed := fun _ h => nomatch h
  calls := rfl
  shell := fun h => nomatch h

section Step

variable {s t : State}

theorem Inv.connected (h : Inv s) {session : Bool} (hs : step s (.connected session) = some t) :
    Inv t := by
  simp only [step] at hs
  split at hs
  · cases hs
    exact ⟨h.routed, h.calls, fun hdone => nomatch hdone⟩
  · cases hs
    exact ⟨h.routed, h.calls, fun hdone => nomatch hdone⟩
  · cases hs

theorem Inv.subscribe (h : Inv s) (hfirst : HandlerFirst s .subscribe)
    (hs : step s .subscribe = some t) : Inv t := by
  simp only [step] at hs
  split at hs
  · next topic hconnect =>
    cases hs
    refine ⟨fun topic' hroute => ?_, h.calls, fun hdone => nomatch hdone⟩
    by_cases htopic : topic' = topic
    · exact htopic ▸ hfirst topic (hconnect ▸ rfl)
    · have hroute' : Function.update s.routes topic true topic' = true := hroute
      rw [Function.update_of_ne htopic] at hroute'
      exact h.routed topic' hroute'
  · cases hs

theorem Inv.waited (h : Inv s) {ok : Bool} (hfirst : HandlerFirst s (.waited ok))
    (hs : step s (.waited ok) = some t) : Inv t := by
  simp only [step] at hs
  split at hs
  · next topic hconnect =>
    cases hs
    refine ⟨h.routed, h.calls, fun hdone => ?_⟩
    -- only the last subscription ends `onConnect`
    have htopic : topic = .shellOpen := by
      cases topic with
      | shellOpen => rfl
      | command | stateDesired | certResponse => cases hdone
    subst htopic
    have hok : ok = true := hfirst hconnect
    simp [hok]
  · cases hs

theorem Inv.readShellOpenHandler (h : Inv s) (hfirst : HandlerFirst s .readShellOpenHandler)
    (hs : step s .readShellOpenHandler = some t) : Inv t := by
  have hset : s.handlers .shellOpen = true := hfirst
  simp only [step, hset, if_true] at hs
  split at hs
  · cases hs
    exact ⟨h.routed, h.calls, fun hdone => nomatch hdone⟩
  · cases hs

theorem Inv.setHandler (h : Inv s) (hs : step s .setHandler = some t) : Inv t := by
  simp only [step] at hs
  split at hs
  · cases hs
  · cases hs
  · next topic unset _ _ =>
    cases hs
    refine ⟨fun topic' hroute => ?_, h.calls, h.shell⟩
    change Function.update s.handlers topic true topic' = true
    by_cases htopic : topic' = topic
    · rw [htopic, Function.update_self]
    · rw [Function.update_of_ne htopic]
      exact h.routed topic' hroute

theorem Inv.deliver (h : Inv s) {topic : Topic} {payload : Payload}
    (hs : step s (.deliver topic payload) = some t) : Inv t := by
  simp only [step] at hs
  split_ifs at hs with hroute
  cases hs
  have hhandler : (topic = .shellOpen || s.handlers topic) = true := by
    rw [h.routed topic hroute, Bool.or_true]
  rw [callback_eq, hhandler]
  refine ⟨h.routed, ?_, h.shell⟩
  rw [State.handle, filterMap_delivered_append, ← h.calls, if_pos rfl]

theorem Inv.step {a : Action} (h : Inv s) (hfirst : HandlerFirst s a)
    (hs : Subscriptions.step s a = some t) : Inv t := by
  cases a with
  | connected session => exact h.connected hs
  | subscribe => exact h.subscribe hfirst hs
  | waited ok => exact h.waited hfirst hs
  | readShellOpenHandler => exact h.readShellOpenHandler hfirst hs
  | setHandler => exact h.setHandler hs
  | deliver topic payload => exact h.deliver hs

end Step

/-- **No message is lost for want of a handler.** In every state that is reached by steps that do
not run ahead of the handlers, every message got its call, and the agent is subscribed to
`shell/open` once `onConnect` and `runAgent` are through. -/
theorem noneLost_of_handlerFirst {s : State}
    (h : Transition.Reaches step HandlerFirst start s) : NoneLost s := by
  have hinv : Inv s := Transition.Reaches.invariant Inv Inv.step h inv_start
  exact ⟨hinv.calls, fun hdone _ => hinv.shell hdone⟩

/-- Where a topic has a callback and no handler, the next message that asks for a call is lost. -/
theorem lost_of_no_handler {s : State} {topic : Topic} (hroute : s.routes topic)
    (hnil : s.handlers topic = false) (hshell : topic ≠ .shellOpen)
    (hcalls : s.calls = s.delivered.filterMap fun d => callFor d.1 d.2) {payload : Payload}
    {call : Call} (hcall : callFor topic payload = some call) :
    ∃ t, step s (.deliver topic payload) = some t ∧ ¬ NoneLost t := by
  refine ⟨s.callback topic payload, if_pos hroute, fun hnone => ?_⟩
  have hlogs := hnone.calls
  rw [callback_eq, hnil, decide_eq_false hshell, Bool.or_false, State.handle,
    filterMap_delivered_append, ← hcalls, hcall] at hlogs
  have hlength := congrArg List.length hlogs
  simp at hlength

/-! ### A command after the connection -/

section Command

/-- A command to restart. -/
def restartPayload : Payload :=
  some (.obj [("command", .obj [("id", .str "cmd-42"), ("type", .str "restart")])])

/-- `onConnect` up to the acknowledgement of the third subscription. -/
def subscribeThree : List Action :=
  [.subscribe, .waited true, .subscribe, .waited true, .subscribe, .waited true]

/-- `runAgent` sets its handlers. -/
def setHandlers : List Action := [.setHandler, .setHandler, .setHandler, .setHandler]

/-- When `runAgent` is faster than `onConnect`, the command is carried out and shells can be
opened. -/
theorem noneLost_of_handlers_set_at_once :
    ∃ s, Transition.Reaches step HandlerFirst start s ∧ s.connect = .done ∧ s.unset = [] ∧
      s.calls = [.command ⟨"cmd-42", "restart", [], none, none, 0⟩] ∧ NoneLost s := by
  have hrun : ∃ s, Transition.Reaches step HandlerFirst start s ∧ s.connect = .done ∧
      s.unset = [] ∧ s.calls = [.command ⟨"cmd-42", "restart", [], none, none, 0⟩] :=
    Transition.exists_reaches_of_execBy
      ([Action.connected true] ++ setHandlers ++ subscribeThree ++
        [Action.readShellOpenHandler, .subscribe, .waited true, .deliver .command restartPayload])
      (by decide +kernel)
  obtain ⟨s, hs, hdone, hunset, hcalls⟩ := hrun
  exact ⟨s, hs, hdone, hunset, hcalls, noneLost_of_handlerFirst hs⟩

/-- When `onConnect` is faster, the command that has waited for the agent is dropped, and the agent
is not subscribed to `shell/open` after both are through. -/
theorem command_lost_and_no_shell :
    ∃ s, Transition.Reachable step start s ∧ s.connect = .done ∧ s.unset = [] ∧
      s.delivered = [(.command, restartPayload)] ∧ s.calls = [] ∧
      s.subscribed .shellOpen = false ∧ ¬ NoneLost s := by
  have hrun : ∃ s, Transition.Reachable step start s ∧ s.connect = .done ∧ s.unset = [] ∧
      s.delivered = [(.command, restartPayload)] ∧ s.calls = [] ∧
      s.subscribed .shellOpen = false :=
    Transition.exists_reaches_of_execBy
      ([Action.connected true, .subscribe, .deliver .command restartPayload] ++
        subscribeThree.tail ++ [Action.readShellOpenHandler] ++ setHandlers)
      (by decide +kernel)
  obtain ⟨s, hs, hdone, hunset, hdelivered, hcalls, hshell⟩ := hrun
  refine ⟨s, hs, hdone, hunset, hdelivered, hcalls, hshell, fun hnone => ?_⟩
  have hsubscribed : s.subscribed .shellOpen = true := hnone.shell hdone hunset
  rw [hshell] at hsubscribed
  cases hsubscribed

end Command

end EdgeGuardian.Agent.Subscriptions
