import EdgeGuardian.Controller.Shell
import EdgeGuardian.Lib.Pool
import EdgeGuardian.Lib.Transition
import EdgeGuardian.Lib.WeakIteration

/-!
# Concurrent calls of the session service

The session service is called by the threads of web requests, of sockets and of the MQTT client. Its
two maps are concurrent ones, and the fields of a session are volatile; nothing holds a lock over
more than one operation on a map. A step is one operation on a map, one visit of an iteration over a
map, one read of a field that a branch depends on, one write of a field, or one entry in the audit
log. Steps of all calls interleave in any way, and clock readings are arbitrary.

A session object stays where it is when its entry is taken out of the map. The heap keeps all
sessions that have been created. Session ids are random, and never the same twice. What a call
returns or throws is left out, also the `NullPointerException` of a call that finds a field cleared
or not yet written between two reads.

Source: `controller/src/main/java/com/edgeguardian/controller/service/ShellSessionService.java`,
`service/ShellSession.java`.

## Main definitions

* `State`, `Pc`, `Action`, `step`: the service with the calls in progress.
* `Sound`: the limits are kept, and every session that was opened is in the map, or in the hands of
  one call of `close`, or has one `shell_closed`.
* `Undisturbed`: the interleavings that do not break a check-then-act sequence.

What holds along undisturbed runs is proved in `EdgeGuardian.Controller.ShellConcurrency.Limits`.
-/

namespace EdgeGuardian.Controller.ShellConcurrency

open Transition

/-! ### State -/

/-- What a limit counts. -/
inductive Scope
  | device (deviceId : String)
  | organization (organizationId : OrganizationId)
deriving DecidableEq, Repr

/-- The predicate of `countBy`. -/
def Scope.contains : Scope → ShellSession → Bool
  | .device deviceId, session => session.deviceId = deviceId
  | .organization organizationId, session => session.organizationId = organizationId

/-- The limit of `enforceLimits`. -/
def Scope.limit (props : ShellProperties) : Scope → ℕ
  | .device _ => props.maxSessionsPerDevice
  | .organization _ => props.maxSessionsPerOrg

/-- The arguments of `create`. -/
structure Creation where
  principal : TenantPrincipal
  deviceId : String
  rows : ℤ
  cols : ℤ
deriving DecidableEq, Repr

/-- The scopes whose limits `create` checks. -/
def Creation.scopes (c : Creation) : List Scope :=
  [.device c.deviceId, .organization c.principal.organizationId]

/-- Where a call is: what it does next. -/
inductive Pc
  /-- The iteration of `purgeExpired`. -/
  | purging (c : Creation) (now : Instant) (w : WeakIteration String)
  /-- `s.ticket != null`, for an expired session. -/
  | purgeTicket (c : Creation) (now : Instant) (w : WeakIteration String) (id : String)
  /-- `ticketIndex.remove(s.ticket)`. -/
  | purgeIndex (c : Creation) (now : Instant) (w : WeakIteration String) (id : String)
  /-- The removal of the expired session. -/
  | purgeRemove (c : Creation) (now : Instant) (w : WeakIteration String) (id : String)
  /-- The first `countBy` of `enforceLimits`. -/
  | countDevice (c : Creation) (w : WeakIteration String)
  /-- The second `countBy` of `enforceLimits`. -/
  | countOrg (c : Creation) (w : WeakIteration String)
  /-- `sessions.put`. -/
  | put (c : Creation)
  /-- `ticketIndex.put`. -/
  | index (id ticket : String)
  /-- `sessions.get`. -/
  | get (id : String) (sink : ℕ)
  /-- The look at the clock in `activate`. -/
  | check (id : String) (sink : ℕ)
  /-- `sessions.remove` of a session whose ticket has expired. -/
  | expired (id : String)
  | clearTicket (id : String) (sink : ℕ)
  | setActive (id : String) (sink : ℕ)
  | setOpenedAt (id : String) (sink : ℕ)
  | setSink (id : String) (sink : ℕ)
  | logOpened (id : String)
  /-- `session.ticket != null` in `close`. -/
  | closeTicket (id reason : String)
  /-- `ticketIndex.remove(session.ticket)` in `close`. -/
  | closeIndex (id reason : String)
  /-- `session.active` in `close`. -/
  | closeActive (id reason : String)
  | closeLog (id reason : String)
deriving DecidableEq

/-- The entries of the audit log. -/
inductive Audit
  | shellOpened (organizationId : OrganizationId) (userId : UserId) (deviceId sessionId : String)
  | shellClosed (organizationId : OrganizationId) (userId : UserId) (deviceId sessionId : String)
      (duration : ℤ) (reason : String)
deriving DecidableEq, Repr

/-- The heap, the maps, the calls in progress, and the audit log. -/
structure State where
  heap : String → Option ShellSession
  sessions : Finset String
  ticketIndex : Table TicketEntry TicketEntry.ticket
  calls : List Pc
  audit : List Audit

/-- The service has started. -/
def State.initial : State where
  heap _ := none
  sessions := ∅
  ticketIndex := .empty
  calls := []
  audit := []

/-- A call begins, an iteration visits a session, or a call goes on. A call that goes on is given a
clock reading and random values, if it needs them. -/
inductive Action
  | create (db : Db) (c : Creation) (now : Instant)
  | activate (ticket : String) (sink : ℕ)
  | close (id reason : String)
  | visit (i : ℕ) (id : String)
  | next (i : ℕ) (now : Instant) (fresh : Shell.ShellTicket)

/-! ### Steps -/

section Steps

variable (props : ShellProperties) (s : State)

/-- Write a field of a session. -/
def State.write (id : String) (f : ShellSession → ShellSession) : State :=
  { s with heap := Function.update s.heap id ((s.heap id).map f) }

/-- The session is one that the limit counts. -/
def State.contains (scope : Scope) (id : String) : Bool := (s.heap id).any scope.contains

/-- What `countBy` returns for the sessions visited. -/
def State.countBy (scope : Scope) (w : WeakIteration String) : ℕ :=
  (w.seen.filter fun id => s.contains scope id).card

/-- The session that `create` puts. -/
def newSession (c : Creation) (now : Instant) (fresh : Shell.ShellTicket) : ShellSession where
  sessionId := fresh.sessionId
  deviceId := c.deviceId
  organizationId := c.principal.organizationId
  userId := c.principal.userId
  createdAt := now
  rows := c.rows
  cols := c.cols
  ticket := some fresh.ticket
  ticketExpiresAt := some (now + props.ticketTtl)
  active := false
  openedAt := none
  sink := none

/-- A visit of an iteration. -/
def visit (id : String) : Pc → Option Pc
  | .purging c now w =>
    if w.MayVisit s.sessions id then
      if (s.heap id).any fun session => Shell.Expired now session then
        some (.purgeTicket c now (w.visit id) id)
      else some (.purging c now (w.visit id))
    else none
  | .countDevice c w =>
    if w.MayVisit s.sessions id then some (.countDevice c (w.visit id)) else none
  | .countOrg c w =>
    if w.MayVisit s.sessions id then some (.countOrg c (w.visit id)) else none
  | _ => none

/-- A call goes on: the state then, and what the call does next, if anything. -/
def advance (now : Instant) (fresh : Shell.ShellTicket) : Pc → Option (State × Option Pc)
  | .purging c _ w =>
    if w.Done s.sessions then some (s, some (.countDevice c (.start s.sessions))) else none
  | .purgeTicket c t w id =>
    if ((s.heap id).bind ShellSession.ticket).isSome then some (s, some (.purgeIndex c t w id))
    else some (s, some (.purgeRemove c t w id))
  | .purgeIndex c t w id =>
    match (s.heap id).bind ShellSession.ticket with
    | none => some (s, none)
    | some ticket =>
      some ({ s with ticketIndex := s.ticketIndex.delete fun e => e.ticket = ticket },
        some (.purgeRemove c t w id))
  | .purgeRemove c t w id =>
    some ({ s with sessions := s.sessions.erase id }, some (.purging c t w))
  | .countDevice c w =>
    if w.Done s.sessions then
      if props.maxSessionsPerDevice ≤ s.countBy (.device c.deviceId) w then some (s, none)
      else some (s, some (.countOrg c (.start s.sessions)))
    else none
  | .countOrg c w =>
    if w.Done s.sessions then
      if props.maxSessionsPerOrg ≤ s.countBy (.organization c.principal.organizationId) w then
        some (s, none)
      else some (s, some (.put c))
    else none
  | .put c =>
    if s.heap fresh.sessionId = none then
      some ({ s with
        heap := Function.update s.heap fresh.sessionId (some (newSession props c now fresh))
        sessions := insert fresh.sessionId s.sessions },
        some (.index fresh.sessionId fresh.ticket))
    else none
  | .index id ticket => some ({ s with ticketIndex := s.ticketIndex.save ⟨ticket, id⟩ }, none)
  | .get id sink =>
    if id ∈ s.sessions then some (s, some (.check id sink)) else some (s, none)
  | .check id sink =>
    if ((s.heap id).bind ShellSession.ticketExpiresAt).any fun e => e < now then
      some (s, some (.expired id))
    else some (s, some (.clearTicket id sink))
  | .expired id => some ({ s with sessions := s.sessions.erase id }, none)
  | .clearTicket id sink =>
    some (s.write id fun session => { session with ticket := none }, some (.setActive id sink))
  | .setActive id sink =>
    some (s.write id fun session => { session with active := true }, some (.setOpenedAt id sink))
  | .setOpenedAt id sink =>
    some (s.write id fun session => { session with openedAt := some now }, some (.setSink id sink))
  | .setSink id sink =>
    some (s.write id fun session => { session with sink := some sink }, some (.logOpened id))
  | .logOpened id =>
    (s.heap id).map fun session =>
      ({ s with
        audit := s.audit ++
          [.shellOpened session.organizationId session.userId session.deviceId id] }, none)
  | .closeTicket id reason =>
    if ((s.heap id).bind ShellSession.ticket).isSome then some (s, some (.closeIndex id reason))
    else some (s, some (.closeActive id reason))
  | .closeIndex id reason =>
    match (s.heap id).bind ShellSession.ticket with
    | none => some (s, none)
    | some ticket =>
      some ({ s with ticketIndex := s.ticketIndex.delete fun e => e.ticket = ticket },
        some (.closeActive id reason))
  | .closeActive id reason =>
    if (s.heap id).any ShellSession.active then some (s, some (.closeLog id reason))
    else some (s, none)
  | .closeLog id reason =>
    (s.heap id).map fun session =>
      match session.openedAt with
      | none => (s, none)
      | some openedAt =>
        ({ s with
          audit := s.audit ++
            [.shellClosed session.organizationId session.userId session.deviceId id
              (now - openedAt) reason] }, none)

/-- One step. -/
def step (s : State) : Action → Option State
  | .create db c now =>
    match findByIdForOrganization db c.deviceId c.principal.organizationId with
    | none => some s
    | some device =>
      if device.state ≠ .online then some s
      else some { s with calls := s.calls ++ [.purging c now (.start s.sessions)] }
  | .activate ticket sink =>
    match s.ticketIndex.find? ticket with
    | none => some s
    | some e =>
      some { s with
        ticketIndex := s.ticketIndex.delete fun e => e.ticket = ticket
        calls := s.calls ++ [.get e.sessionId sink] }
  | .close id reason =>
    if id ∈ s.sessions then
      some { s with
        sessions := s.sessions.erase id
        calls := s.calls ++ [.closeTicket id reason] }
    else some s
  | .visit i id =>
    (s.calls[i]?.bind (visit s id)).map fun pc =>
      { s with calls := Pool.update s.calls i (some pc) }
  | .next i now fresh =>
    (s.calls[i]?.bind (advance props s now fresh)).map fun r =>
      { r.1 with calls := Pool.update s.calls i r.2 }

end Steps

/-! ### What there is of a session -/

/-- What a call has to do with a session. -/
inductive Stage
  /-- It is on the way to make an activation possible, or has taken the ticket. -/
  | pending
  /-- `activate` has the session, and has not written when it was opened. -/
  | early
  /-- `activate` has written when the session was opened, and has not logged it. -/
  | late
  /-- `close` has taken the session out of the map. -/
  | closing
deriving DecidableEq, Repr

/-- The session that a call is about, with its stage. -/
def Pc.holds : Pc → Option (Stage × String)
  | .index id _ | .get id _ | .expired id => some (.pending, id)
  | .check id _ | .clearTicket id _ | .setActive id _ | .setOpenedAt id _ => some (.early, id)
  | .setSink id _ | .logOpened id => some (.late, id)
  | .closeTicket id _ | .closeIndex id _ | .closeActive id _ | .closeLog id _ => some (.closing, id)
  | _ => none

/-- Whether a call is about the session `id` in the stage. -/
def Pc.weight (stage : Stage) (id : String) (pc : Pc) : ℕ :=
  if pc.holds = some (stage, id) then 1 else 0

/-- The entry is a `shell_opened` of the session. -/
def Audit.opens (id : String) : Audit → Bool
  | .shellOpened _ _ _ id' => id' = id
  | .shellClosed .. => false

/-- The entry is a `shell_closed` of the session. -/
def Audit.closes (id : String) : Audit → Bool
  | .shellOpened .. => false
  | .shellClosed _ _ _ id' _ _ => id' = id

namespace State

variable (s : State) (id : String)

/-- Whether the session is in the map. -/
def present : ℕ := if id ∈ s.sessions then 1 else 0

/-- The number of tickets of the session in the index. -/
def indexed : ℕ := s.ticketIndex.rows.countP fun e => e.sessionId = id

/-- The number of calls that are about the session in the stage. -/
def held (stage : Stage) : ℕ := Pool.load (Pc.weight stage id) s.calls

/-- The number of `shell_opened` of the session. -/
def opened : ℕ := s.audit.countP (Audit.opens id)

/-- The number of `shell_closed` of the session. -/
def closed : ℕ := s.audit.countP (Audit.closes id)

/-- The number of sessions in the map that the limit counts. -/
def count (scope : Scope) : ℕ := (s.sessions.filter fun id => s.contains scope id).card

end State

/-- The limits are kept. A session whose activation has returned has one `shell_opened`, and either
it is in the map, or one call of `close` has it, or it has one `shell_closed`. -/
structure Sound (props : ShellProperties) (s : State) : Prop where
  limits : ∀ scope, s.count scope ≤ scope.limit props
  audited : ∀ id, 0 < s.opened id →
    s.opened id = 1 ∧ s.present id + s.held id .closing + s.closed id = 1

/-- The creation of a call of `create` that has begun to count, and has not put its session. -/
def Pc.counts : Pc → Option Creation
  | .countDevice c _ | .countOrg c _ | .put c => some c
  | _ => none

/-- The creation whose session the call puts next. -/
def Pc.puts : Pc → Option Creation
  | .put c => some c
  | _ => none

/-- The session that the call purges next. -/
def Pc.purges : Pc → Option String
  | .purgeRemove _ _ _ id => some id
  | _ => none

/-- Two creations are for one device, or for one organization. -/
def Creation.Meets (c c' : Creation) : Prop :=
  c.deviceId = c'.deviceId ∨ c.principal.organizationId = c'.principal.organizationId

instance (c c' : Creation) : Decidable (c.Meets c') := inferInstanceAs (Decidable (_ ∨ _))

/-- The call does not break the sequence of another one: a session is not put while another `create`
for its device or organization is between its counts and its put, and a session that is in the map
is not purged when it is active or an activation has it. -/
def Pc.Waits (s : State) (others : List Pc) (pc : Pc) : Prop :=
  (∀ c ∈ pc.puts, ∀ other ∈ others, ∀ c' ∈ other.counts, ¬ c.Meets c') ∧
    ∀ id ∈ pc.purges, id ∈ s.sessions →
      s.held id .early = 0 ∧ (s.heap id).any ShellSession.active = false

instance (s : State) (others : List Pc) (pc : Pc) : Decidable (pc.Waits s others) :=
  inferInstanceAs (Decidable (_ ∧ _))

/-- No call breaks the sequence of another one. A session is not closed while an activation has it
and has not written when it was opened. -/
def Undisturbed (s : State) : Action → Prop
  | .close id _ => s.held id .early = 0
  | .next i _ _ => ∀ pc ∈ s.calls[i]?, pc.Waits s (s.calls.eraseIdx i)
  | _ => True

instance (s : State) : (a : Action) → Decidable (Undisturbed s a)
  | .close .. => inferInstanceAs (Decidable (_ = _))
  | .next .. => inferInstanceAs (Decidable (∀ pc ∈ _, _))
  | .create .. | .activate .. | .visit .. => inferInstanceAs (Decidable True)

end EdgeGuardian.Controller.ShellConcurrency
