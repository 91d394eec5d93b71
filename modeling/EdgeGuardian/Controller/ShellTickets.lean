import EdgeGuardian.Controller.Shell
import EdgeGuardian.Lib.OneTimeTicket
import EdgeGuardian.Lib.Transition

/-!
# The tickets of shell sessions

The session service keeps two maps, from session ids to sessions and from tickets to session ids,
and a session holds its ticket until it is activated. `create`, `activate` and `close` change both
maps and the session; each has early exits, and `create` removes expired sessions before it checks
the limits. A run is any sequence of calls, each atomic and with one clock reading, on whatever
database and at whatever time it is made; random session ids and tickets are not used twice. Nothing
is asked of the clock.

The history is no part of the service: it records the tickets that were issued and accepted, and the
sessions for which `close` was called.

Source: `controller/src/main/java/com/edgeguardian/controller/service/ShellSessionService.java`.

## Main definitions

* `ShellTickets.step`: the calls.
* `ShellTickets.IndexMatches`: the ticket index is a bijection onto the sessions that wait.
* `ShellTickets.TicketInv`: the invariant.

## Main results

* `ShellTickets.Consistent.removes`, `ShellTickets.Consistent.added`,
  `ShellTickets.Consistent.opened`: what the calls do to the maps keeps them in agreement.
* `ShellTickets.tickets_consistent_single_use`: in every state reached the maps agree, and the
  tickets were used once, in time and for sessions that were not closed.
-/

namespace EdgeGuardian.Controller.ShellTickets

open Transition OneTimeTicket

/-! ### Runs -/

/-- The calls of the session service. -/
inductive Call
  | create (principal : TenantPrincipal) (deviceId : String) (rows cols : ℤ)
      (fresh : Shell.ShellTicket)
  | activate (ticket : String) (sink : ℕ)
  | deliverOutput (sessionId : String) (data : List UInt8)
  | close (sessionId reason : String)
deriving DecidableEq, Repr

/-- A call, with the database that it finds and its clock reading. -/
structure Action where
  db : Db
  env : Env
  call : Call

/-- What is recorded of the calls. -/
abbrev History := List (Event String String Instant)

/-- The maps of the service, and the history. -/
structure State where
  shell : ShellState
  history : History

/-- The service has started. -/
def start : State where
  shell := .empty
  history := []

/-- What was issued, by one of its columns. -/
def History.issued {α : Type*} (column : Ticket String String Instant → α) (history : History) :
    List α :=
  history.filterMap fun
    | .issued t => some (column t)
    | _ => none

/-- The ids of the sessions that were created. -/
def History.sessionIds (history : History) : List String := history.issued Ticket.session

/-- The tickets that were issued. -/
def History.tickets (history : History) : List String := history.issued Ticket.ticket

/-- `ShellSessionService.create`, recorded. -/
def create (props : ShellProperties) (env : Env) (principal : TenantPrincipal) (deviceId : String)
    (rows cols : ℤ) (fresh : Shell.ShellTicket) (db : Db) (s : State) : State :=
  match Shell.create props env principal deviceId rows cols fresh ⟨db, s.shell⟩ with
  | (.ok t, server) =>
    ⟨server.shell, s.history ++ [.issued ⟨t.ticket, t.sessionId, env.now + props.ticketTtl⟩]⟩
  | (.error _, server) => ⟨server.shell, s.history⟩

/-- `ShellSessionService.activate`, recorded. -/
def activate (env : Env) (ticket : String) (sink : ℕ) (db : Db) (s : State) : State :=
  match Shell.activate env ticket sink ⟨db, s.shell⟩ with
  | (.ok session, server) =>
    ⟨server.shell, s.history ++ [.accepted ticket session.sessionId env.now]⟩
  | (.error _, server) => ⟨server.shell, s.history⟩

/-- `ShellSessionService.close`, recorded for sessions that were created. -/
def close (env : Env) (sessionId reason : String) (db : Db) (s : State) : State where
  shell := (Shell.close env sessionId reason ⟨db, s.shell⟩).shell
  history := if sessionId ∈ s.history.sessionIds then s.history ++ [.closed sessionId]
    else s.history

/-- One call. The session id and the ticket of `create` are random, and never the same twice. The
service reads the clock again where `create` purges and where `activate` records when the session
was opened; here one reading serves the whole call. -/
def step (props : ShellProperties) (s : State) (a : Action) : Option State :=
  match a.call with
  | .create principal deviceId rows cols fresh =>
    if fresh.sessionId ∉ s.history.sessionIds ∧ fresh.ticket ∉ s.history.tickets then
      some (create props a.env principal deviceId rows cols fresh a.db s)
    else none
  | .activate ticket sink => some (activate a.env ticket sink a.db s)
  | .deliverOutput sessionId data =>
    some ⟨(Shell.deliverOutput sessionId data ⟨a.db, s.shell⟩).shell, s.history⟩
  | .close sessionId reason => some (close a.env sessionId reason a.db s)

/-! ### The property -/

/-- The entry of the ticket index is the one of the session. -/
def Paired (e : TicketEntry) (session : ShellSession) : Prop :=
  session.sessionId = e.sessionId ∧ session.ticket = some e.ticket

/-- The ticket index is a bijection onto the sessions that are not active, and pairs each with its
own ticket; active sessions have no ticket. -/
structure IndexMatches (shell : ShellState) : Prop where
  /-- Every entry belongs to one session that is not active. -/
  entry : ∀ e ∈ shell.ticketIndex.rows,
    ∃! session, session ∈ shell.sessions.rows ∧ session.active = false ∧ Paired e session
  /-- Every session that is not active has one entry. -/
  session : ∀ session ∈ shell.sessions.rows, session.active = false →
    ∃! e, e ∈ shell.ticketIndex.rows ∧ Paired e session
  /-- Active sessions have no ticket. -/
  active : ∀ session ∈ shell.sessions.rows, session.active = true → session.ticket = none

/-! ### The invariant -/

/-- The two maps agree. -/
structure Consistent (shell : ShellState) : Prop where
  entry : ∀ e ∈ shell.ticketIndex.rows,
    ∃ session ∈ shell.sessions.rows, session.active = false ∧ Paired e session
  session : ∀ session ∈ shell.sessions.rows, session.active = false →
    ∃ e ∈ shell.ticketIndex.rows, Paired e session
  active : ∀ session ∈ shell.sessions.rows, session.active = true → session.ticket = none

/-- The tickets that sessions hold. -/
def validTickets (shell : ShellState) : Set (Ticket String String Instant) :=
  {t | ∃ session ∈ shell.sessions.rows, session.ticket = some t.ticket ∧
    session.sessionId = t.session ∧ session.ticketExpiresAt = some t.expiresAt}

/-- The maps agree, the tickets that sessions hold are valid by the history, and every session has
an expiry and was created. -/
structure TicketInv (s : State) : Prop where
  consistent : Consistent s.shell
  ledger : Ledger (validTickets s.shell) s.history
  expires : ∀ session ∈ s.shell.sessions.rows, ∃ e, session.ticketExpiresAt = some e
  created : ∀ session ∈ s.shell.sessions.rows, session.sessionId ∈ s.history.sessionIds

section Consistency

variable {shell shell' : ShellState} {session session' : ShellSession} {e e' : TicketEntry}

/-- A session is known by its id. -/
theorem eq_of_sessionId (hs : session ∈ shell.sessions.rows) (hs' : session' ∈ shell.sessions.rows)
    (h : session.sessionId = session'.sessionId) : session = session' :=
  List.inj_on_of_nodup_map shell.sessions.nodup hs hs' h

/-- An entry is known by its ticket. -/
theorem eq_of_ticket (he : e ∈ shell.ticketIndex.rows) (he' : e' ∈ shell.ticketIndex.rows)
    (h : e.ticket = e'.ticket) : e = e' :=
  List.inj_on_of_nodup_map shell.ticketIndex.nodup he he' h

theorem Consistent.indexMatches (h : Consistent shell) : IndexMatches shell where
  entry e he := by
    obtain ⟨session, hs, hactive, hpaired⟩ := h.entry e he
    refine ⟨session, ⟨hs, hactive, hpaired⟩, fun session' ⟨hs', _, hpaired'⟩ => ?_⟩
    exact eq_of_sessionId hs' hs (hpaired'.1.trans hpaired.1.symm)
  session session hs hactive := by
    obtain ⟨e, he, hpaired⟩ := h.session session hs hactive
    refine ⟨e, ⟨he, hpaired⟩, fun e' ⟨he', hpaired'⟩ => ?_⟩
    exact eq_of_ticket he' he (Option.some.inj (hpaired'.2.symm.trans hpaired.2))
  active := h.active

/-- A session that holds a ticket has its entry in the index. -/
theorem Consistent.entry_of_ticket (h : Consistent shell) (hs : session ∈ shell.sessions.rows)
    {ticket : String} (hticket : session.ticket = some ticket) :
    session.active = false ∧ ⟨ticket, session.sessionId⟩ ∈ shell.ticketIndex.rows := by
  rcases hactive : session.active with _ | _
  · obtain ⟨e, he, hid, hheld⟩ := h.session session hs hactive
    have hsame : e = ⟨ticket, session.sessionId⟩ := by
      rw [hid, Option.some.inj (hticket.symm.trans hheld)]
    exact ⟨rfl, hsame ▸ he⟩
  · rw [h.active session hs hactive] at hticket
    exact absurd hticket.symm (Option.some_ne_none _)

/-- A ticket is held by one session. -/
theorem Consistent.eq_of_held (h : Consistent shell) (hs : session ∈ shell.sessions.rows)
    (hs' : session' ∈ shell.sessions.rows) {ticket : String}
    (hticket : session.ticket = some ticket) (hticket' : session'.ticket = some ticket) :
    session = session' := by
  have he := (h.entry_of_ticket hs hticket).2
  have he' := (h.entry_of_ticket hs' hticket').2
  exact eq_of_sessionId hs hs' (TicketEntry.mk.inj (eq_of_ticket he he' rfl)).2

/-! ### Removing sessions -/

/-- Some sessions are removed, with their tickets. -/
structure Removes (gone : ShellSession → Prop) (shell shell' : ShellState) : Prop where
  sessions : ∀ session, session ∈ shell'.sessions.rows ↔
    session ∈ shell.sessions.rows ∧ ¬ gone session
  ticketIndex : ∀ e, e ∈ shell'.ticketIndex.rows ↔ e ∈ shell.ticketIndex.rows ∧
    ∀ session ∈ shell.sessions.rows, gone session → session.ticket ≠ some e.ticket

variable {gone : ShellSession → Prop}

/-- Removing sessions with their tickets keeps the maps in agreement. -/
theorem Consistent.removes (h : Consistent shell) (hremoves : Removes gone shell shell') :
    Consistent shell' where
  entry e he := by
    obtain ⟨he, hkept⟩ := (hremoves.ticketIndex e).mp he
    obtain ⟨session, hs, hactive, hpaired⟩ := h.entry e he
    exact ⟨session, (hremoves.sessions session).mpr ⟨hs, fun hgone => hkept session hs hgone
      hpaired.2⟩, hactive, hpaired⟩
  session session hs hactive := by
    obtain ⟨hs, hstays⟩ := (hremoves.sessions session).mp hs
    obtain ⟨e, he, hpaired⟩ := h.session session hs hactive
    refine ⟨e, (hremoves.ticketIndex e).mpr ⟨he, fun session' hs' hgone hticket => ?_⟩, hpaired⟩
    exact hstays (h.eq_of_held hs' hs hticket hpaired.2 ▸ hgone)
  active session hs := h.active session ((hremoves.sessions session).mp hs).1

theorem validTickets_removes (hremoves : Removes gone shell shell') :
    validTickets shell' ⊆ validTickets shell := by
  rintro t ⟨session, hs, hticket⟩
  exact ⟨session, ((hremoves.sessions session).mp hs).1, hticket⟩

theorem TicketInv.removes {history : History} (h : TicketInv ⟨shell, history⟩)
    (hremoves : Removes gone shell shell') : TicketInv ⟨shell', history⟩ where
  consistent := h.consistent.removes hremoves
  ledger := h.ledger.forget (validTickets_removes hremoves)
  expires session hs := h.expires session ((hremoves.sessions session).mp hs).1
  created session hs := h.created session ((hremoves.sessions session).mp hs).1

theorem removes_purgeExpired (now : Instant) (shell : ShellState) :
    Removes (Shell.Expired now) shell (Shell.purgeExpired now shell) where
  sessions _ := Table.mem_delete
  ticketIndex e := by
    refine Table.mem_delete.trans (and_congr_right fun _ => ?_)
    simp only [not_exists, not_and]

/-- Removing one session. -/
theorem removes_of_find? (hfind : shell.sessions.find? session.sessionId = some session)
    (hsessions : ∀ t, t ∈ shell'.sessions.rows ↔
      t ∈ shell.sessions.rows ∧ t.sessionId ≠ session.sessionId)
    (hindex : ∀ e, e ∈ shell'.ticketIndex.rows ↔
      e ∈ shell.ticketIndex.rows ∧ session.ticket ≠ some e.ticket) :
    Removes (fun t => t.sessionId = session.sessionId) shell shell' where
  sessions := hsessions
  ticketIndex e := by
    refine (hindex e).trans (and_congr_right fun _ => ⟨fun hne t ht hid => ?_, fun hne => ?_⟩)
    · rw [eq_of_sessionId ht (Table.mem_of_find?_eq_some hfind) hid]
      exact hne
    · exact hne session (Table.mem_of_find?_eq_some hfind) rfl

theorem removes_close (env : Env) (sessionId reason : String) (db : Db) (shell : ShellState) :
    Removes (fun t => t.sessionId = sessionId) shell
      (Shell.close env sessionId reason ⟨db, shell⟩).shell := by
  rw [Shell.close]
  rcases hfind : shell.sessions.find? sessionId with _ | session
  · have hnone := Table.find?_eq_none.mp hfind
    refine ⟨fun t => ⟨fun ht => ⟨ht, hnone t ht⟩, And.left⟩, fun e => ⟨fun he => ?_, And.left⟩⟩
    exact ⟨he, fun t ht hid => absurd hid (hnone t ht)⟩
  · obtain rfl := Table.key_of_find?_eq_some hfind
    refine removes_of_find? hfind (fun t => Table.mem_delete) fun e => ?_
    exact Table.mem_delete.trans (and_congr_right fun _ => not_congr eq_comm)

end Consistency

/-! ### Creating and activating sessions -/

section Steps

variable {shell : ShellState} {history : History} {session : ShellSession}

theorem mem_issued {α : Type*} {column : Ticket String String Instant → α} {x : α} :
    x ∈ history.issued column ↔ ∃ t, .issued t ∈ history ∧ column t = x := by
  rw [History.issued, List.mem_filterMap]
  constructor
  · rintro ⟨e, he, h⟩
    cases e with
    | issued t => exact ⟨t, he, Option.some.inj h⟩
    | accepted | closed => exact absurd h.symm (Option.some_ne_none _)
  · rintro ⟨t, ht, h⟩
    exact ⟨.issued t, ht, congrArg some h⟩

theorem sessionIds_append (history history' : History) :
    (history ++ history').sessionIds = history.sessionIds ++ history'.sessionIds :=
  List.filterMap_append

/-- The tickets of the index were issued. -/
theorem TicketInv.mem_tickets (h : TicketInv ⟨shell, history⟩) {e : TicketEntry}
    (he : e ∈ shell.ticketIndex.rows) : e.ticket ∈ history.tickets := by
  obtain ⟨session, hs, -, hid, hticket⟩ := h.consistent.entry e he
  obtain ⟨expiresAt, hexpires⟩ := h.expires session hs
  have hvalid : ⟨e.ticket, session.sessionId, expiresAt⟩ ∈ validTickets shell :=
    ⟨session, hs, hticket, rfl, hexpires⟩
  exact mem_issued.mpr ⟨_, h.ledger.issued _ hvalid, rfl⟩

/-- The service with a new session. -/
def added (shell : ShellState) (session : ShellSession) (ticket : String) : ShellState :=
  { shell with
    sessions := shell.sessions.save session
    ticketIndex := shell.ticketIndex.save ⟨ticket, session.sessionId⟩ }

theorem Consistent.added (h : Consistent shell) {ticket : String} (hactive : session.active = false)
    (hticket : session.ticket = some ticket)
    (hid : ∀ t ∈ shell.sessions.rows, t.sessionId ≠ session.sessionId)
    (hfresh : ∀ e ∈ shell.ticketIndex.rows, e.ticket ≠ ticket) :
    Consistent (added shell session ticket) where
  entry e he := by
    rcases Table.mem_save.mp he with rfl | ⟨he, -⟩
    · exact ⟨session, Table.mem_save.mpr (.inl rfl), hactive, rfl, hticket⟩
    · obtain ⟨t, ht, hpaired⟩ := h.entry e he
      exact ⟨t, Table.mem_save.mpr (.inr ⟨ht, hid t ht⟩), hpaired⟩
  session t ht htactive := by
    rcases Table.mem_save.mp ht with rfl | ⟨ht, -⟩
    · exact ⟨_, Table.mem_save.mpr (.inl rfl), rfl, hticket⟩
    · obtain ⟨e, he, hpaired⟩ := h.session t ht htactive
      exact ⟨e, Table.mem_save.mpr (.inr ⟨he, hfresh e he⟩), hpaired⟩
  active t ht htactive := by
    rcases Table.mem_save.mp ht with rfl | ⟨ht, -⟩
    · rw [hactive] at htactive
      exact absurd htactive Bool.false_ne_true
    · exact h.active t ht htactive

theorem validTickets_added {ticket : String} {expiresAt : Instant}
    (hticket : session.ticket = some ticket)
    (hexpires : session.ticketExpiresAt = some expiresAt) :
    ∀ t ∈ validTickets (added shell session ticket),
      t = ⟨ticket, session.sessionId, expiresAt⟩ ∨ t ∈ validTickets shell := by
  rintro t ⟨t', ht', hticket', hsession, hexpires'⟩
  rcases Table.mem_save.mp ht' with rfl | ⟨ht', -⟩
  · left
    obtain rfl : ticket = t.ticket := Option.some.inj (hticket.symm.trans hticket')
    obtain rfl : expiresAt = t.expiresAt := Option.some.inj (hexpires.symm.trans hexpires')
    rw [hsession]
  · exact .inr ⟨t', ht', hticket', hsession, hexpires'⟩

/-- A session with a new id and a new ticket is created. -/
theorem TicketInv.added (h : TicketInv ⟨shell, history⟩) {ticket : String} {expiresAt : Instant}
    (hactive : session.active = false) (hticket : session.ticket = some ticket)
    (hexpires : session.ticketExpiresAt = some expiresAt)
    (hid : session.sessionId ∉ history.sessionIds) (hfresh : ticket ∉ history.tickets) :
    TicketInv ⟨added shell session ticket,
      history ++ [.issued ⟨ticket, session.sessionId, expiresAt⟩]⟩ where
  consistent := by
    refine h.consistent.added hactive hticket (fun t ht heq => ?_) fun e he heq => ?_
    · exact hid (heq ▸ h.created t ht)
    · exact hfresh (heq ▸ h.mem_tickets he)
  ledger := by
    refine h.ledger.issue (fun t ht => ⟨fun heq => ?_, fun heq => ?_⟩)
      (validTickets_added hticket hexpires)
    · exact hfresh (mem_issued.mpr ⟨t, ht, heq⟩)
    · exact hid (mem_issued.mpr ⟨t, ht, heq⟩)
  expires t ht := by
    rcases Table.mem_save.mp ht with rfl | ⟨ht, -⟩
    · exact ⟨expiresAt, hexpires⟩
    · exact h.expires t ht
  created t ht := by
    rw [sessionIds_append]
    rcases Table.mem_save.mp ht with rfl | ⟨ht, -⟩
    · exact List.mem_append_right _ List.mem_cons_self
    · exact List.mem_append_left _ (h.created t ht)

/-- The session that `activate` finds by a ticket is the one that holds the ticket. -/
theorem Consistent.held_of_find? (h : Consistent shell) {ticket : String} {entry : TicketEntry}
    (hentry : shell.ticketIndex.find? ticket = some entry) :
    ∃ session, shell.sessions.find? entry.sessionId = some session ∧
      session.sessionId = entry.sessionId ∧ session.ticket = some ticket := by
  obtain ⟨session, hs, -, hid, hticket⟩ := h.entry entry (Table.mem_of_find?_eq_some hentry)
  refine ⟨session, ?_, hid, ?_⟩
  · rw [← hid]
    exact Table.mem_rows_iff.mp hs
  · rw [hticket, Table.key_of_find?_eq_some hentry]

/-- The service with a session that was activated by its ticket. -/
def opened (shell : ShellState) (session : ShellSession) (ticket : String) (now : Instant)
    (sink : ℕ) : ShellState :=
  { shell with
    ticketIndex := shell.ticketIndex.delete fun e => e.ticket = ticket
    sessions := shell.sessions.save (Shell.activated now sink session) }

/-- Another session that holds the ticket would be this one. -/
theorem Consistent.ticket_ne (h : Consistent shell) {ticket : String}
    (hs : session ∈ shell.sessions.rows) (hticket : session.ticket = some ticket)
    {t : ShellSession} (ht : t ∈ shell.sessions.rows) (hne : t.sessionId ≠ session.sessionId) :
    t.ticket ≠ some ticket := fun hheld =>
  hne (congrArg ShellSession.sessionId (h.eq_of_held ht hs hheld hticket))

theorem Consistent.opened (h : Consistent shell) {ticket : String} {now : Instant} {sink : ℕ}
    (hs : session ∈ shell.sessions.rows) (hticket : session.ticket = some ticket) :
    Consistent (opened shell session ticket now sink) where
  entry e he := by
    obtain ⟨he, hne⟩ := Table.mem_delete.mp he
    obtain ⟨t, ht, hactive, hpaired⟩ := h.entry e he
    refine ⟨t, Table.mem_save.mpr (.inr ⟨ht, fun heq => hne ?_⟩), hactive, hpaired⟩
    rw [eq_of_sessionId ht hs heq] at hpaired
    exact Option.some.inj (hpaired.2.symm.trans hticket)
  session t ht htactive := by
    rcases Table.mem_save.mp ht with rfl | ⟨ht, hne⟩
    · exact absurd htactive.symm Bool.false_ne_true
    · obtain ⟨e, he, hpaired⟩ := h.session t ht htactive
      refine ⟨e, Table.mem_delete.mpr ⟨he, fun heq => ?_⟩, hpaired⟩
      exact h.ticket_ne hs hticket ht hne (heq ▸ hpaired.2)
  active t ht htactive := by
    rcases Table.mem_save.mp ht with rfl | ⟨ht, -⟩
    · rfl
    · exact h.active t ht htactive

/-- A session that waits is activated by its ticket, which is not expired. -/
theorem TicketInv.opened (h : TicketInv ⟨shell, history⟩) {ticket : String}
    {expiresAt now : Instant} {sink : ℕ} (hs : session ∈ shell.sessions.rows)
    (hticket : session.ticket = some ticket) (hexpires : session.ticketExpiresAt = some expiresAt)
    (hnow : now ≤ expiresAt) :
    TicketInv ⟨opened shell session ticket now sink,
      history ++ [.accepted ticket session.sessionId now]⟩ where
  consistent := h.consistent.opened hs hticket
  ledger := by
    have hvalid : ⟨ticket, session.sessionId, expiresAt⟩ ∈ validTickets shell :=
      ⟨session, hs, hticket, rfl, hexpires⟩
    refine h.ledger.accept hvalid hnow ?_ ?_
    · rintro t ⟨t', ht', hheld, hrest⟩
      rcases Table.mem_save.mp ht' with rfl | ⟨ht', -⟩
      · exact absurd hheld.symm (Option.some_ne_none _)
      · exact ⟨t', ht', hheld, hrest⟩
    · rintro t ⟨t', ht', hheld, -⟩ heq
      rcases Table.mem_save.mp ht' with rfl | ⟨ht', hne⟩
      · exact absurd hheld.symm (Option.some_ne_none _)
      · exact h.consistent.ticket_ne hs hticket ht' hne (hheld.trans (congrArg some heq))
  expires t ht := by
    rcases Table.mem_save.mp ht with rfl | ⟨ht, -⟩
    · exact ⟨expiresAt, hexpires⟩
    · exact h.expires t ht
  created t ht := by
    rw [sessionIds_append]
    refine List.mem_append_left _ ?_
    rcases Table.mem_save.mp ht with rfl | ⟨ht, -⟩
    · exact h.created session hs
    · exact h.created t ht

end Steps

/-! ### Every call -/

section Calls

variable {props : ShellProperties} {env : Env} {db : Db} {s t : State}

theorem TicketInv.create (hs : TicketInv s) {principal : TenantPrincipal} {deviceId : String}
    {rows cols : ℤ} {fresh : Shell.ShellTicket} (hid : fresh.sessionId ∉ s.history.sessionIds)
    (hticket : fresh.ticket ∉ s.history.tickets) :
    TicketInv (create props env principal deviceId rows cols fresh db s) := by
  have hpurged : TicketInv ⟨Shell.purgeExpired env.now s.shell, s.history⟩ :=
    hs.removes (removes_purgeExpired env.now s.shell)
  rw [ShellTickets.create, Shell.create]
  rcases findByIdForOrganization db deviceId principal.organizationId with _ | device
  · exact hs
  · dsimp only
    split_ifs
    · exact hs
    · rcases Shell.enforceLimits props deviceId principal.organizationId
        (Shell.purgeExpired env.now s.shell) with _ | e
      · exact hpurged.added rfl rfl rfl hid hticket
      · exact hpurged

theorem TicketInv.activate (hs : TicketInv s) {ticket : String} {sink : ℕ} :
    TicketInv (activate env ticket sink db s) := by
  rw [ShellTickets.activate, Shell.activate]
  rcases hentry : s.shell.ticketIndex.find? ticket with _ | entry
  · exact hs
  · obtain ⟨session, hfind, hid, hticket⟩ := hs.consistent.held_of_find? hentry
    have hmem : session ∈ s.shell.sessions.rows := Table.mem_of_find?_eq_some hfind
    obtain ⟨expiresAt, hexpires⟩ := hs.expires session hmem
    simp only [hfind, hexpires, Option.any_some, decide_eq_true_eq]
    rw [← hid] at hfind ⊢
    split_ifs with hexpired
    · refine hs.removes (removes_of_find? hfind (fun _ => Table.mem_delete) fun e => ?_)
      refine Table.mem_delete.trans (and_congr_right fun _ => not_congr ?_)
      rw [hticket, Option.some.injEq, eq_comm]
    · exact hs.opened hmem hticket hexpires (not_lt.mp hexpired)

theorem shell_deliverOutput (sessionId : String) (data : List UInt8) (db : Db)
    (shell : ShellState) :
    Removes (fun _ => False) shell (Shell.deliverOutput sessionId data ⟨db, shell⟩).shell := by
  have hsame : Removes (fun _ => False) shell shell := by
    refine ⟨fun t => ⟨fun ht => ⟨ht, id⟩, And.left⟩, fun e => ⟨fun he => ⟨he, ?_⟩, And.left⟩⟩
    exact fun _ _ h => h.elim
  rw [Shell.deliverOutput]
  split
  · exact hsame
  · split
    · exact hsame
    · exact ⟨hsame.sessions, hsame.ticketIndex⟩

theorem TicketInv.close (hs : TicketInv s) {sessionId reason : String} :
    TicketInv (close env sessionId reason db s) := by
  have hremoves := removes_close env sessionId reason db s.shell
  have hremoved := TicketInv.removes hs hremoves
  rw [ShellTickets.close]
  split_ifs with hmem
  · refine ⟨hremoved.consistent, ?_, hremoved.expires, fun t ht => ?_⟩
    · refine hs.ledger.close (mem_issued.mp hmem) (validTickets_removes hremoves) ?_
      rintro t ⟨session, hsession, -, hid, -⟩ heq
      exact ((hremoves.sessions session).mp hsession).2 (hid.trans heq)
    · rw [sessionIds_append]
      exact List.mem_append_left _ (hremoved.created t ht)
  · exact hremoved

/-- The invariant is kept by every call. -/
theorem TicketInv.step {a : Action} (hs : TicketInv s) (h : step props s a = some t) :
    TicketInv t := by
  obtain ⟨db, env, call⟩ := a
  cases call with
  | create principal deviceId rows cols fresh =>
    simp only [ShellTickets.step] at h
    split_ifs at h with hfresh
    cases h
    exact hs.create hfresh.1 hfresh.2
  | activate ticket sink =>
    cases h
    exact hs.activate
  | deliverOutput sessionId data =>
    cases h
    exact TicketInv.removes hs (shell_deliverOutput sessionId data db s.shell)
  | close sessionId reason =>
    cases h
    exact hs.close

theorem ticketInv_start : TicketInv start where
  consistent := ⟨fun _ h => absurd h List.not_mem_nil, fun _ h => absurd h List.not_mem_nil,
    fun _ h => absurd h List.not_mem_nil⟩
  ledger := ledger_nil.forget fun _ ⟨_, h, _⟩ => absurd h List.not_mem_nil
  expires _ h := absurd h List.not_mem_nil
  created _ h := absurd h List.not_mem_nil

end Calls

/-- **Shell tickets are consistent and single-use.** After any sequence of calls, the ticket index
is a bijection onto the sessions that are not active, and active sessions have no ticket; every
ticket was accepted at most once, for its session, not after its expiry and not after the session
was closed. -/
theorem tickets_consistent_single_use {props : ShellProperties} {s : State}
    (h : Reachable (step props) start s) : IndexMatches s.shell ∧ SingleUse s.history := by
  have hs : TicketInv s := h.invariant TicketInv (fun hu _ hstep => hu.step hstep) ticketInv_start
  exact ⟨hs.consistent.indexMatches, hs.ledger.singleUse⟩

/-! ### Tickets that are refused -/

namespace Refused

/-- An online device of the organization 1. -/
def db : Db :=
  (register (default : Env) 1 "d" ⟨none, none, none, none, none⟩ (.empty .empty)).2

/-- Two sessions per device, and tickets for 30 seconds. -/
def props : ShellProperties := ⟨2, 10, 30⟩

/-- A call at a time. -/
def atTime (now : Instant) (call : Call) : Action := ⟨db, { (default : Env) with now }, call⟩

/-- A user reserves a session. -/
def reserve (now : Instant) (sessionId ticket : String) : Action :=
  atTime now (.create ⟨1, 7⟩ "d" 24 80 ⟨sessionId, ticket⟩)

/-- A ticket is presented twice, a ticket is presented after its session was closed, and a third one
after its expiry. -/
def calls : List Action :=
  [reserve 0 "s1" "t1", reserve 1 "s2" "t2", atTime 2 (.activate "t1" 5),
    atTime 3 (.activate "t1" 6), atTime 4 (.close "s2" "closed"), atTime 5 (.activate "t2" 6),
    reserve 6 "s3" "t3", atTime 7 (.deliverOutput "s1" [1]), atTime 37 (.activate "t3" 6)]

/-- Of the three tickets, the first one is accepted, once. -/
def recorded : History :=
  [.issued ⟨"t1", "s1", 30⟩, .issued ⟨"t2", "s2", 31⟩, .accepted "t1" "s1" 2, .closed "s2",
    .issued ⟨"t3", "s3", 36⟩]

end Refused

open Refused in
/-- A run that refuses tickets, and ends with the one session that was activated. -/
theorem tickets_refused :
    ∃ s, (Reachable (step props) start s ∧ s.history = recorded ∧
        s.shell.sessions.rows.map ShellSession.sessionId = ["s1"]) ∧
      IndexMatches s.shell ∧ SingleUse s.history := by
  obtain ⟨s, hreach, hhistory⟩ : ∃ s, Reachable (step props) start s ∧ s.history = recorded ∧
      s.shell.sessions.rows.map ShellSession.sessionId = ["s1"] :=
    exists_reaches_of_execBy calls (by decide +kernel)
  exact ⟨s, ⟨hreach, hhistory⟩, tickets_consistent_single_use hreach⟩

end EdgeGuardian.Controller.ShellTickets
