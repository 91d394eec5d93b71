import EdgeGuardian.Lib.Pool
import EdgeGuardian.Lib.Table
import EdgeGuardian.Lib.Transition
import Mathlib.Algebra.Order.BigOperators.Group.List
import Mathlib.Algebra.Order.Group.Multiset

/-!
# The shell manager of the agent

The manager keeps the sessions in a map under its lock. `Open` looks at the map under the lock, then
starts a PTY and inserts the session under the lock again. A session leaves the map when its read
pump ends. `Control` and `CloseAll` look sessions up under the lock and close them after it.

Calls interleave in any way outside of the lock. A step is one stretch under the lock, one start of
a PTY, one start of a session, or one close. A PTY is live from its start until its shell hangs up
or it is closed; both end the read pump of its session. The watchdog of a session closes its PTY,
and this is a hang-up as well.

Source: `agent/internal/shell/manager.go`, `agent/internal/shell/session.go`.

## Main definitions

* `State`, `Action`, `step`: the manager with the calls in progress.
* `Bookkept`: the number of live PTYs is within the limit, a live PTY is stored under its session id
  once its `Open` has inserted it, and a `CloseAll` leaves nothing live.
* `Undisturbed`: no `Open` passes the check while another call stands in its way.

## Main results

* `Inv.step`: the invariant behind the bookkeeping.
* `bookkept_of_undisturbed`: along undisturbed runs the books are right.
* `not_bookkept`: two opens, and an open and a `CloseAll`, can pass each other.
-/

namespace EdgeGuardian.Agent.Shell

open Transition

/-- `OpenRequest`. -/
structure OpenRequest where
  sessionID : String
  rows : ℕ
  cols : ℕ
  shell : String
deriving DecidableEq, Repr

/-- A PTY and its session. Every PTY that is started has a number of its own. -/
structure Pty where
  number : ℕ
  /-- The session id in the callbacks of the session. -/
  sid : String
  shellPath : String
  rows : ℕ
  cols : ℕ
deriving DecidableEq, Repr

/-- The type of an `Event`, with its `Msg`. -/
inductive EventType
  | started
  | exited
  | error (msg : String)
deriving DecidableEq, Repr

/-- `Event`. The manager never sets an exit code. -/
structure Event where
  sessionID : String
  type : EventType
deriving DecidableEq, Repr

/-- Where a call of `Open` is. -/
inductive OpenPc
  /-- The request has passed the check. -/
  | checked (req : OpenRequest)
  /-- The PTY is started. -/
  | started (p : Pty)
  /-- The session is in the map. -/
  | inserted (p : Pty)
deriving DecidableEq, Repr

/-- A call of `Control` or `CloseAll` that has left the lock, with the sessions that it still has to
close. -/
structure Closer where
  all : Bool
  remaining : List Pty
deriving DecidableEq, Repr

/-- The limits of a `Manager`. -/
structure Options where
  maxSessions : ℕ
  defaultShell : String
deriving DecidableEq, Repr

/-- The manager, the PTYs, and the calls in progress. -/
structure State where
  sessions : Table Pty Pty.sid
  opens : List OpenPc
  live : List Pty
  /-- The sessions whose read pump runs. -/
  pumping : List Pty
  closers : List Closer
  /-- All PTYs that have been started. -/
  started : List Pty
  /-- What has been published. -/
  events : List Event

/-- The steps. A PTY that fails to start, and a read pump that ends with an error, have a text. -/
inductive Action
  | openCheck (req : OpenRequest)
  | newPTY (i : ℕ) (err : Option String)
  | insert (i : ℕ)
  | start (i : ℕ)
  | hangUp (p : Pty)
  | onSessionExit (p : Pty) (exitErr : Option String)
  /-- `Control` with `close`. -/
  | control (sid : String)
  | closeAll
  | close (j : ℕ) (p : Pty)
  | closed (j : ℕ)
deriving DecidableEq, Repr

/-- `NewManager`. -/
def State.initial : State where
  sessions := .empty
  opens := []
  live := []
  pumping := []
  closers := []
  started := []
  events := []

section Steps

variable (o : Options) (s : State)

/-- The PTY that `Open` starts for a request. -/
def newPty (req : OpenRequest) : Pty where
  number := s.started.length
  sid := req.sessionID
  shellPath := if req.shell = "" then o.defaultShell else req.shell
  rows := req.rows
  cols := req.cols

/-- `emit`. -/
def State.emit (sid : String) (type : EventType) : State :=
  { s with events := s.events ++ [⟨sid, type⟩] }

/-- The first stretch of `Open` under the lock. -/
def openCheck (req : OpenRequest) : State :=
  if (s.sessions.find? req.sessionID).isSome then s
  else if o.maxSessions ≤ s.sessions.rows.length then
    s.emit req.sessionID (.error "session limit reached")
  else { s with opens := s.opens ++ [.checked req] }

/-- The PTY of the call at `i` is started, or fails to start. -/
def startPty (i : ℕ) (req : OpenRequest) : Option String → State
  | some err => { s with opens := Pool.update s.opens i none }.emit req.sessionID (.error err)
  | none =>
    let p := newPty o s req
    { s with
      opens := Pool.update s.opens i (some (.started p))
      live := p :: s.live
      started := p :: s.started }

/-- `onSessionExit`, called by the read pump of the session of `p`. -/
def onSessionExit (p : Pty) (exitErr : Option String) : State :=
  { s with
    sessions := s.sessions.delete fun q => q.sid = p.sid
    pumping := s.pumping.erase p }.emit p.sid (exitErr.elim .exited .error)

/-- One step. -/
def step (s : State) : Action → Option State
  | .openCheck req => some (openCheck o s req)
  | .newPTY i err =>
    match s.opens[i]? with
    | some (.checked req) => some (startPty o s i req err)
    | _ => none
  | .insert i =>
    match s.opens[i]? with
    | some (.started p) =>
      some { s with
        sessions := s.sessions.save p
        opens := Pool.update s.opens i (some (.inserted p)) }
    | _ => none
  | .start i =>
    match s.opens[i]? with
    | some (.inserted p) =>
      some ({ s with
        opens := Pool.update s.opens i none
        pumping := p :: s.pumping }.emit p.sid .started)
    | _ => none
  | .hangUp p => some { s with live := s.live.erase p }
  | .onSessionExit p exitErr =>
    -- The read fails once the shell has hung up or the PTY is closed.
    if p ∈ s.pumping ∧ p ∉ s.live then some (onSessionExit s p exitErr) else none
  | .control sid =>
    some { s with closers := s.closers ++ [⟨false, (s.sessions.find? sid).toList⟩] }
  | .closeAll => some { s with closers := s.closers ++ [⟨true, s.sessions.rows⟩] }
  | .close j p =>
    -- The order of the sessions is that of the iteration over the map, which is any.
    match s.closers[j]? with
    | some c =>
      if p ∈ c.remaining then
        some { s with
          live := s.live.erase p
          closers := s.closers.set j { c with remaining := c.remaining.erase p } }
      else none
    | none => none
  | .closed j =>
    match s.closers[j]? with
    | some c =>
      if c.remaining = [] then some { s with closers := s.closers.eraseIdx j } else none
    | none => none

end Steps

/-! ### The calls in progress -/

/-- The session id that an `Open` uses while it is between its check and its insertion. -/
def OpenPc.reserved : OpenPc → Multiset String
  | .checked req => {req.sessionID}
  | .started p => {p.sid}
  | .inserted _ => 0

/-- The PTY that an `Open` has started and not inserted. -/
def OpenPc.inHand : OpenPc → Multiset Pty
  | .started p => {p}
  | _ => 0

/-- The PTY that an `Open` has inserted, before its read pump runs. -/
def OpenPc.running : OpenPc → Multiset Pty
  | .inserted p => {p}
  | _ => 0

/-- The session ids of the opens that are between their check and their insertion. -/
def State.reserved (s : State) : Multiset String := Pool.load OpenPc.reserved s.opens

/-- The PTYs that are started and not inserted. -/
def State.inHand (s : State) : Multiset Pty := Pool.load OpenPc.inHand s.opens

/-- The PTYs that are inserted and whose read pump does not run yet. -/
def State.running (s : State) : Multiset Pty := Pool.load OpenPc.running s.opens

/-- Every PTY in hand is that of an `Open` that uses its session id. -/
theorem State.card_inHand_le (s : State) : s.inHand.card ≤ s.reserved.card := by
  rw [State.inHand, State.reserved]
  induction s.opens with
  | nil => rfl
  | cons pc opens ih =>
    simp only [Pool.load, List.map_cons, List.sum_cons, Multiset.card_add] at ih ⊢
    have hpc : pc.inHand.card ≤ pc.reserved.card := by
      cases pc <;> simp [OpenPc.inHand, OpenPc.reserved]
    omega

theorem State.mem_inHand {s : State} {p : Pty} : p ∈ s.inHand ↔ .started p ∈ s.opens := by
  rw [State.inHand]
  induction s.opens with
  | nil => simp [Pool.load]
  | cons pc opens ih =>
    simp only [Pool.load, List.map_cons, List.sum_cons, Multiset.mem_add, List.mem_cons] at ih ⊢
    rw [ih]
    cases pc <;> simp [OpenPc.inHand]

/-! ### The books -/

/-- The number of live PTYs is within the limit, every live PTY is stored under its session id
unless its `Open` has yet to insert it, and when a `CloseAll` is done while no `Open` is in
progress, nothing is live. -/
structure Bookkept (o : Options) (s : State) : Prop where
  limit : s.live.length ≤ o.maxSessions
  stored : ∀ p ∈ s.live, s.sessions.find? p.sid = some p ∨ .started p ∈ s.opens
  closed : ∀ c ∈ s.closers, c.all = true → c.remaining = [] → s.opens = [] → s.live = []

/-- The request passes the check of `Open`. -/
def Passes (o : Options) (s : State) (req : OpenRequest) : Prop :=
  s.sessions.find? req.sessionID = none ∧ s.sessions.rows.length < o.maxSessions

instance (o : Options) (s : State) (req : OpenRequest) : Decidable (Passes o s req) :=
  inferInstanceAs (Decidable (_ ∧ _))

/-- An `Open` passes the check only if the opens between check and insertion leave room for it, none
of them is for its session id, and no `CloseAll` is in progress. A `CloseAll` takes its sessions
only when no `Open` is between check and insertion. -/
def Undisturbed (o : Options) (s : State) : Action → Prop
  | .openCheck req => Passes o s req →
      s.sessions.rows.length + s.reserved.card < o.maxSessions ∧ req.sessionID ∉ s.reserved ∧
        ∀ c ∈ s.closers, c.all = false
  | .closeAll => s.reserved = 0
  | _ => True

instance (o : Options) (s : State) : (a : Action) → Decidable (Undisturbed o s a)
  | .openCheck _ => inferInstanceAs (Decidable (_ → _))
  | .closeAll => inferInstanceAs (Decidable (_ = _))
  | .newPTY .. | .insert _ | .start _ | .hangUp _ | .onSessionExit .. | .control _ | .close ..
  | .closed _ => inferInstanceAs (Decidable True)

/-- What holds along undisturbed runs. -/
structure Inv (o : Options) (s : State) : Prop where
  /-- The opens before their insertion have room. -/
  room : s.sessions.rows.length + s.reserved.card ≤ o.maxSessions
  nodup : s.reserved.Nodup
  /-- Their session ids are not in the map. -/
  notStored : ∀ p ∈ s.sessions.rows, p.sid ∉ s.reserved
  /-- A session is in the map until its read pump ends. -/
  rows_eq : (s.sessions.rows : Multiset Pty) = s.pumping + s.running
  live_le : (s.live : Multiset Pty) ≤ s.sessions.rows + s.inHand
  /-- A `CloseAll` in progress still has to close everything that is live. -/
  closing : ∀ c ∈ s.closers, c.all = true →
    s.reserved = 0 ∧ (s.live : Multiset Pty) ≤ c.remaining

theorem inv_initial (o : Options) : Inv o State.initial where
  room := Nat.zero_le _
  nodup := Multiset.nodup_zero
  notStored := by simp [State.initial]
  rows_eq := rfl
  live_le := le_of_eq rfl
  closing := by simp [State.initial]

section Invariant

variable {o : Options} {s s' : State} {p : Pty} {i : ℕ}

theorem Inv.bookkept (h : Inv o s) : Bookkept o s where
  limit := by
    have hcard := Multiset.card_le_card h.live_le
    rw [Multiset.card_add, Multiset.coe_card, Multiset.coe_card] at hcard
    have hhand := s.card_inHand_le
    have hroom := h.room
    omega
  stored p hp := by
    have hmem := Multiset.mem_of_le h.live_le (Multiset.mem_coe.mpr hp)
    rw [Multiset.mem_add, Multiset.mem_coe, State.mem_inHand] at hmem
    exact hmem.imp_left Table.mem_rows_iff.mp
  closed c hc hall hremaining _ := by
    have hlive := (h.closing c hc hall).2
    rw [hremaining, Multiset.coe_nil, Multiset.le_zero, Multiset.coe_eq_zero] at hlive
    exact hlive

/-- What is published does not matter. -/
theorem Inv.emit (h : Inv o s) (sid : String) (type : EventType) : Inv o (s.emit sid type) :=
  ⟨h.room, h.nodup, h.notStored, h.rows_eq, h.live_le, h.closing⟩

/-- No `CloseAll` is in progress while an `Open` is before its insertion. -/
theorem Inv.all_eq_false (h : Inv o s) (sid : String) (hsid : sid ∈ s.reserved) :
    ∀ c ∈ s.closers, c.all = false := by
  intro c hc
  by_contra hall
  have hzero := (h.closing c hc (by simpa using hall)).1
  simp [hzero] at hsid

theorem Inv.openCheck (h : Inv o s) {req : OpenRequest}
    (hok : Undisturbed o s (.openCheck req)) : Inv o (openCheck o s req) := by
  rw [Shell.openCheck]
  split_ifs with hexists hlimit
  · exact h
  · exact h.emit _ _
  · have hnone : s.sessions.find? req.sessionID = none := by simpa using hexists
    obtain ⟨hroom, hnotMem, hclosers⟩ := hok ⟨hnone, by omega⟩
    let s' : State := { s with opens := s.opens ++ [.checked req] }
    have hreserved : s'.reserved = req.sessionID ::ₘ s.reserved := by
      simp only [s', State.reserved, Pool.load_append]
      rw [← Multiset.singleton_add, add_comm]
      rfl
    have hhand : s'.inHand = s.inHand := by
      simp only [s', State.inHand, Pool.load_append]
      exact add_zero _
    have hrunning : s'.running = s.running := by
      simp only [s', State.running, Pool.load_append]
      exact add_zero _
    refine ⟨?_, ?_, fun p hp => ?_, ?_, ?_, fun c hc hall => ?_⟩
    · change _ + s'.reserved.card ≤ _
      rw [hreserved, Multiset.card_cons]
      exact hroom
    · change s'.reserved.Nodup
      rw [hreserved]
      exact Multiset.nodup_cons.mpr ⟨hnotMem, h.nodup⟩
    · change p.sid ∉ s'.reserved
      rw [hreserved, Multiset.mem_cons]
      rintro (heq | hmem)
      · exact Table.find?_eq_none.mp hnone p hp heq
      · exact h.notStored p hp hmem
    · change _ = _ + s'.running
      rw [hrunning]
      exact h.rows_eq
    · change _ ≤ _ + s'.inHand
      rw [hhand]
      exact h.live_le
    · exact absurd hall (by simp [hclosers c hc])

/-- What the opens hold, around the one that goes on. -/
theorem loads_of_update {pc : OpenPc} (pc' : Option OpenPc) (hi : s.opens[i]? = some pc)
    (hopens : s'.opens = Pool.update s.opens i pc') :
    s'.reserved + pc.reserved = pc'.elim 0 OpenPc.reserved + s.reserved ∧
      s'.inHand + pc.inHand = pc'.elim 0 OpenPc.inHand + s.inHand ∧
      s'.running + pc.running = pc'.elim 0 OpenPc.running + s.running := by
  simp only [State.reserved, State.inHand, State.running, hopens]
  exact ⟨Pool.load_update_add hi pc', Pool.load_update_add hi pc', Pool.load_update_add hi pc'⟩

/-- The session id that an `Open` uses is among those used. -/
theorem mem_reserved {pc : OpenPc} {sid : String} (hi : s.opens[i]? = some pc)
    (hpc : pc.reserved = {sid}) : sid ∈ s.reserved := by
  have hload : s.reserved = pc.reserved + _ := Pool.load_eq hi
  rw [hload, hpc]
  exact Multiset.mem_add.mpr (.inl (Multiset.mem_singleton_self sid))

/-- A PTY fails to start, and its `Open` gives up the session id. -/
theorem Inv.failed (h : Inv o s) {req : OpenRequest} (hi : s.opens[i]? = some (.checked req))
    (hopens : s'.opens = Pool.update s.opens i none) (hsessions : s'.sessions = s.sessions)
    (hpumping : s'.pumping = s.pumping) (hlive : s'.live = s.live)
    (hclosers : s'.closers = s.closers) : Inv o s' := by
  have hclosing := h.all_eq_false req.sessionID (mem_reserved hi rfl)
  obtain ⟨hreserved, hhand, hrunning⟩ := loads_of_update none hi hopens
  simp only [OpenPc.inHand, OpenPc.running, Option.elim_none, add_zero, zero_add]
    at hreserved hhand hrunning
  have hle : s'.reserved ≤ s.reserved := hreserved ▸ Multiset.le_add_right _ _
  obtain ⟨hroom, hnodup, hnotStored, hrows, hlive_le, -⟩ := h
  refine ⟨?_, Multiset.nodup_of_le hle hnodup, fun p hp hmem => ?_, ?_, ?_, fun c hc hall => ?_⟩
  · rw [hsessions]
    exact (Nat.add_le_add_left (Multiset.card_le_card hle) _).trans hroom
  · exact hnotStored p (hsessions ▸ hp) (Multiset.mem_of_le hle hmem)
  · rw [hsessions, hpumping, hrunning]
    exact hrows
  · rw [hsessions, hlive, hhand]
    exact hlive_le
  · exact absurd hall (by simp [hclosing c (hclosers ▸ hc)])

/-- A PTY is started, and is in the hands of its `Open`. -/
theorem Inv.started (h : Inv o s) {req : OpenRequest} (hi : s.opens[i]? = some (.checked req))
    (hsid : p.sid = req.sessionID)
    (hopens : s'.opens = Pool.update s.opens i (some (.started p)))
    (hsessions : s'.sessions = s.sessions) (hpumping : s'.pumping = s.pumping)
    (hlive : s'.live = p :: s.live) (hclosers : s'.closers = s.closers) : Inv o s' := by
  have hclosing := h.all_eq_false req.sessionID (mem_reserved hi rfl)
  obtain ⟨hreserved, hhand, hrunning⟩ := loads_of_update (some (.started p)) hi hopens
  simp only [OpenPc.reserved, OpenPc.inHand, OpenPc.running, Option.elim_some, add_zero, zero_add,
    hsid] at hreserved hhand hrunning
  rw [add_comm, add_right_inj] at hreserved
  obtain ⟨hroom, hnodup, hnotStored, hrows, hlive_le, -⟩ := h
  refine ⟨?_, ?_, fun q hq => ?_, ?_, ?_, fun c hc hall => ?_⟩
  · rw [hsessions, hreserved]
    exact hroom
  · rw [hreserved]
    exact hnodup
  · rw [hreserved]
    exact hnotStored q (hsessions ▸ hq)
  · rw [hsessions, hpumping, hrunning]
    exact hrows
  · rw [hsessions, hlive, hhand, Multiset.singleton_add, Multiset.add_cons]
    exact Multiset.cons_le_cons p hlive_le
  · exact absurd hall (by simp [hclosing c (hclosers ▸ hc)])

/-- The session is stored under an id that was not in the map. -/
theorem Inv.insert (h : Inv o s) (hi : s.opens[i]? = some (.started p))
    (hopens : s'.opens = Pool.update s.opens i (some (.inserted p)))
    (hsessions : s'.sessions = s.sessions.save p) (hpumping : s'.pumping = s.pumping)
    (hlive : s'.live = s.live) (hclosers : s'.closers = s.closers) : Inv o s' := by
  have hmem : p.sid ∈ s.reserved := mem_reserved hi rfl
  have hclosing := h.all_eq_false p.sid hmem
  obtain ⟨hreserved, hhand, hrunning⟩ := loads_of_update (some (.inserted p)) hi hopens
  simp only [OpenPc.reserved, OpenPc.inHand, OpenPc.running, Option.elim_some, add_zero, zero_add]
    at hreserved hhand hrunning
  rw [add_comm, Multiset.singleton_add] at hreserved hhand
  rw [Multiset.singleton_add] at hrunning
  obtain ⟨hroom, hnodup, hnotStored, hrows, hlive_le, -⟩ := h
  have hnone : s.sessions.find? p.sid = none :=
    Table.find?_eq_none.mpr fun q hq hsid => hnotStored q hq (hsid ▸ hmem)
  have hsave : (s'.sessions.rows : Multiset Pty) = p ::ₘ s.sessions.rows := by
    rw [hsessions, ← Table.delete_of_find?_eq_none hnone]
    exact Multiset.coe_eq_coe.mpr (s.sessions.save_perm p)
  rw [← hreserved, Multiset.nodup_cons] at hnodup
  refine ⟨?_, hnodup.2, fun q hq => ?_, ?_, ?_, fun c hc hall => ?_⟩
  · have hlength := congrArg Multiset.card hsave
    rw [Multiset.card_cons, Multiset.coe_card, Multiset.coe_card] at hlength
    rw [← hreserved, Multiset.card_cons] at hroom
    omega
  · rw [← Multiset.mem_coe, hsave, Multiset.mem_cons] at hq
    rcases hq with rfl | hq
    · exact hnodup.1
    · intro hmem
      exact hnotStored q hq (hreserved ▸ Multiset.mem_cons_of_mem hmem)
  · rw [hsave, hpumping, hrunning, Multiset.add_cons, hrows]
  · rw [hsave, hlive, Multiset.cons_add, ← Multiset.add_cons, hhand]
    exact hlive_le
  · exact absurd hall (by simp [hclosing c (hclosers ▸ hc)])

/-- The read pump of the session begins. -/
theorem Inv.start (h : Inv o s) (hi : s.opens[i]? = some (.inserted p))
    (hopens : s'.opens = Pool.update s.opens i none) (hsessions : s'.sessions = s.sessions)
    (hpumping : s'.pumping = p :: s.pumping) (hlive : s'.live = s.live)
    (hclosers : s'.closers = s.closers) : Inv o s' := by
  obtain ⟨hreserved, hhand, hrunning⟩ := loads_of_update none hi hopens
  simp only [OpenPc.reserved, OpenPc.inHand, OpenPc.running, Option.elim_none, add_zero, zero_add]
    at hreserved hhand hrunning
  obtain ⟨hroom, hnodup, hnotStored, hrows, hlive_le, hclosing⟩ := h
  refine ⟨?_, ?_, ?_, ?_, ?_, ?_⟩
  · rw [hsessions, hreserved]
    exact hroom
  · rw [hreserved]
    exact hnodup
  · rw [hsessions, hreserved]
    exact hnotStored
  · rw [hsessions, hpumping, hrows, ← hrunning, add_comm s'.running, Multiset.singleton_add,
      Multiset.add_cons, ← Multiset.cons_coe, Multiset.cons_add]
  · rw [hsessions, hlive, hhand]
    exact hlive_le
  · rw [hclosers, hreserved, hlive]
    exact hclosing

/-- A PTY that is no longer live keeps nothing from being right. -/
theorem Inv.hangUp (h : Inv o s) (p : Pty) : Inv o { s with live := s.live.erase p } := by
  have hle : ((s.live.erase p : List Pty) : Multiset Pty) ≤ s.live :=
    Multiset.coe_le.mpr List.erase_sublist.subperm
  exact ⟨h.room, h.nodup, h.notStored, h.rows_eq, hle.trans h.live_le, fun c hc hall =>
    (h.closing c hc hall).imp_right hle.trans⟩

/-- An exit takes its own session out of the map. -/
theorem Inv.onSessionExit (h : Inv o s) (hpumping : p ∈ s.pumping) (hlive : p ∉ s.live)
    (exitErr : Option String) : Inv o (onSessionExit s p exitErr) := by
  have hmem : p ∈ s.sessions.rows := by
    have hmem : p ∈ (s.sessions.rows : Multiset Pty) := by
      rw [h.rows_eq]
      exact Multiset.mem_add.mpr (.inl hpumping)
    exact hmem
  have hrows : (s.sessions.rows : Multiset Pty) =
      p ::ₘ (s.sessions.delete fun q => q.sid = p.sid).rows :=
    Multiset.coe_eq_coe.mpr (Table.perm_cons_delete hmem)
  have hpump : (s.pumping : Multiset Pty) = p ::ₘ (s.pumping.erase p : List Pty) :=
    Multiset.coe_eq_coe.mpr (List.perm_cons_erase hpumping)
  apply Inv.emit
  refine ⟨?_, h.nodup, fun q hq => ?_, ?_, ?_, h.closing⟩
  · have hlength : (s.sessions.delete fun q => q.sid = p.sid).rows.length ≤
        s.sessions.rows.length := List.length_filter_le _ _
    exact (Nat.add_le_add_right hlength _).trans h.room
  · exact h.notStored q (Table.mem_delete.mp hq).1
  · have hall := h.rows_eq
    rw [hrows, hpump, Multiset.cons_add] at hall
    exact (Multiset.cons_inj_right p).mp hall
  · have hle := h.live_le
    rw [hrows, Multiset.cons_add] at hle
    exact (Multiset.le_cons_of_notMem (by simpa using hlive)).mp hle

/-- A call that closes sessions leaves the lock. -/
theorem Inv.closer (h : Inv o s) {c : Closer}
    (hc : c.all = true → s.reserved = 0 ∧ (s.live : Multiset Pty) ≤ c.remaining) :
    Inv o { s with closers := s.closers ++ [c] } := by
  refine ⟨h.room, h.nodup, h.notStored, h.rows_eq, h.live_le, fun c' hc' hall => ?_⟩
  rcases List.mem_append.mp hc' with hold | hnew
  · exact h.closing c' hold hall
  · rw [List.mem_singleton] at hnew
    subst hnew
    exact hc hall

/-- A session is closed: the PTY is neither live nor among those still to be closed. -/
theorem Inv.close (h : Inv o s) {j : ℕ} {c : Closer} (hj : s.closers[j]? = some c) (p : Pty) :
    Inv o { s with
      live := s.live.erase p
      closers := s.closers.set j { c with remaining := c.remaining.erase p } } := by
  have hhangUp := h.hangUp p
  refine ⟨h.room, h.nodup, h.notStored, h.rows_eq, hhangUp.live_le, fun c' hc' hall => ?_⟩
  rcases List.mem_or_eq_of_mem_set hc' with hold | rfl
  · exact hhangUp.closing c' hold hall
  · have hc : c ∈ s.closers := List.mem_of_getElem? hj
    obtain ⟨hreserved, hle⟩ := h.closing c hc hall
    refine ⟨hreserved, ?_⟩
    simp only [← Multiset.coe_erase]
    exact Multiset.erase_le_erase p hle

/-- **The books stay right.** Every step of an undisturbed run keeps the invariant. -/
theorem Inv.step {a : Action} (h : Inv o s) (hok : Undisturbed o s a)
    (hstep : Shell.step o s a = some s') : Inv o s' := by
  cases a with
  | openCheck req =>
    cases hstep
    exact h.openCheck hok
  | newPTY i err =>
    simp only [Shell.step] at hstep
    split at hstep
    next req hi =>
      cases hstep
      cases err with
      | some err => exact h.failed hi rfl rfl rfl rfl rfl
      | none => exact h.started hi rfl rfl rfl rfl rfl rfl
    next => cases hstep
  | insert i =>
    simp only [Shell.step] at hstep
    split at hstep
    next p hi =>
      cases hstep
      exact h.insert hi rfl rfl rfl rfl rfl
    next => cases hstep
  | start i =>
    simp only [Shell.step] at hstep
    split at hstep
    next p hi =>
      cases hstep
      exact h.start hi rfl rfl rfl rfl rfl
    next => cases hstep
  | hangUp p =>
    cases hstep
    exact h.hangUp p
  | onSessionExit p exitErr =>
    simp only [Shell.step] at hstep
    split_ifs at hstep with hp
    cases hstep
    exact h.onSessionExit hp.1 hp.2 exitErr
  | control sid =>
    cases hstep
    exact h.closer (by simp)
  | closeAll =>
    cases hstep
    have hreserved : s.reserved = 0 := hok
    refine h.closer fun _ => ⟨hreserved, ?_⟩
    have hhand : s.inHand = 0 := by
      have hcard := s.card_inHand_le
      rw [hreserved, Multiset.card_zero] at hcard
      exact Multiset.card_eq_zero.mp (by omega)
    simpa [hhand] using h.live_le
  | close j p =>
    simp only [Shell.step] at hstep
    split at hstep
    next c hj =>
      split_ifs at hstep
      cases hstep
      exact h.close hj p
    next => cases hstep
  | closed j =>
    simp only [Shell.step] at hstep
    split at hstep
    next c hj =>
      split_ifs at hstep
      cases hstep
      exact ⟨h.room, h.nodup, h.notStored, h.rows_eq, h.live_le,
        fun c' hc' => h.closing c' (List.mem_of_mem_eraseIdx hc')⟩
    next => cases hstep

end Invariant

/-- **The books of the manager.** In every run in which no `Open` passes the check while another
`Open` before its insertion needs the room or has the session id, or while a `CloseAll` is in
progress, and no `CloseAll` takes its sessions while an `Open` is before its insertion: the number
of live PTYs is within the limit, every live PTY is stored under its session id once it has been
inserted, and a `CloseAll` that is done leaves nothing live. -/
theorem bookkept_of_undisturbed {o : Options} {s : State}
    (h : Reaches (step o) (Undisturbed o) State.initial s) : Bookkept o s :=
  (h.invariant (Inv o) (fun hinv hok hstep => hinv.step hok hstep) (inv_initial o)).bookkept

/-- Two sessions are opened one after the other, the first ends, and the second is closed with all
others. -/
theorem bookkept_of_undisturbed_closeAll : ∃ s,
    Reaches (step ⟨2, "/bin/sh"⟩) (Undisturbed ⟨2, "/bin/sh"⟩) State.initial s ∧
      s.started.map Pty.sid = ["b", "a"] ∧ Bookkept ⟨2, "/bin/sh"⟩ s ∧ s.live = [] := by
  obtain ⟨s, hs, hstarted, hopens, hclosers⟩ : ∃ s,
      Reaches (step ⟨2, "/bin/sh"⟩) (Undisturbed ⟨2, "/bin/sh"⟩) State.initial s ∧
        s.started.map Pty.sid = ["b", "a"] ∧ s.opens = [] ∧ s.closers = [⟨true, []⟩] :=
    exists_reaches_of_execBy
      [.openCheck ⟨"a", 24, 80, ""⟩, .newPTY 0 none, .insert 0, .start 0,
        .openCheck ⟨"b", 24, 80, "/bin/zsh"⟩, .newPTY 0 none, .insert 0, .start 0,
        .hangUp ⟨0, "a", "/bin/sh", 24, 80⟩, .onSessionExit ⟨0, "a", "/bin/sh", 24, 80⟩ none,
        .closeAll, .close 0 ⟨1, "b", "/bin/zsh", 24, 80⟩]
      ⟨_, rfl, by decide, by decide, by decide⟩
  have hbookkept := bookkept_of_undisturbed hs
  have hlive : s.live = [] := hbookkept.closed ⟨true, []⟩ (by simp [hclosers]) rfl rfl hopens
  exact ⟨s, hs, hstarted, hbookkept, hlive⟩

/-- Calls pass each other. With a limit of one session, two opens pass the check before either
inserts, and two PTYs are live. Two opens with one session id leave a live PTY that is not in the
map. An `Open` that inserts after a `CloseAll` has taken its sessions leaves a live PTY behind. -/
theorem not_bookkept :
    (∃ s, Reachable (step ⟨1, "/bin/sh"⟩) State.initial s ∧ s.opens = [] ∧ s.live.length = 2) ∧
      (∃ s, Reachable (step ⟨2, "/bin/sh"⟩) State.initial s ∧ s.opens = [] ∧
        ∃ p ∈ s.live, s.sessions.find? p.sid ≠ some p) ∧
      ∃ s, Reachable (step ⟨2, "/bin/sh"⟩) State.initial s ∧ s.opens = [] ∧
        s.closers = [⟨true, []⟩] ∧ s.live ≠ [] := by
  refine ⟨exists_reaches_of_execBy [.openCheck ⟨"a", 24, 80, ""⟩, .openCheck ⟨"b", 24, 80, ""⟩,
    .newPTY 0 none, .newPTY 1 none, .insert 0, .insert 1, .start 0, .start 0] ?_,
    exists_reaches_of_execBy [.openCheck ⟨"a", 24, 80, ""⟩, .openCheck ⟨"a", 24, 80, ""⟩,
    .newPTY 0 none, .newPTY 1 none, .insert 0, .insert 1, .start 0, .start 0] ?_,
    exists_reaches_of_execBy [.openCheck ⟨"a", 24, 80, ""⟩, .newPTY 0 none, .closeAll,
    .insert 0, .start 0] ?_⟩
  · exact ⟨_, rfl, by decide, by decide⟩
  · exact ⟨_, rfl, by decide, ⟨0, "a", "/bin/sh", 24, 80⟩, by decide, by decide⟩
  · exact ⟨_, rfl, by decide, by decide, by decide⟩

end EdgeGuardian.Agent.Shell
