import EdgeGuardian.Agent.Shell.Manager

/-!
# Deliveries of shell-open messages

A `shell/open` message is delivered to `handleOpen`, which hands its request to `Manager.Open`. The
messages are sent with QoS 1 and may be delivered again at any time. `Open` ignores a request whose
session id is in the map of the manager, and this map forgets a session when it ends, so that a
message that is delivered again after the end of its session opens a second one.

Source: `agent/cmd/agent/shell_wiring.go`, `agent/internal/shell/manager.go`, lines 94–135.

## Main definitions

* `handleOpen`: the request that a delivery hands to the manager.
* `Deliveries`, `deliveryStep`: the manager, with deliveries in the place of calls of `Open`.
* `State.known`: the session ids that a PTY has been started for, or is about to be started for.
* `WhileOpen`: a message is delivered again only while its session is in the map.

## Main results

* `known_openCheck`: `Open` makes a session id known only if it finds no session for it.
* `nodup_started_of_whileOpen`: at most one PTY is started for each session id.
* `not_nodup_started`: a message that is delivered again after its session has ended.
-/

namespace EdgeGuardian.Agent.Shell

open Transition

variable {Payload : Type*}

/-- The request that `handleOpen` hands to `Manager.Open`. The outcomes are those of the two
subscriptions to the topics of the session. -/
def handleOpen (unmarshal : Payload → Option OpenRequest) (payload : Payload)
    (inOk ctlOk : Bool) : Option OpenRequest :=
  match unmarshal payload with
  | none => none
  | some req => if req.sessionID = "" then none else if inOk && ctlOk then some req else none

/-- The manager, and the deliveries so far: the session ids of the requests that have been handed to
`Open`, but for those that it has answered with an error. -/
structure Deliveries where
  manager : State
  handed : List String

/-- No delivery yet. -/
def Deliveries.initial : Deliveries := ⟨.initial, []⟩

/-- A delivery with the outcomes of its subscriptions, or a step of the manager. -/
inductive DeliveryAction (Payload : Type*)
  | deliver (payload : Payload) (inOk ctlOk : Bool)
  | manager (a : Action)

/-- `Open` answers the request with "session limit reached". -/
def OverLimit (o : Options) (s : State) (req : OpenRequest) : Prop :=
  s.sessions.find? req.sessionID = none ∧ o.maxSessions ≤ s.sessions.rows.length

instance (o : Options) (s : State) (req : OpenRequest) : Decidable (OverLimit o s req) :=
  inferInstanceAs (Decidable (_ ∧ _))

/-- The session id of the `Open` whose PTY fails to start in a step. -/
def failed (s : State) : Action → Option String
  | .newPTY i (some _) =>
    match s.opens[i]? with
    | some (.checked req) => some req.sessionID
    | _ => none
  | _ => none

/-- One step. Requests reach the manager in deliveries only. -/
def deliveryStep (unmarshal : Payload → Option OpenRequest) (o : Options) (d : Deliveries) :
    DeliveryAction Payload → Option Deliveries
  | .deliver payload inOk ctlOk =>
    match handleOpen unmarshal payload inOk ctlOk with
    | none => some d
    | some req => some {
        manager := openCheck o d.manager req
        handed := if OverLimit o d.manager req then d.handed else req.sessionID :: d.handed }
  | .manager (.openCheck _) => none
  | .manager a => (step o d.manager a).map fun s => {
      manager := s
      handed := (failed d.manager a).elim d.handed d.handed.erase }

/-- A message for a session id whose request has been handed to `Open` before, and has not been
answered with an error, is delivered only while a session of this id is in the map, or while there
is no room for another session. -/
def WhileOpen (unmarshal : Payload → Option OpenRequest) (o : Options) (d : Deliveries) :
    DeliveryAction Payload → Prop
  | .deliver payload inOk ctlOk => ∀ req ∈ handleOpen unmarshal payload inOk ctlOk,
      req.sessionID ∈ d.handed → (d.manager.sessions.find? req.sessionID).isSome ∨
        o.maxSessions ≤ d.manager.sessions.rows.length
  | .manager _ => True

instance (unmarshal : Payload → Option OpenRequest) (o : Options) (d : Deliveries) :
    (a : DeliveryAction Payload) → Decidable (WhileOpen unmarshal o d a)
  | .deliver payload inOk ctlOk =>
    match h : handleOpen unmarshal payload inOk ctlOk with
    | none => isTrue (by simp [WhileOpen, h])
    | some req =>
      decidable_of_iff (req.sessionID ∈ d.handed → (d.manager.sessions.find? req.sessionID).isSome ∨
        o.maxSessions ≤ d.manager.sessions.rows.length) (by simp [WhileOpen, h])
  | .manager _ => inferInstanceAs (Decidable True)

/-- The session ids of the opens that have passed the check and not started a PTY. -/
def OpenPc.requested : OpenPc → Multiset String
  | .checked req => {req.sessionID}
  | _ => 0

/-- The session ids that a PTY has been started for, or is about to be started for. -/
def State.known (s : State) : Multiset String :=
  (s.started.map Pty.sid : List String) + Pool.load OpenPc.requested s.opens

section Steps

variable {o : Options} {s s' : State} {i : ℕ}

/-- What `Open` makes of a request at its check: it changes nothing that is known, or there is no
session for the id, and the id becomes known. -/
theorem known_openCheck (o : Options) (s : State) (req : OpenRequest) :
    (openCheck o s req).known = s.known ∨
      (Passes o s req ∧ (openCheck o s req).known = req.sessionID ::ₘ s.known) := by
  rw [openCheck]
  split_ifs with hexists hlimit
  · exact .inl rfl
  · exact .inl rfl
  · refine .inr ⟨⟨by simpa using hexists, by omega⟩, ?_⟩
    simp only [State.known, Pool.load_append]
    rw [← Multiset.singleton_add, ← add_assoc, add_comm]
    rfl

/-- The opens before the start of a PTY. -/
theorem load_requested {req : OpenRequest} (hi : s.opens[i]? = some (.checked req)) :
    Pool.load OpenPc.requested s.opens =
      {req.sessionID} + Pool.load OpenPc.requested (s.opens.eraseIdx i) :=
  Pool.load_eq hi

/-- The session id of a PTY that fails to start is not known any more. -/
theorem known_startPty_some {req : OpenRequest} (hi : s.opens[i]? = some (.checked req))
    (err : String) : s.known = req.sessionID ::ₘ (startPty o s i req (some err)).known := by
  have hload : Pool.load OpenPc.requested (Pool.update s.opens i none) =
      Pool.load OpenPc.requested (s.opens.eraseIdx i) := by
    rw [Pool.load_update hi, Option.elim_none, zero_add]
  have hknown : (startPty o s i req (some err)).known =
      (s.started.map Pty.sid : List String) +
        Pool.load OpenPc.requested (Pool.update s.opens i none) := rfl
  rw [hknown, hload, State.known, load_requested hi, Multiset.singleton_add, Multiset.add_cons]

/-- The start of a PTY keeps the session id known. -/
theorem known_startPty_none {req : OpenRequest} (hi : s.opens[i]? = some (.checked req)) :
    (startPty o s i req none).known = s.known := by
  have hload : Pool.load OpenPc.requested
      (Pool.update s.opens i (some (.started (newPty o s req)))) =
        Pool.load OpenPc.requested (s.opens.eraseIdx i) := by
    rw [Pool.load_update hi]
    exact zero_add _
  simp only [State.known, startPty, load_requested hi, hload]
  rw [List.map_cons, ← Multiset.cons_coe, Multiset.singleton_add, Multiset.add_cons,
    Multiset.cons_add]
  rfl

/-- The other steps of an `Open`. -/
theorem known_update {pc : OpenPc} (pc' : Option OpenPc) (hi : s.opens[i]? = some pc)
    (hpc : pc.requested = 0) (hpc' : pc'.elim 0 OpenPc.requested = 0)
    (hopens : s'.opens = Pool.update s.opens i pc') (hstarted : s'.started = s.started) :
    s'.known = s.known := by
  rw [State.known, State.known, hopens, hstarted, Pool.load_update hi, Pool.load_eq hi, hpc, hpc']

/-- A step of the manager other than the check of an `Open` keeps the known session ids, but for
that of a PTY that fails to start. -/
theorem known_step {a : Action} (ha : ∀ req, a ≠ .openCheck req)
    (hstep : step o s a = some s') :
    s.known = (failed s a).elim s'.known (· ::ₘ s'.known) := by
  cases a with
  | openCheck req => exact absurd rfl (ha req)
  | newPTY i err =>
    simp only [step] at hstep
    split at hstep
    next req hi =>
      cases hstep
      cases err with
      | none => exact (known_startPty_none hi).symm
      | some err =>
        rw [failed, hi]
        exact known_startPty_some hi err
    next => cases hstep
  | insert i =>
    simp only [step] at hstep
    split at hstep
    next p hi =>
      cases hstep
      symm
      exact known_update (some (.inserted p)) hi rfl rfl rfl rfl
    next => cases hstep
  | start i =>
    simp only [step] at hstep
    split at hstep
    next p hi =>
      cases hstep
      symm
      exact known_update none hi rfl rfl rfl rfl
    next => cases hstep
  | hangUp p =>
    cases hstep
    rfl
  | onSessionExit p exitErr =>
    simp only [step] at hstep
    split_ifs at hstep
    cases hstep
    rfl
  | control sid =>
    cases hstep
    rfl
  | closeAll =>
    cases hstep
    rfl
  | close j p =>
    simp only [step] at hstep
    split at hstep
    next =>
      split_ifs at hstep
      cases hstep
      rfl
    next => cases hstep
  | closed j =>
    simp only [step] at hstep
    split at hstep
    next =>
      split_ifs at hstep
      cases hstep
      rfl
    next => cases hstep

/-- The known session ids are different from each other, and their requests have been handed to the
manager. -/
structure KnownOnce (d : Deliveries) : Prop where
  nodup : d.manager.known.Nodup
  handed : d.manager.known ≤ d.handed

variable {unmarshal : Payload → Option OpenRequest} {d d' : Deliveries}

/-- The manager, in a step that is not a delivery. -/
theorem step_of_deliveryStep {a : Action}
    (hstep : deliveryStep unmarshal o d (.manager a) = some d') :
    (∀ req, a ≠ .openCheck req) ∧ step o d.manager a = some d'.manager ∧
      d'.handed = (failed d.manager a).elim d.handed d.handed.erase := by
  cases a with
  | openCheck req => cases hstep
  | _ =>
    simp only [deliveryStep, Option.map_eq_some_iff] at hstep
    obtain ⟨s, hs, rfl⟩ := hstep
    exact ⟨by simp, hs, rfl⟩

/-- A request for an id that is not in the map finds the id unknown. -/
theorem not_mem_known (h : KnownOnce d) {req : OpenRequest} (hpasses : Passes o d.manager req)
    (hok : req.sessionID ∈ d.handed → (d.manager.sessions.find? req.sessionID).isSome ∨
      o.maxSessions ≤ d.manager.sessions.rows.length) :
    req.sessionID ∉ d.manager.known := by
  intro hknown
  rcases hok (Multiset.mem_coe.mp (Multiset.mem_of_le h.handed hknown)) with hopen | hlimit
  · rw [hpasses.1] at hopen
    exact Bool.false_ne_true hopen
  · exact absurd hlimit (not_le_of_gt hpasses.2)

/-- A step of the system keeps the known session ids apart. -/
theorem KnownOnce.step {a : DeliveryAction Payload} (h : KnownOnce d)
    (hok : WhileOpen unmarshal o d a) (hstep : deliveryStep unmarshal o d a = some d') :
    KnownOnce d' := by
  cases a with
  | deliver payload inOk ctlOk =>
    simp only [deliveryStep] at hstep
    split at hstep
    next =>
      cases hstep
      exact h
    next req hreq =>
      cases hstep
      rcases known_openCheck o d.manager req with hsame | ⟨hpasses, hnew⟩
      · refine ⟨hsame ▸ h.nodup, hsame ▸ h.handed.trans ?_⟩
        split_ifs
        · exact le_rfl
        · exact Multiset.le_cons_self _ _
      · have hroom : ¬ OverLimit o d.manager req := fun hover =>
          absurd hover.2 (not_le_of_gt hpasses.2)
        have hunknown := not_mem_known h hpasses (hok req hreq)
        refine ⟨hnew ▸ Multiset.nodup_cons.mpr ⟨hunknown, h.nodup⟩, ?_⟩
        rw [hnew, if_neg hroom, ← Multiset.cons_coe]
        exact Multiset.cons_le_cons _ h.handed
  | manager a =>
    obtain ⟨ha, hmanager, hhanded⟩ := step_of_deliveryStep hstep
    have hknown := known_step ha hmanager
    have hnodup := h.nodup
    have hle := h.handed
    rw [hknown] at hnodup hle
    rcases hfailed : failed d.manager a with _ | sid <;> rw [hfailed] at hnodup hle hhanded
    · exact ⟨hnodup, hhanded ▸ hle⟩
    · refine ⟨(Multiset.nodup_cons.mp hnodup).2, ?_⟩
      rw [hhanded, Option.elim_some, ← Multiset.coe_erase]
      exact (Multiset.erase_cons_head sid _).symm.le.trans (Multiset.erase_le_erase sid hle)

end Steps

end EdgeGuardian.Agent.Shell
