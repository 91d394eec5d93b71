import EdgeGuardian.Controller.ShellConcurrency.Activation

/-!
# Limits and audit along undisturbed runs

`create` counts the sessions that are in the map by an iteration that is only weakly consistent.
While nobody else puts a session of the same device or organization, every session that is there at
the end of the iteration has been counted, so that there is room for one more when it is put.

## Main definitions

* `Pc.Room`, `Limits`: what `create` knows of the limits, and that they are kept.

## Main results

* `sound_of_undisturbed`: in undisturbed runs the limits are kept, and every session that was opened
  is closed once.
* `not_sound`: two creates, an activation and a close, and an activation and a purge, can pass each
  other.
-/

namespace EdgeGuardian.Controller.ShellConcurrency

open Transition

/-! ### The limits -/

/-- The sessions in the map that the limit counts. -/
def State.scoped (s : State) (scope : Scope) : Finset String :=
  s.sessions.filter fun id => s.contains scope id

/-- What `create` knows of the limits while it counts: every session that is there has been counted
or is still to be, and the limits that it has checked have room for one more. -/
def Pc.Room (props : ShellProperties) (s : State) : Pc → Prop
  | .countDevice c w => w.Covers (s.scoped (.device c.deviceId))
  | .countOrg c w =>
    s.count (.device c.deviceId) < props.maxSessionsPerDevice ∧
      w.Covers (s.scoped (.organization c.principal.organizationId))
  | .put c =>
    s.count (.device c.deviceId) < props.maxSessionsPerDevice ∧
      s.count (.organization c.principal.organizationId) < props.maxSessionsPerOrg
  | _ => True

/-- What holds of the limits along undisturbed runs. -/
structure Limits (props : ShellProperties) (s : State) : Prop where
  limits : ∀ scope, s.count scope ≤ scope.limit props
  room : ∀ pc ∈ s.calls, pc.Room props s

section Limits

variable {props : ShellProperties} {s s' : State} {pc : Pc}

/-- Where there are no more sessions than before, what a call knows stays true. -/
theorem Pc.Room.mono (h : pc.Room props s)
    (hsub : ∀ c ∈ pc.counts, ∀ scope ∈ c.scopes, s'.scoped scope ⊆ s.scoped scope) :
    pc.Room props s' := by
  have hdevice (c : Creation) (hc : c ∈ pc.counts) :
      s'.scoped (.device c.deviceId) ⊆ s.scoped (.device c.deviceId) :=
    hsub c hc _ (by simp [Creation.scopes])
  have horg (c : Creation) (hc : c ∈ pc.counts) :
      s'.scoped (.organization c.principal.organizationId) ⊆
        s.scoped (.organization c.principal.organizationId) :=
    hsub c hc _ (by simp [Creation.scopes])
  cases pc with
  | countDevice c w => exact WeakIteration.Covers.mono h (hdevice c rfl)
  | countOrg c w =>
    exact ⟨(Finset.card_le_card (hdevice c rfl)).trans_lt h.1,
      WeakIteration.Covers.mono h.2 (horg c rfl)⟩
  | put c =>
    exact ⟨(Finset.card_le_card (hdevice c rfl)).trans_lt h.1,
      (Finset.card_le_card (horg c rfl)).trans_lt h.2⟩
  | _ => trivial

/-- A session in the map has been created. -/
theorem Inv.exists_session_of_mem (h : Inv s) {id : String} (hmem : id ∈ s.sessions) :
    ∃ session, s.heap id = some session := by
  rcases hheap : s.heap id with _ | session
  · have htotal := h.created id hheap
    have hpresent : s.present id = 1 := if_pos hmem
    simp only [State.total] at htotal
    omega
  · exact ⟨session, rfl⟩

theorem contains_eq_of_progress (hprogress : Progress s.heap s'.heap) {id : String}
    {session : ShellSession} (hsession : s.heap id = some session) (scope : Scope) :
    s'.contains scope id = s.contains scope id := by
  obtain ⟨session', hsession', hfollows⟩ := hprogress id session hsession
  rw [State.contains, State.contains, hsession, hsession', Option.any_some, Option.any_some,
    hfollows.contains_eq]

/-- A step that puts no session. -/
theorem scoped_subset (h : Inv s) (hprogress : Progress s.heap s'.heap)
    (hsessions : s'.sessions ⊆ s.sessions) (scope : Scope) :
    s'.scoped scope ⊆ s.scoped scope := by
  intro id hid
  obtain ⟨hmem, hcontains⟩ := Finset.mem_filter.mp hid
  obtain ⟨session, hsession⟩ := h.exists_session_of_mem (hsessions hmem)
  rw [contains_eq_of_progress hprogress hsession] at hcontains
  exact Finset.mem_filter.mpr ⟨hsessions hmem, hcontains⟩

/-- The limits after a step that puts no session. -/
theorem Limits.of_subset (h : Limits props s) (hinv : Inv s)
    (hprogress : Progress s.heap s'.heap) (hsessions : s'.sessions ⊆ s.sessions)
    (hcalls : ∀ pc ∈ s'.calls, pc ∈ s.calls ∨ pc.Room props s') : Limits props s' where
  limits scope :=
    (Finset.card_le_card (scoped_subset hinv hprogress hsessions scope)).trans (h.limits scope)
  room pc hpc := by
    rcases hcalls pc hpc with hold | hnew
    · refine (h.room pc hold).mono fun c _ scope _ => ?_
      exact scoped_subset hinv hprogress hsessions scope
    · exact hnew

/-- An iteration that is done has counted every session that is there. -/
theorem count_le_countBy {scope : Scope} {w : WeakIteration String} (h : w.Covers (s.scoped scope))
    (hdone : w.Done s.sessions) : s.count scope ≤ s.countBy scope w := by
  refine Finset.card_le_card fun id hid => ?_
  have hseen := h.subset_seen (Finset.filter_subset _ _) hdone hid
  exact Finset.mem_filter.mpr ⟨hseen, (Finset.mem_filter.mp hid).2⟩

theorem covers_start_scoped (s : State) (scope : Scope) :
    (WeakIteration.start s.sessions).Covers (s.scoped scope) :=
  (WeakIteration.covers_start s.sessions).mono (Finset.filter_subset _ _)

/-- A call that puts no session: no session is added to the map, and the call knows what it has
counted. -/
theorem advance_room {now : Instant} {fresh : Shell.ShellTicket} {r : State × Option Pc}
    (hroom : pc.Room props s) (hputs : pc.puts = none)
    (hadvance : advance props s now fresh pc = some r) :
    r.1.sessions ⊆ s.sessions ∧ ∀ q ∈ r.2, q.Room props r.1 := by
  cases pc with
  | purging c t w =>
    simp only [advance] at hadvance
    split_ifs at hadvance
    cases hadvance
    refine ⟨subset_rfl, ?_⟩
    rintro _ ⟨⟩
    exact covers_start_scoped s _
  | countDevice c w =>
    simp only [advance] at hadvance
    split_ifs at hadvance with hdone hlimit
    · cases hadvance
      exact ⟨subset_rfl, by simp⟩
    · cases hadvance
      refine ⟨subset_rfl, ?_⟩
      rintro _ ⟨⟩
      have hcount := count_le_countBy hroom hdone
      exact ⟨hcount.trans_lt (by omega), covers_start_scoped s _⟩
  | countOrg c w =>
    simp only [advance] at hadvance
    split_ifs at hadvance with hdone hlimit
    · cases hadvance
      exact ⟨subset_rfl, by simp⟩
    · cases hadvance
      refine ⟨subset_rfl, ?_⟩
      rintro _ ⟨⟩
      have hcount := count_le_countBy hroom.2 hdone
      exact ⟨hroom.1, hcount.trans_lt (by omega)⟩
  | put c => cases hputs
  | purgeRemove c t w id =>
    cases hadvance
    refine ⟨Finset.erase_subset _ _, ?_⟩
    rintro _ ⟨⟩
    trivial
  | expired id =>
    cases hadvance
    exact ⟨Finset.erase_subset _ _, by simp⟩
  | logOpened id =>
    obtain ⟨session, -, rfl⟩ := Option.map_eq_some_iff.mp hadvance
    exact ⟨subset_rfl, by simp⟩
  | closeLog id reason =>
    obtain ⟨session, -, rfl⟩ := Option.map_eq_some_iff.mp hadvance
    split
    · exact ⟨subset_rfl, by simp⟩
    · exact ⟨subset_rfl, by simp⟩
  | purgeIndex c t w id | closeIndex id reason =>
    simp only [advance] at hadvance
    split at hadvance
    · cases hadvance
      exact ⟨subset_rfl, by simp⟩
    · cases hadvance
      refine ⟨subset_rfl, ?_⟩
      rintro _ ⟨⟩
      trivial
  | purgeTicket c t w id | get id sink | check id sink | closeTicket id reason
  | closeActive id reason =>
    simp only [advance] at hadvance
    split_ifs at hadvance <;> cases hadvance <;> refine ⟨subset_rfl, ?_⟩ <;> rintro _ ⟨⟩ <;> trivial
  | index id ticket | clearTicket id sink | setActive id sink | setOpenedAt id sink
  | setSink id sink =>
    cases hadvance
    refine ⟨subset_rfl, ?_⟩
    rintro _ ⟨⟩ <;> trivial

/-- The sessions that a limit counts, after a new one. -/
theorem scoped_put {c : Creation} {now : Instant} {fresh : Shell.ShellTicket} (h : Inv s)
    (hfresh : s.heap fresh.sessionId = none)
    (hheap : s'.heap = Function.update s.heap fresh.sessionId (some (newSession props c now fresh)))
    (hsessions : s'.sessions = insert fresh.sessionId s.sessions) (scope : Scope) :
    s'.scoped scope ⊆ s.scoped scope ∨
      (scope ∈ c.scopes ∧ s'.scoped scope ⊆ insert fresh.sessionId (s.scoped scope)) := by
  have hprogress : Progress s.heap s'.heap := hheap ▸ progress_update hfresh _
  have hold (id : String) (hmem : id ∈ s.sessions) (hcontains : s'.contains scope id) :
      id ∈ s.scoped scope := by
    obtain ⟨session, hsession⟩ := h.exists_session_of_mem hmem
    rw [contains_eq_of_progress hprogress hsession] at hcontains
    exact Finset.mem_filter.mpr ⟨hmem, hcontains⟩
  by_cases hscope : scope ∈ c.scopes
  · refine .inr ⟨hscope, fun id hid => ?_⟩
    obtain ⟨hmem, hcontains⟩ := Finset.mem_filter.mp hid
    rw [hsessions] at hmem
    rcases Finset.mem_insert.mp hmem with rfl | hmem
    · exact Finset.mem_insert_self _ _
    · exact Finset.mem_insert_of_mem (hold id hmem hcontains)
  · refine .inl fun id hid => ?_
    obtain ⟨hmem, hcontains⟩ := Finset.mem_filter.mp hid
    rw [hsessions] at hmem
    rcases Finset.mem_insert.mp hmem with rfl | hmem
    · refine absurd ?_ hscope
      rw [State.contains, hheap, Function.update_self, Option.any_some] at hcontains
      cases scope <;> simpa [Scope.contains, newSession, Creation.scopes, eq_comm] using hcontains
    · exact hold id hmem hcontains

/-- The limits after a new session: the call has counted everything that is there, and nobody else
who has begun to count is concerned. -/
theorem Limits.put {c : Creation} {now : Instant} {fresh : Shell.ShellTicket} {i : ℕ}
    (h : Limits props s) (hinv : Inv s) (hi : s.calls[i]? = some (.put c))
    (hothers : ∀ other ∈ s.calls.eraseIdx i, ∀ c' ∈ other.counts, ¬ c.Meets c')
    (hfresh : s.heap fresh.sessionId = none)
    (hheap : s'.heap = Function.update s.heap fresh.sessionId (some (newSession props c now fresh)))
    (hsessions : s'.sessions = insert fresh.sessionId s.sessions)
    (hcalls : s'.calls =
      Pool.update s.calls i (some (.index fresh.sessionId fresh.ticket))) : Limits props s' := by
  have hput := scoped_put hinv hfresh hheap hsessions
  have hroom : (Pc.put c).Room props s := h.room _ (List.mem_of_getElem? hi)
  refine ⟨fun scope => ?_, fun pc hpc => ?_⟩
  · rcases hput scope with hsub | ⟨hscope, hsub⟩
    · exact (Finset.card_le_card hsub).trans (h.limits scope)
    · have hlt : s.count scope < scope.limit props := by
        rcases List.mem_pair.mp hscope with rfl | rfl
        · exact hroom.1
        · exact hroom.2
      exact (Finset.card_le_card hsub).trans ((Finset.card_insert_le _ _).trans hlt)
  · rw [hcalls] at hpc
    rcases Pool.mem_of_mem_update hpc with hother | hnew
    · refine (h.room pc (List.mem_of_mem_eraseIdx hother)).mono fun c' hc' scope hscope => ?_
      refine (hput scope).resolve_right fun hmeet => hothers pc hother c' hc' ?_
      rcases List.mem_pair.mp hscope with rfl | rfl
      · exact .inl (by simpa [Creation.scopes, eq_comm] using hmeet.1)
      · exact .inr (by simpa [Creation.scopes, eq_comm] using hmeet.1)
    · cases hnew
      trivial

/-- A visit of an iteration. -/
theorem visit_room {id : String} {pc' : Pc} (hroom : pc.Room props s)
    (hvisit : visit s id pc = some pc') : pc'.Room props s := by
  cases pc with
  | purging c now w =>
    simp only [visit] at hvisit
    split_ifs at hvisit
    · cases hvisit
      trivial
    · cases hvisit
      trivial
  | countDevice c w =>
    simp only [visit] at hvisit
    split_ifs at hvisit
    cases hvisit
    exact WeakIteration.Covers.visit hroom id
  | countOrg c w =>
    simp only [visit] at hvisit
    split_ifs at hvisit
    cases hvisit
    exact ⟨hroom.1, hroom.2.visit id⟩
  | _ => cases hvisit

/-- Every step of an undisturbed run keeps the limits. -/
theorem Limits.step {a : Action} (h : Limits props s) (hinv : Inv s) (hok : Undisturbed s a)
    (hstep : ShellConcurrency.step props s a = some s') : Limits props s' := by
  have happend (pc : Pc) (hpc : pc.Room props s') (hcalls : s'.calls = s.calls ++ [pc]) :
      ∀ q ∈ s'.calls, q ∈ s.calls ∨ q.Room props s' := by
    intro q hq
    rw [hcalls] at hq
    rcases List.mem_append.mp hq with hold | hnew
    · exact .inl hold
    · exact .inr (List.mem_singleton.mp hnew ▸ hpc)
  cases a with
  | create db c now =>
    simp only [ShellConcurrency.step] at hstep
    split at hstep
    next =>
      cases hstep
      exact h
    next device _ =>
      split_ifs at hstep
      · cases hstep
        exact h
      · cases hstep
        exact h.of_subset hinv (.refl _) subset_rfl
          (happend (.purging c now (.start s.sessions)) trivial rfl)
  | activate ticket sink =>
    simp only [ShellConcurrency.step] at hstep
    split at hstep
    next =>
      cases hstep
      exact h
    next e _ =>
      cases hstep
      exact h.of_subset hinv (.refl _) subset_rfl (happend (.get e.sessionId sink) trivial rfl)
  | close id reason =>
    simp only [ShellConcurrency.step] at hstep
    split_ifs at hstep
    · cases hstep
      exact h.of_subset hinv (.refl _) (Finset.erase_subset _ _)
        (happend (.closeTicket id reason) trivial rfl)
    · cases hstep
      exact h
  | visit i id =>
    obtain ⟨pc', hpc', rfl⟩ := Option.map_eq_some_iff.mp hstep
    obtain ⟨pc, hi, hvisit⟩ := Option.bind_eq_some_iff.mp hpc'
    have hroom := visit_room (h.room pc (List.mem_of_getElem? hi)) hvisit
    refine h.of_subset hinv (.refl _) subset_rfl fun q hq => ?_
    have hq : q ∈ Pool.update s.calls i (some pc') := hq
    refine (Pool.mem_of_mem_update hq).imp List.mem_of_mem_eraseIdx fun hnew => ?_
    cases hnew
    exact hroom
  | next i now fresh =>
    obtain ⟨r, hr, rfl⟩ := Option.map_eq_some_iff.mp hstep
    obtain ⟨pc, hi, hadvance⟩ := Option.bind_eq_some_iff.mp hr
    by_cases hputs : pc.puts = none
    · obtain ⟨hsub, hroom⟩ := advance_room (h.room pc (List.mem_of_getElem? hi)) hputs hadvance
      refine h.of_subset hinv (advance_progress hadvance) hsub fun q hq => ?_
      exact (Pool.mem_of_mem_update hq).imp List.mem_of_mem_eraseIdx fun hnew => hroom q hnew
    · cases pc with
      | put c =>
        simp only [advance] at hadvance
        split_ifs at hadvance with hfresh
        cases hadvance
        exact h.put hinv hi ((hok _ hi).1 c rfl) hfresh rfl rfl rfl
      | _ => exact absurd rfl hputs

end Limits

/-! ### Runs -/

/-- **Limits and audit of concurrent shell sessions.** In every run in which no session is put while
another `create` for its device or organization is between its counts and its put, no session is
closed or purged while an activation has it and has not written when it was opened, and no active
session is purged: the number of sessions is within both limits, and every session whose activation
has returned has one `shell_opened`, and is in the map, or in the hands of one call of `close`, or
has one `shell_closed`. -/
theorem sound_of_undisturbed {props : ShellProperties} {s : State}
    (h : Reaches (step props) Undisturbed State.initial s) : Sound props s := by
  have hinv : Inv s ∧ Limits props s := by
    refine h.invariant (fun s => Inv s ∧ Limits props s) ?_ ⟨inv_initial, ?_⟩
    · intro s a t hs hok hstep
      exact ⟨hs.1.step hok hstep, hs.2.step hs.1 hok hstep⟩
    · exact ⟨fun scope => Nat.zero_le _, by simp [State.initial]⟩
  refine ⟨hinv.2.limits, fun id hopened => ?_⟩
  obtain ⟨honce, htaken, -, hlate⟩ := hinv.1.counts id
  exact ⟨by omega, by omega⟩

namespace Racing

/-- An online device of the organization 1. -/
def db : Db :=
  (register (default : Env) 1 "d" ⟨none, none, none, none, none⟩ (.empty .empty)).2

/-- One session per device, and tickets for 30 seconds. -/
def props : ShellProperties := ⟨1, 10, 30⟩

/-- A user reserves a session. -/
def reserve (now : Instant) : Action := .create db ⟨⟨1, 7⟩, "d", 24, 80⟩ now

/-- A call goes on, and needs no random values. -/
def go (i : ℕ) (now : Instant) : Action := .next i now ⟨"", ""⟩

/-- The session `s1` is created, with nobody else around. -/
def created : List Action :=
  [reserve 0, go 0 0, go 0 0, go 0 0, .next 0 0 ⟨"s1", "t1"⟩, go 0 0]

/-- The session is activated, closed by its socket and by the device, and followed by another. -/
def oneByOne : List Action :=
  created ++ [.activate "t1" 5, go 0 1, go 0 1, go 0 1, go 0 1, go 0 1, go 0 1, go 0 1,
    .close "s1" "ws_closed", .close "s1" "shell_exited", go 0 9, go 0 9, go 0 9,
    reserve 10, go 0 10, go 0 10, go 0 10, .next 0 10 ⟨"s2", "t2"⟩, go 0 10]

/-- Two creates count before either puts its session. -/
def twoCreates : List Action :=
  [reserve 0, reserve 0, go 0 0, go 0 0, go 0 0, go 1 0, go 1 0, go 1 0,
    .next 0 0 ⟨"s1", "t1"⟩, .next 1 0 ⟨"s2", "t2"⟩, go 0 0, go 0 0]

/-- The session is closed when the activation has got it and not written that it is active. -/
def closedEarly : List Action :=
  created ++ [.activate "t1" 5, go 0 1, go 0 1, .close "s1" "shell_exited", go 1 1, go 1 1, go 1 1,
    go 0 1, go 0 1, go 0 1, go 0 1, go 0 1]

/-- The session is purged by another create, which has found it expired before the activation has
written that it is active. -/
def purgedLate : List Action :=
  created ++ [.activate "t1" 5, go 0 1, go 0 1, reserve 100, .visit 1 "s1", go 1 100, go 1 100,
    go 0 1, go 0 1, go 0 1, go 0 1, go 0 1, go 0 100]

end Racing

open Racing in
/-- One session after the other: the first is opened and closed once, and the second has its
room. -/
theorem sound_one_by_one : ∃ s, Reaches (step props) Undisturbed State.initial s ∧
    s.calls = [] ∧ s.opened "s1" = 1 ∧ s.closed "s1" = 1 ∧ s.sessions = {"s2"} ∧ Sound props s := by
  obtain ⟨s, hs, hcalls, hopened, hclosed, hsessions⟩ :
      ∃ s, Reaches (step props) Undisturbed State.initial s ∧
        s.calls = [] ∧ s.opened "s1" = 1 ∧ s.closed "s1" = 1 ∧ s.sessions = {"s2"} :=
    exists_reaches_of_execBy oneByOne (by decide +kernel)
  exact ⟨s, hs, hcalls, hopened, hclosed, hsessions, sound_of_undisturbed hs⟩

open Racing in
/-- Calls pass each other. Two creates leave two sessions of a device that may have one. A session
that is closed, or purged, in the middle of its activation has a `shell_opened`, is not in the map,
and nobody will ever log that it was closed. -/
theorem not_sound :
    (∃ s, Reachable (step props) State.initial s ∧ s.calls = [] ∧
        s.count (.device "d") = 2 ∧ props.maxSessionsPerDevice = 1) ∧
      (∃ s, Reachable (step props) State.initial s ∧ s.calls = [] ∧ s.opened "s1" = 1 ∧
        "s1" ∉ s.sessions ∧ s.closed "s1" = 0) ∧
      ∃ s, Reachable (step props) State.initial s ∧ s.opened "s1" = 1 ∧ "s1" ∉ s.sessions ∧
        s.held "s1" .closing = 0 ∧ s.closed "s1" = 0 :=
  ⟨exists_reaches_of_execBy twoCreates (by decide +kernel),
    exists_reaches_of_execBy closedEarly (by decide +kernel),
    exists_reaches_of_execBy purgedLate (by decide +kernel)⟩

end EdgeGuardian.Controller.ShellConcurrency
