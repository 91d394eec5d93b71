import EdgeGuardian.Controller.ShellConcurrency.Accounting

/-!
# Activation and audit along undisturbed runs

The counts of every session are kept by every step of an undisturbed run, together with what the
calls in progress have seen and written of their sessions: a call of `close` that has a session
which was opened finds its fields written, and so comes to its entry in the audit log.

## Main definitions

* `Inv`: the counts, the fields of opened sessions, and what the calls know.
* `Resumes`: a call has gone on.

## Main results

* `Inv.advance`: a call that goes on keeps the invariant.
* `Inv.step`: so does every step.
-/

namespace EdgeGuardian.Controller.ShellConcurrency

/-! ### The invariant -/

/-- What a call has seen or written of its session. -/
def Pc.Consistent (s : State) : Pc → Prop
  | .setActive id _ => ∃ session ∈ s.heap id, session.ticket = none
  | .setOpenedAt id _ => ∃ session ∈ s.heap id, session.ticket = none ∧ session.active = true
  | .closeIndex id _ => s.held id .late + s.opened id = 0
  | _ => True

/-- What holds of the sessions along undisturbed runs. -/
structure Inv (s : State) : Prop where
  counts : ∀ id, Counts s id
  /-- A session that is opened, or about to be logged as opened, has its fields written. -/
  settled : ∀ id, 0 < s.held id .late + s.opened id → ∃ session ∈ s.heap id, Settled session
  consistent : ∀ pc ∈ s.calls, pc.Consistent s
  /-- There is nothing of a session that has not been created. -/
  created : ∀ id, s.heap id = none → s.total id = 0

theorem inv_initial : Inv State.initial where
  counts id := by constructor <;> simp [State.initial, State.indexed, State.held, State.opened,
    State.closed, State.present, Pool.load]
  settled id h := by simp [State.initial, State.held, State.opened, Pool.load] at h
  consistent := by simp [State.initial]
  created id _ := by simp [State.initial, State.total, State.indexed, State.held, State.opened,
    State.closed, State.present, Pool.load]

section Invariant

variable {s s' : State} {id : String} {pc : Pc}

/-- A call that is about a session is about one that has been created. -/
theorem Inv.exists_session (h : Inv s) {stage : Stage} (hheld : 0 < s.held id stage) :
    ∃ session, s.heap id = some session := by
  rcases hheap : s.heap id with _ | session
  · have htotal := h.created id hheap
    cases stage <;> (simp only [State.total] at htotal; omega)
  · exact ⟨session, rfl⟩

theorem held_pos (stage : Stage) (hpc : pc ∈ s.calls) (hholds : pc.holds = some (stage, id)) :
    0 < s.held id stage := by
  obtain ⟨i, hi⟩ := List.getElem?_of_mem hpc
  have hload : s.held id stage =
      pc.weight stage id + Pool.load (Pc.weight stage id) (s.calls.eraseIdx i) := Pool.load_eq hi
  rw [hload, Pc.weight, if_pos hholds]
  omega

/-- A session whose fields are not all written is neither opened nor about to be logged. -/
theorem Inv.late_eq_zero (h : Inv s) (hsession : ∀ session ∈ s.heap id, ¬ Settled session) :
    s.held id .late + s.opened id = 0 := by
  by_contra hpos
  obtain ⟨session, hmem, hsettled⟩ := h.settled id (by omega)
  exact hsession session hmem hsettled

/-- A step keeps what a call has seen and written, if it brings no session that is being closed
nearer to its opening. -/
theorem Pc.Consistent.of_progress (h : pc.Consistent s) (hprogress : Progress s.heap s'.heap)
    (hlate : ∀ id, pc.holds = some (.closing, id) →
      s'.held id .late + s'.opened id ≤ s.held id .late + s.opened id) : pc.Consistent s' := by
  cases pc with
  | setActive id sink =>
    obtain ⟨session, hmem, hticket⟩ := h
    obtain ⟨session', hmem', hfollows⟩ := hprogress id session hmem
    exact ⟨session', hmem', hfollows.ticket hticket⟩
  | setOpenedAt id sink =>
    obtain ⟨session, hmem, hticket, hactive⟩ := h
    obtain ⟨session', hmem', hfollows⟩ := hprogress id session hmem
    exact ⟨session', hmem', hfollows.ticket hticket, hfollows.active hactive⟩
  | closeIndex id reason => exact Nat.le_zero.mp ((hlate id rfl).trans_eq h)
  | _ => trivial

/-- The invariant after a step that brings a session nearer to its opening only if its fields are
written and nobody is closing it. -/
theorem Inv.of_counts (h : Inv s) (hcounts : ∀ id, Counts s' id)
    (hlate : ∀ id, s'.held id .late + s'.opened id ≤ s.held id .late + s.opened id ∨
      (s.held id .closing = 0 ∧ ∃ session ∈ s'.heap id, Settled session))
    (htotal : ∀ id, s'.heap id = none → s'.total id ≤ s.total id)
    (hprogress : Progress s.heap s'.heap)
    (hcalls : ∀ pc ∈ s'.calls, pc ∈ s.calls ∨ pc.Consistent s') : Inv s' where
  counts := hcounts
  settled id hpos := by
    rcases hlate id with hle | ⟨-, hsettled⟩
    · obtain ⟨session, hmem, hsettled⟩ := h.settled id (hpos.trans_le hle)
      obtain ⟨session', hmem', hfollows⟩ := hprogress id session hmem
      exact ⟨session', hmem', hsettled.of_follows hfollows⟩
    · exact hsettled
  consistent pc hpc := by
    rcases hcalls pc hpc with hold | hnew
    · refine (h.consistent pc hold).of_progress hprogress fun id hholds => ?_
      have hclosing := held_pos .closing hold hholds
      exact (hlate id).resolve_right fun hzero => by omega
    · exact hnew
  created id hid := by
    have htotal₀ := h.created id (hprogress.eq_none hid)
    exact Nat.le_zero.mp ((htotal id hid).trans_eq htotal₀)

/-- The invariant after a step that keeps the counts of every session. -/
theorem Inv.of_kept (h : Inv s) (hprogress : Progress s.heap s'.heap)
    (hkept : ∀ id, Kept s s' id)
    (hcalls : ∀ pc ∈ s'.calls, pc ∈ s.calls ∨ pc.Consistent s') : Inv s' :=
  h.of_counts (fun id => (hkept id).counts) (fun id => .inl (hkept id).late)
    (fun id _ => (hkept id).total) hprogress hcalls

end Invariant

/-! ### A call goes on -/

/-- A call has gone on: it was at `pc`, and is at `pc'` now, or through. -/
def Resumes (s s' : State) (pc : Pc) (pc' : Option Pc) : Prop :=
  ∃ i : ℕ, s.calls[i]? = some pc ∧ s'.calls = Pool.update s.calls i pc'

section Resumes

variable {s s' : State} {id : String} {pc : Pc} {pc' : Option Pc}

theorem Resumes.goes (h : Resumes s s' pc pc') : Goes s s' pc.holds (pc'.bind Pc.holds) := by
  obtain ⟨i, hi, hcalls⟩ := h
  exact goes_of_update hi hcalls

theorem Resumes.mem (h : Resumes s s' pc pc') : pc ∈ s.calls := by
  obtain ⟨i, hi, -⟩ := h
  exact List.mem_of_getElem? hi

theorem Resumes.consistent (h : Resumes s s' pc pc') (hpc' : ∀ q ∈ pc', q.Consistent s') :
    ∀ q ∈ s'.calls, q ∈ s.calls ∨ q.Consistent s' := by
  obtain ⟨i, -, hcalls⟩ := h
  intro q hq
  rw [hcalls] at hq
  exact (Pool.mem_of_mem_update hq).imp List.mem_of_mem_eraseIdx (hpc' q)

/-- In the same stage, without a change of the maps or of the audit log. -/
theorem Inv.of_same (h : Inv s) (hr : Resumes s s' pc pc') (hholds : pc'.bind Pc.holds = pc.holds)
    (hprogress : Progress s.heap s'.heap) (hsame : ∀ id, Same s s' id)
    (hpc' : ∀ q ∈ pc', q.Consistent s') : Inv s' := by
  refine h.of_kept hprogress (fun id => ?_) (hr.consistent hpc')
  exact (h.counts id).kept_of_same hr.goes (fun stage => by rw [hholds]) (hsame id)

/-- A step about the session `id₀` that keeps its counts, and leaves the others as they are. -/
theorem Inv.of_about (h : Inv s) (hr : Resumes s s' pc pc') (id₀ : String)
    (hpc : ∀ x ∈ pc.holds, x.2 = id₀) (hpc' : ∀ x ∈ pc'.bind Pc.holds, x.2 = id₀)
    (hprogress : Progress s.heap s'.heap) (hkept : Kept s s' id₀)
    (hsame : ∀ id, id₀ ≠ id → Same s s' id) (hconsistent : ∀ q ∈ pc', q.Consistent s') :
    Inv s' := by
  refine h.of_kept hprogress (fun id => ?_) (hr.consistent hconsistent)
  by_cases hid : id₀ = id
  · exact hid ▸ hkept
  · exact (h.counts id).kept_of_ne hr.goes hid hpc hpc' (hsame id hid)

/-- A session that is not in use is purged. -/
theorem Inv.purgeRemove (h : Inv s) {c : Creation} {now : Instant} {w : WeakIteration String}
    (hr : Resumes s s' (.purgeRemove c now w id) (some (.purging c now w)))
    (hwaits : id ∈ s.sessions →
      s.held id .early = 0 ∧ (s.heap id).any ShellSession.active = false)
    (hheap : s'.heap = s.heap) (hsessions : s'.sessions = s.sessions.erase id)
    (hindex : s'.ticketIndex = s.ticketIndex) (haudit : s'.audit = s.audit) : Inv s' := by
  have hprogress : Progress s.heap s'.heap := hheap ▸ .refl _
  by_cases hmem : id ∈ s.sessions
  · obtain ⟨hearly, hactive⟩ := hwaits hmem
    have hlate : s.held id .late + s.opened id = 0 := by
      refine h.late_eq_zero fun session hsession hsettled => ?_
      rw [hsession, Option.any_some, hsettled.active] at hactive
      cases hactive
    have hkept : Kept s s' id :=
      (h.counts id).kept_of_taken hr.goes (present_erase hsessions) (indexed_congr hindex id)
        (opened_congr haudit id) (closed_congr haudit id) hearly hlate
    refine h.of_about hr id (by simp [Pc.holds]) (by simp [Pc.holds]) hprogress hkept
      (fun id' hid => ?_) (by rintro _ ⟨⟩; trivial)
    exact ⟨present_erase_of_ne hsessions hid, (indexed_congr hindex id').le,
      opened_congr haudit id', closed_congr haudit id'⟩
  · rw [Finset.erase_eq_of_notMem hmem] at hsessions
    exact h.of_same hr rfl hprogress (.of_eq hsessions hindex haudit) (by rintro _ ⟨⟩; trivial)

/-- A new session is put. -/
theorem Inv.put (h : Inv s) {c : Creation} {session : ShellSession} {ticket : String}
    (hr : Resumes s s' (.put c) (some (.index id ticket))) (hid : s.heap id = none)
    (hheap : s'.heap = Function.update s.heap id (some session))
    (hsessions : s'.sessions = insert id s.sessions) (hindex : s'.ticketIndex = s.ticketIndex)
    (haudit : s'.audit = s.audit) : Inv s' := by
  have hkept (id' : String) (hne : id ≠ id') : Kept s s' id' := by
    refine (h.counts id').kept_of_ne hr.goes hne (by simp [Pc.holds]) (by simp [Pc.holds])
      ⟨?_, (indexed_congr hindex id').le, opened_congr haudit id', closed_congr haudit id'⟩
    simp [State.present, hsessions, Ne.symm hne]
  have hnew : Counts s' id ∧ s'.held id .late + s'.opened id = 0 := by
    obtain ⟨hp, he, hl, hc⟩ := hr.goes.all id
    simp [Pc.holds] at hp he hl hc
    have hpresent : s'.present id = 1 := by simp [State.present, hsessions]
    have hindexed := indexed_congr hindex id
    have hopened := opened_congr haudit id
    have hclosed := closed_congr haudit id
    have hzero : s.total id = 0 := h.created id hid
    simp only [State.total] at hzero
    exact ⟨⟨by omega, by omega, by omega, by omega⟩, by omega⟩
  refine h.of_counts (fun id' => ?_) (fun id' => .inl ?_) (fun id' hid' => ?_)
    (hheap ▸ progress_update hid _) (hr.consistent (by rintro _ ⟨⟩; trivial))
  · by_cases hne : id = id'
    · exact hne ▸ hnew.1
    · exact (hkept id' hne).counts
  · by_cases hne : id = id'
    · subst hne
      exact hnew.2.trans_le (Nat.zero_le _)
    · exact (hkept id' hne).late
  · by_cases hne : id = id'
    · subst hne
      simp [hheap] at hid'
    · exact (hkept id' hne).total

/-- The ticket of a session gets into the index. -/
theorem Inv.index (h : Inv s) {ticket : String} (hr : Resumes s s' (.index id ticket) none)
    (hheap : s'.heap = s.heap) (hsessions : s'.sessions = s.sessions)
    (hindex : s'.ticketIndex = s.ticketIndex.save ⟨ticket, id⟩) (haudit : s'.audit = s.audit) :
    Inv s' := by
  have hindexed (id' : String) : s'.indexed id' ≤ s.indexed id' + if id = id' then 1 else 0 := by
    have hperm := (s.ticketIndex.save_perm ⟨ticket, id⟩).countP_eq fun e => e.sessionId = id'
    have hsub : (s.ticketIndex.delete fun e => e.ticket = ticket).rows.Sublist s.ticketIndex.rows :=
      List.filter_sublist
    have hle : _ ≤ s.indexed id' := hsub.countP_le
    rw [State.indexed, hindex, hperm, List.countP_cons]
    simpa using hle
  have hkept : Kept s s' id := by
    have hle := hindexed id
    rw [if_pos rfl] at hle
    exact (h.counts id).kept_of_pending hr.goes (present_congr hsessions id).le hle
      (opened_congr haudit id) (closed_congr haudit id)
  refine h.of_about hr id (by simp [Pc.holds]) (by simp) (hheap ▸ .refl _) hkept
    (fun id' hid => ⟨present_congr hsessions id', ?_, opened_congr haudit id',
      closed_congr haudit id'⟩) (by simp)
  simpa [hid] using hindexed id'

/-- An activation is refused: it finds no session, or has removed one whose ticket had expired. -/
theorem Inv.refuse (h : Inv s) (hr : Resumes s s' pc none) (hpc : pc.holds = some (.pending, id))
    (hheap : s'.heap = s.heap)
    (hsessions : s'.sessions = s.sessions ∨ s'.sessions = s.sessions.erase id)
    (hindex : s'.ticketIndex = s.ticketIndex) (haudit : s'.audit = s.audit) : Inv s' := by
  have hpresent : s'.present id ≤ s.present id ∧
      ∀ id', id ≠ id' → s'.present id' = s.present id' := by
    rcases hsessions with hsessions | hsessions
    · exact ⟨(present_congr hsessions id).le, fun id' _ => present_congr hsessions id'⟩
    · exact ⟨(present_erase hsessions).trans_le (Nat.zero_le _),
        fun id' hid => present_erase_of_ne hsessions hid⟩
  have hgoes : Goes s s' (some (.pending, id)) none := hpc ▸ hr.goes
  have hkept : Kept s s' id :=
    (h.counts id).kept_of_pending hgoes hpresent.1
      ((indexed_congr hindex id).trans_le (Nat.le_succ _)) (opened_congr haudit id)
      (closed_congr haudit id)
  refine h.of_about hr id (by simp [hpc]) (by simp) (hheap ▸ .refl _) hkept
    (fun id' hid => ?_) (by simp)
  exact ⟨hpresent.2 id' hid, (indexed_congr hindex id').le, opened_congr haudit id',
    closed_congr haudit id'⟩

/-- An activation gets the session from the map. -/
theorem Inv.got (h : Inv s) {sink : ℕ} (hr : Resumes s s' (.get id sink) (some (.check id sink)))
    (hheap : s'.heap = s.heap) (hmem : id ∈ s.sessions) (hsame : ∀ id, Same s s' id) : Inv s' := by
  have hkept : Kept s s' id := (h.counts id).kept_of_got hr.goes (if_pos hmem) (hsame id)
  exact h.of_about hr id (by simp [Pc.holds]) (by simp [Pc.holds]) (hheap ▸ .refl _) hkept
    (fun id' _ => hsame id') (by rintro _ ⟨⟩; trivial)

/-- An activation finds the ticket expired. -/
theorem Inv.expire (h : Inv s) {sink : ℕ} (hr : Resumes s s' (.check id sink) (some (.expired id)))
    (hheap : s'.heap = s.heap) (hsame : ∀ id, Same s s' id) : Inv s' := by
  have hkept : Kept s s' id := (h.counts id).kept_of_expired hr.goes (hsame id)
  exact h.of_about hr id (by simp [Pc.holds]) (by simp [Pc.holds]) (hheap ▸ .refl _) hkept
    (fun id' _ => hsame id') (by rintro _ ⟨⟩; trivial)

/-- An activation writes when the session was opened. -/
theorem Inv.setOpenedAt (h : Inv s) {sink : ℕ} {now : Instant}
    (hr : Resumes s s' (.setOpenedAt id sink) (some (.setSink id sink)))
    (hheap : s'.heap = (s.write id fun session => { session with openedAt := some now }).heap)
    (hsame : ∀ id, Same s s' id) : Inv s' := by
  have hprogress : Progress s.heap s'.heap :=
    hheap ▸ progress_write s id fun _ => ⟨rfl, rfl, fun h => h, fun h => h, fun _ => rfl⟩
  obtain ⟨session, hsession, hticket, hactive⟩ := h.consistent _ hr.mem
  have hnew := (h.counts id).of_late hr.goes (hsame id)
  have hkept (id' : String) (hne : id ≠ id') : Kept s s' id' :=
    (h.counts id').kept_of_ne hr.goes hne (by simp [Pc.holds]) (by simp [Pc.holds]) (hsame id')
  refine h.of_counts (fun id' => ?_) (fun id' => ?_) (fun id' _ => ?_) hprogress
    (hr.consistent (by rintro _ ⟨⟩; trivial))
  · by_cases hne : id = id'
    · exact hne ▸ hnew.1
    · exact (hkept id' hne).counts
  · by_cases hne : id = id'
    · subst hne
      refine .inr ⟨?_, { session with openedAt := some now }, ?_, hticket, hactive, rfl⟩
      · have hearly := held_pos .early hr.mem rfl
        obtain ⟨-, htaken, hpresent, -⟩ := h.counts id
        omega
      · rw [hheap, State.heap_write_self, hsession]
        rfl
    · exact .inl (hkept id' hne).late
  · by_cases hne : id = id'
    · exact hne ▸ hnew.2
    · exact (hkept id' hne).total

/-- An activation logs that the session was opened. -/
theorem Inv.logOpened (h : Inv s) (hr : Resumes s s' (.logOpened id) none)
    {organizationId : OrganizationId} {userId : UserId} {deviceId : String}
    (hheap : s'.heap = s.heap) (hsessions : s'.sessions = s.sessions)
    (hindex : s'.ticketIndex = s.ticketIndex)
    (haudit : s'.audit = s.audit ++ [Audit.shellOpened organizationId userId deviceId id]) :
    Inv s' := by
  have hclosed (id' : String) : s'.closed id' = s.closed id' := by
    simp [State.closed, haudit, Audit.closes]
  have hkept : Kept s s' id :=
    (h.counts id).kept_of_logOpened hr.goes (present_congr hsessions id) (indexed_congr hindex id)
      (by simp [State.opened, haudit, Audit.opens]) (hclosed id)
  refine h.of_about hr id (by simp [Pc.holds]) (by simp) (hheap ▸ .refl _) hkept
    (fun id' hid => ⟨present_congr hsessions id', (indexed_congr hindex id').le, ?_, hclosed id'⟩)
    (by simp)
  simp [State.opened, haudit, Audit.opens, hid]

/-- A call of `close` ends without an entry in the audit log, for a session that was not opened. -/
theorem Inv.abort (h : Inv s) (hr : Resumes s s' pc none) (hpc : pc.holds = some (.closing, id))
    (hlate : s.held id .late + s.opened id = 0) (hheap : s'.heap = s.heap)
    (hsessions : s'.sessions = s.sessions) (hindex : s'.ticketIndex = s.ticketIndex)
    (haudit : s'.audit = s.audit) : Inv s' := by
  have hgoes : Goes s s' (some (.closing, id)) none := hpc ▸ hr.goes
  have hkept : Kept s s' id :=
    (h.counts id).kept_of_closed hgoes (present_congr hsessions id) (indexed_congr hindex id)
      (opened_congr haudit id) (.inr ⟨closed_congr haudit id, hlate⟩)
  exact h.of_about hr id (by simp [hpc]) (by simp) (hheap ▸ .refl _) hkept
    (fun id' _ => .of_eq hsessions hindex haudit id') (by simp)

/-- A call of `close` logs that the session was closed. -/
theorem Inv.closeLog (h : Inv s) {reason : String} (hr : Resumes s s' (.closeLog id reason) none)
    {organizationId : OrganizationId} {userId : UserId} {deviceId : String} {duration : ℤ}
    (hheap : s'.heap = s.heap) (hsessions : s'.sessions = s.sessions)
    (hindex : s'.ticketIndex = s.ticketIndex)
    (haudit : s'.audit =
      s.audit ++ [Audit.shellClosed organizationId userId deviceId id duration reason]) :
    Inv s' := by
  have hopened (id' : String) : s'.opened id' = s.opened id' := by
    simp [State.opened, haudit, Audit.opens]
  have hkept : Kept s s' id :=
    (h.counts id).kept_of_closed hr.goes (present_congr hsessions id) (indexed_congr hindex id)
      (hopened id) (.inl (by simp [State.closed, haudit, Audit.closes]))
  refine h.of_about hr id (by simp [Pc.holds]) (by simp) (hheap ▸ .refl _) hkept
    (fun id' hid => ⟨present_congr hsessions id', (indexed_congr hindex id').le, hopened id', ?_⟩)
    (by simp)
  simp [State.closed, haudit, Audit.closes, hid]

/-- A call takes a ticket out of the index. -/
theorem Inv.unindex (h : Inv s) {i : ℕ} (hi : s.calls[i]? = some pc) (ticket : String) (q : Pc)
    (hholds : q.holds = pc.holds) (hconsistent : ∀ t, q.Consistent t) :
    Inv { s with
      ticketIndex := s.ticketIndex.delete fun e => e.ticket = ticket
      calls := Pool.update s.calls i (some q) } := by
  have hsub : (s.ticketIndex.delete fun e => e.ticket = ticket).rows.Sublist s.ticketIndex.rows :=
    List.filter_sublist
  set t : State := { s with
    ticketIndex := s.ticketIndex.delete fun e => e.ticket = ticket
    calls := Pool.update s.calls i (some q) }
  have hr : Resumes s t pc (some q) := ⟨i, hi, rfl⟩
  refine h.of_same hr hholds (.refl _) (fun id => ?_) fun _ hq => ?_
  · exact ⟨rfl, hsub.countP_le, rfl, rfl⟩
  · cases hq
    exact hconsistent _

/-- A call reads, and goes on in the same stage or is through with nothing. -/
theorem Inv.read (h : Inv s) {i : ℕ} (hi : s.calls[i]? = some pc)
    (hholds : pc'.bind Pc.holds = pc.holds)
    (hpc' : ∀ q ∈ pc', q.Consistent { s with calls := Pool.update s.calls i pc' }) :
    Inv { s with calls := Pool.update s.calls i pc' } :=
  h.of_same ⟨i, hi, rfl⟩ hholds (.refl _) (.of_eq rfl rfl rfl) hpc'

/-- A call writes a field of a session. -/
theorem Inv.write (h : Inv s) {i : ℕ} (hi : s.calls[i]? = some pc)
    {f : ShellSession → ShellSession} (hf : ∀ session, Follows session (f session))
    (hholds : pc'.bind Pc.holds = pc.holds)
    (hpc' : ∀ q ∈ pc',
      q.Consistent { s.write id f with calls := Pool.update s.calls i pc' }) :
    Inv { s.write id f with calls := Pool.update s.calls i pc' } :=
  h.of_same ⟨i, hi, rfl⟩ hholds (progress_write s id hf) (.of_eq rfl rfl rfl) hpc'

/-- **A call goes on.** Whatever the call does next, the invariant is kept. -/
theorem Inv.advance {props : ShellProperties} {now : Instant} {fresh : Shell.ShellTicket} {i : ℕ}
    {r : State × Option Pc} (h : Inv s) (hi : s.calls[i]? = some pc)
    (hwaits : pc.Waits s (s.calls.eraseIdx i))
    (hadvance : advance props s now fresh pc = some r) :
    Inv { r.1 with calls := Pool.update s.calls i r.2 } := by
  have hmem := List.mem_of_getElem? hi
  cases pc with
  | purging c t w =>
    simp only [ShellConcurrency.advance] at hadvance
    split_ifs at hadvance
    cases hadvance
    exact h.read hi rfl (by rintro _ ⟨⟩; trivial)
  | purgeTicket c t w id =>
    simp only [ShellConcurrency.advance] at hadvance
    split_ifs at hadvance
    · cases hadvance
      exact h.read hi rfl (by rintro _ ⟨⟩; trivial)
    · cases hadvance
      exact h.read hi rfl (by rintro _ ⟨⟩; trivial)
  | purgeIndex c t w id =>
    simp only [ShellConcurrency.advance] at hadvance
    split at hadvance
    · cases hadvance
      exact h.read hi rfl (by simp)
    · cases hadvance
      exact h.unindex hi _ (.purgeRemove c t w id) rfl fun _ => trivial
  | purgeRemove c t w id =>
    cases hadvance
    exact h.purgeRemove ⟨i, hi, rfl⟩ (hwaits.2 id rfl) rfl rfl rfl rfl
  | countDevice c w =>
    simp only [ShellConcurrency.advance] at hadvance
    split_ifs at hadvance
    · cases hadvance
      exact h.read hi rfl (by simp)
    · cases hadvance
      exact h.read hi rfl (by rintro _ ⟨⟩; trivial)
  | countOrg c w =>
    simp only [ShellConcurrency.advance] at hadvance
    split_ifs at hadvance
    · cases hadvance
      exact h.read hi rfl (by simp)
    · cases hadvance
      exact h.read hi rfl (by rintro _ ⟨⟩; trivial)
  | put c =>
    simp only [ShellConcurrency.advance] at hadvance
    split_ifs at hadvance with hfresh
    cases hadvance
    exact h.put ⟨i, hi, rfl⟩ hfresh rfl rfl rfl rfl
  | index id ticket =>
    cases hadvance
    exact h.index ⟨i, hi, rfl⟩ rfl rfl rfl rfl
  | get id sink =>
    simp only [ShellConcurrency.advance] at hadvance
    split_ifs at hadvance with hsession
    · cases hadvance
      exact h.got ⟨i, hi, rfl⟩ rfl hsession (.of_eq rfl rfl rfl)
    · cases hadvance
      exact h.refuse ⟨i, hi, rfl⟩ rfl rfl (.inl rfl) rfl rfl
  | check id sink =>
    simp only [ShellConcurrency.advance] at hadvance
    split_ifs at hadvance
    · cases hadvance
      exact h.expire ⟨i, hi, rfl⟩ rfl (.of_eq rfl rfl rfl)
    · cases hadvance
      exact h.read hi rfl (by rintro _ ⟨⟩; trivial)
  | expired id =>
    cases hadvance
    exact h.refuse ⟨i, hi, rfl⟩ rfl rfl (.inr rfl) rfl rfl
  | clearTicket id sink =>
    cases hadvance
    obtain ⟨session, hsession⟩ := h.exists_session (held_pos .early hmem rfl)
    refine h.write hi (fun _ => ⟨rfl, rfl, fun _ => rfl, fun h => h, fun h => h⟩) rfl ?_
    rintro _ ⟨⟩
    refine ⟨{ session with ticket := none }, ?_, rfl⟩
    rw [State.heap_write_self, hsession]
    rfl
  | setActive id sink =>
    cases hadvance
    obtain ⟨session, hsession, hticket⟩ := h.consistent _ hmem
    refine h.write hi (fun _ => ⟨rfl, rfl, fun h => h, fun _ => rfl, fun h => h⟩) rfl ?_
    rintro _ ⟨⟩
    refine ⟨{ session with active := true }, ?_, hticket, rfl⟩
    rw [State.heap_write_self, hsession]
    rfl
  | setOpenedAt id sink =>
    cases hadvance
    exact h.setOpenedAt ⟨i, hi, rfl⟩ rfl (.of_eq rfl rfl rfl)
  | setSink id sink =>
    cases hadvance
    refine h.write hi (fun _ => ⟨rfl, rfl, fun h => h, fun h => h, fun h => h⟩) rfl ?_
    rintro _ ⟨⟩
    trivial
  | logOpened id =>
    obtain ⟨session, -, rfl⟩ := Option.map_eq_some_iff.mp hadvance
    exact h.logOpened ⟨i, hi, rfl⟩ rfl rfl rfl rfl
  | closeTicket id reason =>
    simp only [ShellConcurrency.advance] at hadvance
    split_ifs at hadvance with hticket
    · cases hadvance
      have hzero : s.held id .late + s.opened id = 0 := by
        refine h.late_eq_zero fun session hsession hsettled => ?_
        simp [Option.mem_def.mp hsession, hsettled.ticket] at hticket
      refine h.read hi rfl ?_
      rintro _ ⟨⟩
      have hr : Resumes s { s with calls := Pool.update s.calls i (some (.closeIndex id reason)) }
          (.closeTicket id reason) (some (.closeIndex id reason)) := ⟨i, hi, rfl⟩
      have hkept := (h.counts id).kept_of_same hr.goes (fun _ => .rfl) ⟨rfl, le_rfl, rfl, rfl⟩
      exact Nat.le_zero.mp (hkept.late.trans_eq hzero)
    · cases hadvance
      exact h.read hi rfl (by rintro _ ⟨⟩; trivial)
  | closeIndex id reason =>
    simp only [ShellConcurrency.advance] at hadvance
    split at hadvance
    · cases hadvance
      exact h.abort ⟨i, hi, rfl⟩ rfl (h.consistent _ hmem) rfl rfl rfl rfl
    · cases hadvance
      exact h.unindex hi _ (.closeActive id reason) rfl fun _ => trivial
  | closeActive id reason =>
    simp only [ShellConcurrency.advance] at hadvance
    split_ifs at hadvance with hactive
    · cases hadvance
      exact h.read hi rfl (by rintro _ ⟨⟩; trivial)
    · cases hadvance
      have hzero : s.held id .late + s.opened id = 0 := by
        refine h.late_eq_zero fun session hsession hsettled => hactive ?_
        rw [hsession, Option.any_some, hsettled.active]
      exact h.abort ⟨i, hi, rfl⟩ rfl hzero rfl rfl rfl rfl
  | closeLog id reason =>
    obtain ⟨session, hsession, rfl⟩ := Option.map_eq_some_iff.mp hadvance
    split
    next hopened =>
      have hzero : s.held id .late + s.opened id = 0 := by
        refine h.late_eq_zero fun session' hsession' hsettled => ?_
        obtain rfl : session = session' := Option.some.inj (hsession.symm.trans hsession')
        simpa [hopened] using hsettled.openedAt
      exact h.abort ⟨i, hi, rfl⟩ rfl hzero rfl rfl rfl rfl
    next => exact h.closeLog ⟨i, hi, rfl⟩ rfl rfl rfl rfl

end Resumes

/-! ### A call begins -/

section Begins

variable {s s' : State} {id : String} {pc : Pc}

/-- A call begins that is about the session `id₀`, and leaves the others as they are. -/
theorem Inv.of_append (h : Inv s) (hcalls : s'.calls = s.calls ++ [pc]) (hheap : s'.heap = s.heap)
    (id₀ : String) (hpc : ∀ x ∈ pc.holds, x.2 = id₀) (hkept : Kept s s' id₀)
    (hsame : ∀ id, id₀ ≠ id → Same s s' id) (hconsistent : pc.Consistent s') : Inv s' := by
  refine h.of_kept (hheap ▸ .refl _) (fun id => ?_) fun q hq => ?_
  · by_cases hid : id₀ = id
    · exact hid ▸ hkept
    · exact (h.counts id).kept_of_ne (goes_of_append pc hcalls) hid (by simp) hpc (hsame id hid)
  · rw [hcalls] at hq
    rcases List.mem_append.mp hq with hold | hnew
    · exact .inl hold
    · exact .inr (List.mem_singleton.mp hnew ▸ hconsistent)

/-- `create` begins. -/
theorem Inv.create (h : Inv s) (c : Creation) (now : Instant) (w : WeakIteration String) :
    Inv { s with calls := s.calls ++ [.purging c now w] } := by
  refine h.of_kept (.refl _) (fun id => ?_) fun q hq => ?_
  · refine (h.counts id).kept_of_same (goes_of_append (.purging c now w) rfl) (fun _ => .rfl) ?_
    exact ⟨rfl, le_rfl, rfl, rfl⟩
  · rcases List.mem_append.mp hq with hold | hnew
    · exact .inl hold
    · rw [List.mem_singleton.mp hnew]
      exact .inr trivial

/-- `activate` takes a ticket out of the index. -/
theorem Inv.activate (h : Inv s) {e : TicketEntry} (he : e ∈ s.ticketIndex.rows) (sink : ℕ) :
    Inv { s with
      ticketIndex := s.ticketIndex.delete fun e' => e'.ticket = e.ticket
      calls := s.calls ++ [.get e.sessionId sink] } := by
  set t : State := { s with
    ticketIndex := s.ticketIndex.delete fun e' => e'.ticket = e.ticket
    calls := s.calls ++ [.get e.sessionId sink] }
  have hindexed (id : String) :
      s.indexed id = t.indexed id + if e.sessionId = id then 1 else 0 := by
    have hperm := (Table.perm_cons_delete he).countP_eq fun e => e.sessionId = id
    rw [State.indexed, hperm, List.countP_cons]
    simp only [decide_eq_true_eq]
    rfl
  have hgoes : Goes s t none (some (.pending, e.sessionId)) :=
    goes_of_append (.get e.sessionId sink) rfl
  have hkept : Kept s t e.sessionId := by
    have heq := hindexed e.sessionId
    rw [if_pos rfl] at heq
    exact (h.counts e.sessionId).kept_of_unindexed hgoes rfl heq.symm rfl rfl
  refine h.of_append rfl rfl e.sessionId (by simp [Pc.holds]) hkept (fun id hid => ?_) trivial
  have heq := hindexed id
  rw [if_neg hid] at heq
  exact ⟨rfl, heq.ge, rfl, rfl⟩

/-- `close` takes a session out of the map. -/
theorem Inv.close (h : Inv s) (hmem : id ∈ s.sessions) (hearly : s.held id .early = 0)
    (reason : String) :
    Inv { s with
      sessions := s.sessions.erase id
      calls := s.calls ++ [.closeTicket id reason] } := by
  set t : State := { s with
    sessions := s.sessions.erase id
    calls := s.calls ++ [.closeTicket id reason] }
  have hsessions : t.sessions = s.sessions.erase id := rfl
  have hgoes : Goes s t none (some (.closing, id)) :=
    goes_of_append (.closeTicket id reason) rfl
  have hkept : Kept s t id :=
    (h.counts id).kept_of_closing hgoes hearly (if_pos hmem)
      (present_erase hsessions) rfl rfl rfl
  refine h.of_append rfl rfl id (by simp [Pc.holds]) hkept (fun id' hid => ?_) trivial
  exact ⟨present_erase_of_ne hsessions hid, le_rfl, rfl, rfl⟩

/-- A visit of an iteration. -/
theorem Inv.visit (h : Inv s) {i : ℕ} {pc' : Pc} (hi : s.calls[i]? = some pc)
    (hvisit : visit s id pc = some pc') :
    Inv { s with calls := Pool.update s.calls i (some pc') } := by
  cases pc with
  | purging c now w =>
    simp only [ShellConcurrency.visit] at hvisit
    split_ifs at hvisit
    · cases hvisit
      exact h.read hi rfl (by rintro _ ⟨⟩; trivial)
    · cases hvisit
      exact h.read hi rfl (by rintro _ ⟨⟩; trivial)
  | countDevice c w | countOrg c w =>
    simp only [ShellConcurrency.visit] at hvisit
    split_ifs at hvisit
    cases hvisit
    exact h.read hi rfl (by rintro _ ⟨⟩; trivial)
  | _ => cases hvisit

/-- Every step of an undisturbed run keeps the invariant. -/
theorem Inv.step {props : ShellProperties} {a : Action} (h : Inv s) (hok : Undisturbed s a)
    (hstep : ShellConcurrency.step props s a = some s') : Inv s' := by
  cases a with
  | create db c now =>
    simp only [ShellConcurrency.step] at hstep
    split at hstep
    next =>
      cases hstep
      exact h
    next device _ =>
      split_ifs at hstep
      · cases hstep
        exact h
      · cases hstep
        exact h.create c now _
  | activate ticket sink =>
    simp only [ShellConcurrency.step] at hstep
    split at hstep
    next =>
      cases hstep
      exact h
    next e he =>
      cases hstep
      obtain rfl := Table.key_of_find?_eq_some he
      exact h.activate (Table.mem_of_find?_eq_some he) sink
  | close id reason =>
    simp only [ShellConcurrency.step] at hstep
    split_ifs at hstep with hmem
    · cases hstep
      exact h.close hmem hok reason
    · cases hstep
      exact h
  | visit i id =>
    obtain ⟨pc', hpc', rfl⟩ := Option.map_eq_some_iff.mp hstep
    obtain ⟨pc, hi, hvisit⟩ := Option.bind_eq_some_iff.mp hpc'
    exact h.visit hi hvisit
  | next i now fresh =>
    obtain ⟨r, hr, rfl⟩ := Option.map_eq_some_iff.mp hstep
    obtain ⟨pc, hi, hadvance⟩ := Option.bind_eq_some_iff.mp hr
    exact h.advance hi (hok pc hi) hadvance

end Begins

end EdgeGuardian.Controller.ShellConcurrency
