import EdgeGuardian.Controller.ShellConcurrency

/-!
# What there is of a session

Along a run a session leaves traces in both maps, in the calls in progress and in the audit log. A
step moves what there is of one session from one place to another: a ticket from the index to an
activation, the entry of the map to a call of `close`, and from there to the audit log. The fields
of a session change in one direction.

## Main definitions

* `Follows`, `Settled`, `Progress`: the fields of a session over time.
* `Counts`: what there is of a session.
* `Goes`, `Kept`: a step of one call, and that it keeps the counts.

## Main results

* `advance_progress`: no step takes back what has been written.
* `Counts.kept_of_same`, `Counts.kept_of_pending`, `Counts.kept_of_got`, `Counts.of_late`,
  `Counts.kept_of_logOpened`, `Counts.kept_of_closing`, `Counts.kept_of_closed`: the moves.
-/

namespace EdgeGuardian.Controller.ShellConcurrency

/-! ### The fields of a session -/

/-- What the writes to a session keep. -/
structure Follows (session session' : ShellSession) : Prop where
  deviceId : session'.deviceId = session.deviceId
  organizationId : session'.organizationId = session.organizationId
  ticket : session.ticket = none → session'.ticket = none
  active : session.active = true → session'.active = true
  openedAt : session.openedAt.isSome → session'.openedAt.isSome

theorem Follows.refl (session : ShellSession) : Follows session session :=
  ⟨rfl, rfl, id, id, id⟩

theorem Follows.contains_eq {session session' : ShellSession} (h : Follows session session')
    (scope : Scope) : scope.contains session' = scope.contains session := by
  cases scope with
  | device => simp [Scope.contains, h.deviceId]
  | organization => simp [Scope.contains, h.organizationId]

/-- The fields are written that `close` relies on. -/
structure Settled (session : ShellSession) : Prop where
  ticket : session.ticket = none
  active : session.active = true
  openedAt : session.openedAt.isSome

theorem Settled.of_follows {session session' : ShellSession} (h : Settled session)
    (hfollows : Follows session session') : Settled session' :=
  ⟨hfollows.ticket h.ticket, hfollows.active h.active, hfollows.openedAt h.openedAt⟩

/-- Sessions stay on the heap, and follow what they were. -/
def Progress (heap heap' : String → Option ShellSession) : Prop :=
  ∀ id, ∀ session ∈ heap id, ∃ session' ∈ heap' id, Follows session session'

theorem Progress.refl (heap : String → Option ShellSession) : Progress heap heap :=
  fun _ session h => ⟨session, h, .refl session⟩

@[simp] theorem State.heap_write_self (s : State) (id : String) (f : ShellSession → ShellSession) :
    (s.write id f).heap id = (s.heap id).map f := Function.update_self ..

theorem State.heap_write_of_ne (s : State) {id id' : String} (f : ShellSession → ShellSession)
    (h : id' ≠ id) : (s.write id f).heap id' = s.heap id' := Function.update_of_ne h ..

theorem progress_write (s : State) (id : String) {f : ShellSession → ShellSession}
    (hf : ∀ session, Follows session (f session)) : Progress s.heap (s.write id f).heap := by
  intro id' session h
  by_cases hid : id' = id
  · subst hid
    refine ⟨f session, ?_, hf session⟩
    rw [State.heap_write_self, h]
    rfl
  · exact ⟨session, by rwa [State.heap_write_of_ne s f hid], .refl session⟩

theorem progress_update {s : State} {id : String} (hid : s.heap id = none)
    (session : Option ShellSession) : Progress s.heap (Function.update s.heap id session) := by
  intro id' session' h
  have hne : id' ≠ id := by
    rintro rfl
    rw [hid] at h
    cases h
  exact ⟨session', by rwa [Function.update_of_ne hne], .refl session'⟩

/-- A session that is not on the heap was not. -/
theorem Progress.eq_none {heap heap' : String → Option ShellSession} (h : Progress heap heap')
    {id : String} (hid : heap' id = none) : heap id = none := by
  rcases hold : heap id with _ | session
  · rfl
  · obtain ⟨session', hsession', -⟩ := h id session hold
    rw [hid] at hsession'
    cases hsession'

theorem advance_progress {props : ShellProperties} {s : State} {now : Instant}
    {fresh : Shell.ShellTicket} {pc : Pc} {r : State × Option Pc}
    (h : advance props s now fresh pc = some r) : Progress s.heap r.1.heap := by
  cases pc with
  | put c =>
    simp only [advance] at h
    split_ifs at h with hfresh
    cases h
    exact progress_update hfresh _
  | clearTicket id sink =>
    cases h
    exact progress_write s id fun _ => ⟨rfl, rfl, fun _ => rfl, fun h => h, fun h => h⟩
  | setActive id sink =>
    cases h
    exact progress_write s id fun _ => ⟨rfl, rfl, fun h => h, fun _ => rfl, fun h => h⟩
  | setOpenedAt id sink =>
    cases h
    exact progress_write s id fun _ => ⟨rfl, rfl, fun h => h, fun h => h, fun _ => rfl⟩
  | setSink id sink =>
    cases h
    exact progress_write s id fun _ => ⟨rfl, rfl, fun h => h, fun h => h, fun h => h⟩
  | logOpened id =>
    obtain ⟨session, -, rfl⟩ := Option.map_eq_some_iff.mp h
    exact .refl _
  | closeLog id reason =>
    obtain ⟨session, -, rfl⟩ := Option.map_eq_some_iff.mp h
    split
    · exact .refl _
    · exact .refl _
  | purgeIndex c t w id | closeIndex id reason =>
    simp only [advance] at h
    split at h <;> cases h <;> exact .refl _
  | _ =>
    simp only [advance] at h
    first
      | (split_ifs at h <;> cases h <;> exact .refl _)
      | (cases h; exact .refl _)

/-! ### Counting -/

/-- What there is of a session: at most one way to an activation, or one `shell_opened`; at most one
of the entry of the map, a call of `close` that has it, and a `shell_closed`. An activation that has
the session finds it in the map, and one that has written when it was opened leaves something that
is to be closed or has been. -/
structure Counts (s : State) (id : String) : Prop where
  once : s.indexed id + s.held id .pending + s.held id .early + s.held id .late + s.opened id ≤ 1
  taken : s.present id + s.held id .closing + s.closed id ≤ 1
  early : s.held id .early ≤ s.present id
  late : s.held id .late + s.opened id ≤ s.present id + s.held id .closing + s.closed id

/-- Everything that there is of a session. -/
def State.total (s : State) (id : String) : ℕ :=
  s.present id + s.indexed id + s.held id .pending + s.held id .early + s.held id .late +
    s.held id .closing + s.opened id + s.closed id

/-- A step keeps the counts of a session, and brings forth nothing of it. -/
structure Kept (s s' : State) (id : String) : Prop where
  counts : Counts s' id
  late : s'.held id .late + s'.opened id ≤ s.held id .late + s.opened id
  total : s'.total id ≤ s.total id

section Counting

variable {s s' : State} {id : String} {a b : Option (Stage × String)}

/-- The calls in progress after a step of one of them: it was about `a`, and is about `b` now. -/
def Goes (s s' : State) (a b : Option (Stage × String)) : Prop :=
  ∀ id stage, s'.held id stage + (if a = some (stage, id) then 1 else 0) =
    s.held id stage + if b = some (stage, id) then 1 else 0

theorem goes_of_update {i : ℕ} {pc : Pc} {pc' : Option Pc} (hi : s.calls[i]? = some pc)
    (hcalls : s'.calls = Pool.update s.calls i pc') :
    Goes s s' pc.holds (pc'.bind Pc.holds) := by
  intro id stage
  have hadd : s'.held id stage + pc.weight stage id =
      pc'.elim 0 (Pc.weight stage id) + s.held id stage := by
    rw [State.held, hcalls]
    exact Pool.load_update_add hi pc'
  have helim : pc'.elim 0 (Pc.weight stage id) =
      if pc'.bind Pc.holds = some (stage, id) then 1 else 0 := by
    cases pc' <;> simp [Pc.weight]
  rw [helim, Pc.weight] at hadd
  omega

theorem goes_of_append (pc : Pc) (hcalls : s'.calls = s.calls ++ [pc]) :
    Goes s s' none pc.holds := by
  intro id stage
  simp [State.held, hcalls, Pool.load, Pc.weight]

theorem Goes.all (h : Goes s s' a b) (id : String) :
    (s'.held id .pending + (if a = some (.pending, id) then 1 else 0) =
        s.held id .pending + if b = some (.pending, id) then 1 else 0) ∧
      (s'.held id .early + (if a = some (.early, id) then 1 else 0) =
        s.held id .early + if b = some (.early, id) then 1 else 0) ∧
      (s'.held id .late + (if a = some (.late, id) then 1 else 0) =
        s.held id .late + if b = some (.late, id) then 1 else 0) ∧
      (s'.held id .closing + (if a = some (.closing, id) then 1 else 0) =
        s.held id .closing + if b = some (.closing, id) then 1 else 0) :=
  ⟨h id _, h id _, h id _, h id _⟩

/-- The maps have of the session what they had, except for its ticket, and the audit log has what it
had. -/
structure Same (s s' : State) (id : String) : Prop where
  present : s'.present id = s.present id
  indexed : s'.indexed id ≤ s.indexed id
  opened : s'.opened id = s.opened id
  closed : s'.closed id = s.closed id

theorem present_congr (h : s'.sessions = s.sessions) (id : String) :
    s'.present id = s.present id := by
  rw [State.present, State.present, h]

theorem present_erase (h : s'.sessions = s.sessions.erase id) : s'.present id = 0 := by
  simp [State.present, h]

theorem present_erase_of_ne (h : s'.sessions = s.sessions.erase id) {id' : String}
    (hid : id ≠ id') : s'.present id' = s.present id' := by
  simp [State.present, h, Ne.symm hid]

theorem indexed_congr (h : s'.ticketIndex = s.ticketIndex) (id : String) :
    s'.indexed id = s.indexed id := by
  rw [State.indexed, State.indexed, h]

theorem opened_congr (h : s'.audit = s.audit) (id : String) : s'.opened id = s.opened id := by
  rw [State.opened, State.opened, h]

theorem closed_congr (h : s'.audit = s.audit) (id : String) : s'.closed id = s.closed id := by
  rw [State.closed, State.closed, h]

theorem Same.of_eq (hsessions : s'.sessions = s.sessions)
    (hindex : s'.ticketIndex = s.ticketIndex) (haudit : s'.audit = s.audit) (id : String) :
    Same s s' id :=
  ⟨present_congr hsessions id, (indexed_congr hindex id).le, opened_congr haudit id,
    closed_congr haudit id⟩

/-- A session that stays in its stage. -/
theorem Counts.kept_of_same (h : Counts s id) (hgoes : Goes s s' a b)
    (hab : ∀ stage, a = some (stage, id) ↔ b = some (stage, id)) (hsame : Same s s' id) :
    Kept s s' id := by
  obtain ⟨hp, he, hl, hc⟩ := hgoes.all id
  simp only [hab] at hp he hl hc
  obtain ⟨hpresent, hindexed, hopened, hclosed⟩ := hsame
  obtain ⟨honce, htaken, hearly, hlate⟩ := h
  refine ⟨⟨by omega, by omega, by omega, by omega⟩, by omega, ?_⟩
  simp only [State.total]
  omega

/-- A session that the call is not about. -/
theorem Counts.kept_of_ne (h : Counts s id) (hgoes : Goes s s' a b) {id₀ : String} (hid : id₀ ≠ id)
    (ha : ∀ x ∈ a, x.2 = id₀) (hb : ∀ x ∈ b, x.2 = id₀) (hsame : Same s s' id) :
    Kept s s' id := by
  refine h.kept_of_same hgoes (fun stage => ?_) hsame
  have hne : a ≠ some (stage, id) := fun heq => hid (ha _ heq).symm
  have hne' : b ≠ some (stage, id) := fun heq => hid (hb _ heq).symm
  exact iff_of_false hne hne'

/-- A session is taken out of the map that is not to be closed. -/
theorem Counts.kept_of_taken (h : Counts s id) (hgoes : Goes s s' none none)
    (hpresent : s'.present id = 0) (hindexed : s'.indexed id = s.indexed id)
    (hopened : s'.opened id = s.opened id) (hclosed : s'.closed id = s.closed id)
    (hearly : s.held id .early = 0) (hlate : s.held id .late + s.opened id = 0) :
    Kept s s' id := by
  obtain ⟨hp, he, hl, hc⟩ := hgoes.all id
  simp only [reduceCtorEq, if_false] at hp he hl hc
  obtain ⟨honce, htaken, -, -⟩ := h
  refine ⟨⟨by omega, by omega, by omega, by omega⟩, by omega, ?_⟩
  simp only [State.total]
  omega

/-- An activation takes the ticket. -/
theorem Counts.kept_of_unindexed (h : Counts s id) (hgoes : Goes s s' none (some (.pending, id)))
    (hpresent : s'.present id = s.present id) (hindexed : s'.indexed id + 1 = s.indexed id)
    (hopened : s'.opened id = s.opened id) (hclosed : s'.closed id = s.closed id) :
    Kept s s' id := by
  obtain ⟨hp, he, hl, hc⟩ := hgoes.all id
  simp at hp he hl hc
  obtain ⟨honce, htaken, hearly, hlate⟩ := h
  refine ⟨⟨by omega, by omega, by omega, by omega⟩, by omega, ?_⟩
  simp only [State.total]
  omega

/-- A call before an activation is through: it has put the ticket into the index, or the activation
is refused, with or without the removal of the session. -/
theorem Counts.kept_of_pending (h : Counts s id) (hgoes : Goes s s' (some (.pending, id)) none)
    (hpresent : s'.present id ≤ s.present id) (hindexed : s'.indexed id ≤ s.indexed id + 1)
    (hopened : s'.opened id = s.opened id) (hclosed : s'.closed id = s.closed id) :
    Kept s s' id := by
  obtain ⟨hp, he, hl, hc⟩ := hgoes.all id
  simp at hp he hl hc
  obtain ⟨honce, htaken, hearly, hlate⟩ := h
  refine ⟨⟨by omega, by omega, by omega, by omega⟩, by omega, ?_⟩
  simp only [State.total]
  omega

/-- An activation gets the session from the map. -/
theorem Counts.kept_of_got (h : Counts s id)
    (hgoes : Goes s s' (some (.pending, id)) (some (.early, id))) (hmem : s.present id = 1)
    (hsame : Same s s' id) : Kept s s' id := by
  obtain ⟨hp, he, hl, hc⟩ := hgoes.all id
  simp at hp he hl hc
  obtain ⟨hpresent, hindexed, hopened, hclosed⟩ := hsame
  obtain ⟨honce, htaken, hearly, hlate⟩ := h
  refine ⟨⟨by omega, by omega, by omega, by omega⟩, by omega, ?_⟩
  simp only [State.total]
  omega

/-- An activation finds the ticket expired. -/
theorem Counts.kept_of_expired (h : Counts s id)
    (hgoes : Goes s s' (some (.early, id)) (some (.pending, id))) (hsame : Same s s' id) :
    Kept s s' id := by
  obtain ⟨hp, he, hl, hc⟩ := hgoes.all id
  simp at hp he hl hc
  obtain ⟨hpresent, hindexed, hopened, hclosed⟩ := hsame
  obtain ⟨honce, htaken, hearly, hlate⟩ := h
  refine ⟨⟨by omega, by omega, by omega, by omega⟩, by omega, ?_⟩
  simp only [State.total]
  omega

/-- An activation writes when the session was opened: from now on it is to be closed. -/
theorem Counts.of_late (h : Counts s id)
    (hgoes : Goes s s' (some (.early, id)) (some (.late, id))) (hsame : Same s s' id) :
    Counts s' id ∧ s'.total id ≤ s.total id := by
  obtain ⟨hp, he, hl, hc⟩ := hgoes.all id
  simp at hp he hl hc
  obtain ⟨hpresent, hindexed, hopened, hclosed⟩ := hsame
  obtain ⟨honce, htaken, hearly, hlate⟩ := h
  refine ⟨⟨by omega, by omega, by omega, by omega⟩, ?_⟩
  simp only [State.total]
  omega

/-- An activation logs that the session was opened. -/
theorem Counts.kept_of_logOpened (h : Counts s id) (hgoes : Goes s s' (some (.late, id)) none)
    (hpresent : s'.present id = s.present id) (hindexed : s'.indexed id = s.indexed id)
    (hopened : s'.opened id = s.opened id + 1) (hclosed : s'.closed id = s.closed id) :
    Kept s s' id := by
  obtain ⟨hp, he, hl, hc⟩ := hgoes.all id
  simp at hp he hl hc
  obtain ⟨honce, htaken, hearly, hlate⟩ := h
  refine ⟨⟨by omega, by omega, by omega, by omega⟩, by omega, ?_⟩
  simp only [State.total]
  omega

/-- A call of `close` takes the session out of the map. -/
theorem Counts.kept_of_closing (h : Counts s id) (hgoes : Goes s s' none (some (.closing, id)))
    (hearly : s.held id .early = 0) (hmem : s.present id = 1) (hpresent : s'.present id = 0)
    (hindexed : s'.indexed id = s.indexed id) (hopened : s'.opened id = s.opened id)
    (hclosed : s'.closed id = s.closed id) : Kept s s' id := by
  obtain ⟨hp, he, hl, hc⟩ := hgoes.all id
  simp at hp he hl hc
  obtain ⟨honce, htaken, -, hlate⟩ := h
  refine ⟨⟨by omega, by omega, by omega, by omega⟩, by omega, ?_⟩
  simp only [State.total]
  omega

/-- A call of `close` is through: it has logged that the session was closed, or has logged nothing
for a session that was not opened. -/
theorem Counts.kept_of_closed (h : Counts s id) (hgoes : Goes s s' (some (.closing, id)) none)
    (hpresent : s'.present id = s.present id) (hindexed : s'.indexed id = s.indexed id)
    (hopened : s'.opened id = s.opened id)
    (hclosed : s'.closed id = s.closed id + 1 ∨
      (s'.closed id = s.closed id ∧ s.held id .late + s.opened id = 0)) : Kept s s' id := by
  obtain ⟨hp, he, hl, hc⟩ := hgoes.all id
  simp at hp he hl hc
  obtain ⟨honce, htaken, hearly, hlate⟩ := h
  refine ⟨⟨by omega, by omega, by omega, by omega⟩, by omega, ?_⟩
  simp only [State.total]
  omega

end Counting

end EdgeGuardian.Controller.ShellConcurrency
