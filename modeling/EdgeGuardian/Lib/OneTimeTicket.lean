import Mathlib.Data.Set.Basic

/-!
# One-time tickets

A service issues tickets, each for one session and until some time, accepts them and closes
sessions. What it did is a history. A history is in order when every ticket was issued once, and was
accepted at most once, for the session that it was issued for, not after its expiry and not after
the session was closed.

The rules below say what a service has to keep track of: a set of valid tickets. It may forget
tickets at any time; it accepts a valid ticket and forgets it; it forgets the tickets of a session
that it closes.

## Main definitions

* `OneTimeTicket.Event`, `OneTimeTicket.SingleUse`: histories, and when they are in order.
* `OneTimeTicket.Ledger`: the valid tickets against the history.

## Main results

* `OneTimeTicket.Ledger.forget`, `OneTimeTicket.Ledger.issue`, `OneTimeTicket.Ledger.accept`,
  `OneTimeTicket.Ledger.close`: the rules.
-/

namespace OneTimeTicket

variable {τ ι κ : Type*}

/-- A ticket for one session, with the last moment of its validity. -/
structure Ticket (τ ι κ : Type*) where
  ticket : τ
  session : ι
  expiresAt : κ
deriving DecidableEq, Repr

/-- What a service does. -/
inductive Event (τ ι κ : Type*)
  /-- A ticket is issued. -/
  | issued (t : Ticket τ ι κ)
  /-- The ticket is accepted, for the session, at the time `now`. -/
  | accepted (ticket : τ) (session : ι) (now : κ)
  /-- The session is closed. -/
  | closed (session : ι)
deriving DecidableEq, Repr

/-- `e'` may happen after `e`: names are not used twice, a ticket is accepted once, and not after
its session was closed. -/
def Event.Allows : Event τ ι κ → Event τ ι κ → Prop
  | issued t, issued t' => t.ticket ≠ t'.ticket ∧ t.session ≠ t'.session
  | accepted ticket _ _, accepted ticket' _ _ => ticket ≠ ticket'
  | closed session, accepted _ session' _ => session ≠ session'
  | _, _ => True

theorem mem_concat {history : List (Event τ ι κ)} {e e' : Event τ ι κ} (h : e ∈ history ++ [e'])
    (hne : e ≠ e') : e ∈ history := by
  rcases List.mem_append.mp h with h | h
  · exact h
  · exact absurd (List.mem_singleton.mp h) hne

theorem pairwise_concat {history : List (Event τ ι κ)} {e : Event τ ι κ}
    (h : history.Pairwise Event.Allows) (he : ∀ e' ∈ history, e'.Allows e) :
    (history ++ [e]).Pairwise Event.Allows := by
  refine List.pairwise_append.mpr ⟨h, List.pairwise_singleton _ _, fun e' he' e'' he'' => ?_⟩
  rw [List.mem_singleton.mp he'']
  exact he e' he'

variable [LE κ]

/-- A history that is in order. -/
structure SingleUse (history : List (Event τ ι κ)) : Prop where
  /-- No event is followed by one that it excludes. -/
  allowed : history.Pairwise Event.Allows
  /-- What is accepted was issued for the session and is not expired. -/
  timely : ∀ ticket session now, .accepted ticket session now ∈ history →
    ∃ expiresAt, .issued ⟨ticket, session, expiresAt⟩ ∈ history ∧ now ≤ expiresAt

/-- An event that no event before excludes. -/
theorem SingleUse.concat {history : List (Event τ ι κ)} {e : Event τ ι κ} (h : SingleUse history)
    (hallowed : ∀ e' ∈ history, e'.Allows e)
    (htimely : ∀ ticket session now, e = .accepted ticket session now →
      ∃ expiresAt, .issued ⟨ticket, session, expiresAt⟩ ∈ history ∧ now ≤ expiresAt) :
    SingleUse (history ++ [e]) := by
  refine ⟨pairwise_concat h.allowed hallowed, fun ticket session now hmem => ?_⟩
  have hissued : ∃ expiresAt, .issued ⟨ticket, session, expiresAt⟩ ∈ history ∧ now ≤ expiresAt := by
    rcases List.mem_append.mp hmem with hmem | hmem
    · exact h.timely ticket session now hmem
    · exact htimely ticket session now (List.mem_singleton.mp hmem).symm
  obtain ⟨expiresAt, hissued, hle⟩ := hissued
  exact ⟨expiresAt, List.mem_append_left _ hissued, hle⟩

/-- The valid tickets of a service, against its history. -/
structure Ledger (valid : Set (Ticket τ ι κ)) (history : List (Event τ ι κ)) : Prop where
  singleUse : SingleUse history
  /-- A valid ticket was issued. -/
  issued : ∀ t ∈ valid, .issued t ∈ history
  /-- A valid ticket was not accepted. -/
  unused : ∀ t ∈ valid, ∀ session now, .accepted t.ticket session now ∉ history
  /-- The session of a valid ticket was not closed. -/
  unclosed : ∀ t ∈ valid, .closed t.session ∉ history
  /-- A session that was closed had a ticket. -/
  known : ∀ session, .closed session ∈ history → ∃ t, .issued t ∈ history ∧ t.session = session

theorem ledger_nil : Ledger (∅ : Set (Ticket τ ι κ)) [] where
  singleUse := ⟨.nil, fun _ _ _ h => absurd h List.not_mem_nil⟩
  issued _ h := absurd h (Set.notMem_empty _)
  unused _ h := absurd h (Set.notMem_empty _)
  unclosed _ h := absurd h (Set.notMem_empty _)
  known _ h := absurd h List.not_mem_nil

namespace Ledger

variable {valid valid' : Set (Ticket τ ι κ)} {history : List (Event τ ι κ)}

/-- Tickets may be forgotten. -/
theorem forget (h : Ledger valid history) (hvalid : valid' ⊆ valid) : Ledger valid' history where
  singleUse := h.singleUse
  issued t ht := h.issued t (hvalid ht)
  unused t ht := h.unused t (hvalid ht)
  unclosed t ht := h.unclosed t (hvalid ht)
  known := h.known

/-- A ticket with a new name, for a session with a new name, is issued. -/
theorem issue (h : Ledger valid history) {t : Ticket τ ι κ}
    (hfresh : ∀ t', .issued t' ∈ history → t'.ticket ≠ t.ticket ∧ t'.session ≠ t.session)
    (hvalid : ∀ t' ∈ valid', t' = t ∨ t' ∈ valid) :
    Ledger valid' (history ++ [.issued t]) where
  singleUse := by
    refine h.singleUse.concat (fun e he => ?_) (by simp)
    cases e with
    | issued t' => exact hfresh t' he
    | accepted ticket session now => trivial
    | closed session => trivial
  issued t' ht' := by
    rcases hvalid t' ht' with rfl | ht'
    · exact List.mem_append_right _ List.mem_cons_self
    · exact List.mem_append_left _ (h.issued t' ht')
  unused t' ht' session now hmem := by
    have hold : Event.accepted t'.ticket session now ∈ history := mem_concat hmem (by simp)
    rcases hvalid t' ht' with rfl | ht'
    · -- What was accepted was issued, under a name that is not new.
      obtain ⟨expiresAt, hissued, -⟩ := h.singleUse.timely _ _ _ hold
      exact (hfresh _ hissued).1 rfl
    · exact h.unused t' ht' session now hold
  unclosed t' ht' hmem := by
    have hold : Event.closed t'.session ∈ history := mem_concat hmem (by simp)
    rcases hvalid t' ht' with rfl | ht'
    · obtain ⟨t'', hissued, hsession⟩ := h.known _ hold
      exact (hfresh t'' hissued).2 hsession
    · exact h.unclosed t' ht' hold
  known session hmem := by
    obtain ⟨t', hissued, hsession⟩ := h.known session (mem_concat hmem (by simp))
    exact ⟨t', List.mem_append_left _ hissued, hsession⟩

/-- A valid ticket is accepted before its expiry, and forgotten. -/
theorem accept (h : Ledger valid history) {t : Ticket τ ι κ} {now : κ} (ht : t ∈ valid)
    (hnow : now ≤ t.expiresAt) (hvalid : valid' ⊆ valid)
    (hforgotten : ∀ t' ∈ valid', t'.ticket ≠ t.ticket) :
    Ledger valid' (history ++ [.accepted t.ticket t.session now]) where
  singleUse := by
    refine h.singleUse.concat (fun e he => ?_) fun ticket session now' heq => ?_
    · cases e with
      | issued t' => trivial
      | accepted ticket session now' =>
        intro hticket
        exact h.unused t ht session now' (hticket ▸ he)
      | closed session =>
        intro hsession
        exact h.unclosed t ht (hsession ▸ he)
    · obtain ⟨rfl, rfl, rfl⟩ := Event.accepted.inj heq
      exact ⟨t.expiresAt, h.issued t ht, hnow⟩
  issued t' ht' := List.mem_append_left _ (h.issued t' (hvalid ht'))
  unused t' ht' session now' hmem := by
    refine h.unused t' (hvalid ht') session now' (mem_concat hmem fun heq => ?_)
    exact hforgotten t' ht' (Event.accepted.inj heq).1
  unclosed t' ht' hmem := h.unclosed t' (hvalid ht') (mem_concat hmem (by simp))
  known session hmem := by
    obtain ⟨t', hissued, hsession⟩ := h.known session (mem_concat hmem (by simp))
    exact ⟨t', List.mem_append_left _ hissued, hsession⟩

/-- A session that had a ticket is closed, and its ticket forgotten. -/
theorem close (h : Ledger valid history) {session : ι}
    (hknown : ∃ t, .issued t ∈ history ∧ t.session = session) (hvalid : valid' ⊆ valid)
    (hforgotten : ∀ t ∈ valid', t.session ≠ session) :
    Ledger valid' (history ++ [.closed session]) where
  singleUse := by
    refine h.singleUse.concat (fun e _ => ?_) (by simp)
    cases e <;> trivial
  issued t ht := List.mem_append_left _ (h.issued t (hvalid ht))
  unused t ht session' now hmem := h.unused t (hvalid ht) session' now (mem_concat hmem (by simp))
  unclosed t ht hmem := by
    refine h.unclosed t (hvalid ht) (mem_concat hmem fun heq => ?_)
    exact hforgotten t ht (Event.closed.inj heq)
  known session' hmem := by
    have hissued : ∃ t, .issued t ∈ history ∧ t.session = session' := by
      rcases List.mem_append.mp hmem with hmem | hmem
      · exact h.known session' hmem
      · obtain rfl := Event.closed.inj (List.mem_singleton.mp hmem)
        exact hknown
    obtain ⟨t, hissued, hsession⟩ := hissued
    exact ⟨t, List.mem_append_left _ hissued, hsession⟩

end Ledger

end OneTimeTicket
