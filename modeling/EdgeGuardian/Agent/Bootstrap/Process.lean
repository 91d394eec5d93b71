import EdgeGuardian.Agent.Bootstrap.Renewer

/-!
# One process of the agent

What one process of the agent presents, sends and stores, step by step: the MQTT client keeps the
key pair with which it was built, requests are published for the identity that the renewal loop has
read, and the handler stores nothing but the responses that it is given.

Source: `agent/internal/bootstrap/renewal.go`, `agent/internal/comms/tls_config.go`.

## Main definitions

* `Serves`: the response in hand and the certificate that is written have a property.
* `Unrenewed`: the process has had no response.

## Main results

* `tls_of_step`, `sent_of_step`, `serves_of_step`, `Unrenewed.step`: what one step does to them.
-/

namespace EdgeGuardian.Agent.Bootstrap

variable {s t : State} {a : Action}

/-- The key pair of the client stays the one with which it was built. -/
theorem tls_of_step (ha : a ≠ .start) (h : step s a = some t) :
    ∀ q, t.proc = some q → ∃ p, s.proc = some p ∧ q.tls = p.tls := by
  intro q hq
  cases step_eq_some h with
  | started _ _ _ => exact absurd rfl ha
  | stopped _ => cases hq
  | skipped _ => exact ⟨q, hq, rfl⟩
  | @ticked p _ _ hproc hticked =>
    refine ⟨p, hproc, ?_⟩
    cases hticked <;> cases hq <;> rfl
  | @handled p _ _ hproc hhandled =>
    refine ⟨p, hproc, ?_⟩
    cases hhandled <;> cases hq <;> rfl

/-- What the agent sends are renewal requests. -/
theorem sent_of_step (h : step s a = some t) :
    ∀ m ∈ t.sent, m ∈ s.sent ∨ ∃ p id key, s.proc = some p ∧ p.tick = .stashed id key ∧
      m = renewalRequest id key := by
  intro m hm
  cases step_eq_some h with
  | started _ _ _ | stopped _ | skipped _ => exact .inl hm
  | @ticked p _ _ hproc hticked =>
    cases hticked with
    | published htick =>
      rcases List.mem_cons.mp hm with rfl | hm
      · exact .inr ⟨p, _, _, hproc, htick, rfl⟩
      · exact .inl hm
    | due _ | marked _ | stashed _ | failed _ | counted => exact .inl hm
  | @handled p _ _ hproc hhandled => cases hhandled <;> exact .inl hm

/-- The certificate on disk meets `P`. -/
def Stored (P : CertPem → Prop) (files : IdentityFiles) : Prop :=
  ∃ pem, files.cert = some pem ∧ P pem

/-- The response in hand meets `P`, and so does the certificate on disk once it is written. -/
def Serves (P : CertPem → Prop) (files : IdentityFiles) : HandlerPc → Prop
  | .idle => True
  | .received pem | .keyRead pem _ | .keyWritten pem => P pem
  | .certWritten | .stashRemoved | .returned => Stored P files

/-- The handler stores nothing but responses. -/
theorem serves_of_step {P : CertPem → Prop} (hP : ∀ pem ∈ a.response, P pem)
    (h : step s a = some t) (hs : ∀ p, s.proc = some p → Serves P s.files p.handler) :
    (∀ p, t.proc = some p → Serves P t.files p.handler) ∧
      (Stored P s.files → Stored P t.files) := by
  cases step_eq_some h with
  | started _ _ _ =>
    refine ⟨fun p hp => ?_, id⟩
    cases hp
    trivial
  | stopped _ => exact ⟨fun _ hp => (nomatch hp), id⟩
  | skipped _ => exact ⟨hs, id⟩
  | @ticked p _ _ hproc hticked =>
    have hserves := hs p hproc
    constructor
    · intro q hq
      cases hticked <;> cases hq <;> exact hserves
    · cases hticked <;> exact id
  | @handled p _ _ hproc hhandled =>
    have hserves := hs p hproc
    cases hhandled with
    | received _ =>
      refine ⟨fun q hq => ?_, id⟩
      cases hq
      exact hP _ rfl
    | keyRead hpc _ | keyWritten hpc =>
      rw [hpc] at hserves
      refine ⟨fun q hq => ?_, id⟩
      cases hq
      exact hserves
    | certWritten hpc =>
      rw [hpc] at hserves
      refine ⟨fun q hq => ?_, fun _ => ⟨_, rfl, hserves⟩⟩
      cases hq
      exact ⟨_, rfl, hserves⟩
    | stashRemoved hpc | returned hpc _ =>
      rw [hpc] at hserves
      refine ⟨fun q hq => ?_, id⟩
      cases hq
      exact hserves
    | ended _ =>
      refine ⟨fun q hq => ?_, id⟩
      cases hq
      trivial

/-- The identity for which a call of `tryRenew` renews. -/
def tickIdentity : TickPc → Option X509Certificate
  | .due id _ | .attempting id | .stashed id _ => some id
  | .idle | .attempted => none

/-- The process has the identity `c` and has had no response. -/
def Unrenewed (c : X509Certificate) (s : State) : Prop :=
  ∀ p, s.proc = some p →
    p.identity = some c ∧ (∀ id, tickIdentity p.tick = some id → id = c) ∧ p.handler = .idle

theorem Unrenewed.step {c : X509Certificate} (hs : Unrenewed c s) (hstart : a ≠ .start)
    (ha : a.response = none) (h : step s a = some t) : Unrenewed c t := by
  intro q hq
  cases step_eq_some h with
  | started _ _ _ => exact absurd rfl hstart
  | stopped _ => cases hq
  | skipped _ => exact hs q hq
  | @ticked p _ _ hproc hticked =>
    obtain ⟨hid, htick, hpc⟩ := hs p hproc
    cases hticked with
    | @due _ id hid' =>
      cases hq
      have hc : id = c := Option.some.inj (hid'.symm.trans hid)
      exact ⟨hid, fun _ h => by cases h; exact hc, hpc⟩
    | marked hat | stashed hat =>
      cases hq
      exact ⟨hid, fun _ h => htick _ (by rw [hat]; exact h), hpc⟩
    | failed _ | published _ | counted =>
      cases hq
      exact ⟨hid, fun _ h => (nomatch h), hpc⟩
  | @handled p _ _ hproc hhandled =>
    obtain ⟨hid, htick, hpc⟩ := hs p hproc
    cases hhandled with
    | received _ => cases ha
    -- The handler is idle, so that no other step of it is possible.
    | ended _ =>
      cases hq
      exact ⟨hid, htick, rfl⟩
    | keyRead hat _ | keyWritten hat | certWritten hat | stashRemoved hat | returned hat _ =>
      rw [hpc] at hat
      cases hat

end EdgeGuardian.Agent.Bootstrap
