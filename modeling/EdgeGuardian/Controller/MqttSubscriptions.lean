import EdgeGuardian.Lib.Transition
import Mathlib.Logic.Function.Basic
import Mathlib.Order.Nat

/-!
# The subscriptions of the controller

Every listener of the controller registers a binding, which is added to a list and then subscribed
if the client is connected. Every connection is followed by a callback that subscribes the bindings
that are in the list when it begins. A binding is added before its registration looks at the
connection, and the client is connected before the callback looks at the list, so that a binding
that the callback does not see is one whose registration finds the client connected.

Registrations, callbacks, connections and disconnections interleave in any way, also callbacks of
several connections. A step is one access to the list, one look at the connection, or the effect of
one `subscribe` of the client, which succeeds if the client stays connected from the look before it
on. Otherwise it may throw, or subscribe on the connection of the moment. A subscription is one of
the connection on which it was made.

Source: `controller/src/main/java/com/edgeguardian/controller/mqtt/MqttSubscriptions.java`,
`config/MqttConfig.java`, lines 113–126.

## Main definitions

* `State`, `Action`, `step`: the client, the list of bindings, and the calls in progress.
* `Covered`: a binding is subscribed on the current connection, or somebody still has to do it.

## Main results

* `Inv.step`: every binding stays covered.
* `subscribed_of_finished`: once the callback of the connection and all registrations are through,
  every binding is subscribed.
-/

namespace EdgeGuardian.Controller.MqttSubscriptions

open Transition

/-- `Binding`. -/
structure Binding (H : Type*) where
  topicSuffix : String
  qos : ℕ
  handler : H
deriving DecidableEq, Repr

/-- Where a thread is in a call of `register`. -/
inductive RegisterPc (H : Type*)
  /-- Not in a call. -/
  | idle
  | called (b : Binding H)
  /-- The binding is in the list. -/
  | added (b : Binding H)
  /-- The client was connected, by this connection. -/
  | checked (b : Binding H) (connection : ℕ)
deriving DecidableEq, Repr

/-- Where the callback of a connection is. -/
inductive CallbackPc (H : Type*)
  /-- `connectComplete` has not been called. -/
  | waiting
  /-- `resubscribeAll` is called. -/
  | called
  /-- In the loop, before these bindings. -/
  | looping (rest : List (Binding H))
  /-- In the loop, the client was connected by this connection. -/
  | checked (b : Binding H) (rest : List (Binding H)) (connection : ℕ)
  | finished
deriving DecidableEq, Repr

/-- The client, the registry, and the calls in progress. Connections are numbered from 1. -/
structure State (τ H : Type*) where
  /-- The bean `MqttSubscriptions` is there. -/
  created : Bool
  bindings : List (Binding H)
  connected : Bool
  /-- The number of the current connection, or of the last one. -/
  connection : ℕ
  registers : τ → RegisterPc H
  callbacks : ℕ → CallbackPc H
  /-- The subscriptions, each with its connection, the newest first. -/
  subscribed : List (ℕ × Binding H)

/-- The steps. A `subscribe` that throws has `ok = false`. -/
inductive Action (τ H : Type*)
  | create
  | connect
  | disconnect
  | register (t : τ) (b : Binding H)
  | add (t : τ)
  | checkRegister (t : τ)
  | subscribeRegister (t : τ) (ok : Bool)
  | connectComplete (k : ℕ)
  | resubscribeAll (k : ℕ)
  | checkCallback (k : ℕ)
  | subscribeCallback (k : ℕ) (ok : Bool)
  | finish (k : ℕ)
deriving DecidableEq, Repr

/-- Nothing has been created, and the client has never been connected. -/
def State.initial (τ H : Type*) : State τ H where
  created := false
  bindings := []
  connected := false
  connection := 0
  registers _ := .idle
  callbacks _ := .waiting
  subscribed := []

section Steps

variable {τ H : Type*} [DecidableEq τ] (s : State τ H)

/-- A thread goes on. -/
def State.setRegister (t : τ) (pc : RegisterPc H) : State τ H :=
  { s with registers := Function.update s.registers t pc }

/-- A callback goes on. -/
def State.setCallback (k : ℕ) (pc : CallbackPc H) : State τ H :=
  { s with callbacks := Function.update s.callbacks k pc }

/-- The effect of `client.subscribe`, for a client that was connected by the connection `n`. -/
def State.subscribe (b : Binding H) (n : ℕ) (ok : Bool) : Option (State τ H) :=
  if ok then
    if s.connected then some { s with subscribed := (s.connection, b) :: s.subscribed } else none
  else if s.connected ∧ s.connection = n then none
  else some s

/-- One step. -/
def step (s : State τ H) : Action τ H → Option (State τ H)
  | .create => some { s with created := true }
  | .connect =>
    if s.connected then none
    else some { s with connected := true, connection := s.connection + 1 }
  | .disconnect => some { s with connected := false }
  | .register t b =>
    match s.registers t with
    | .idle => if s.created then some (s.setRegister t (.called b)) else none
    | _ => none
  | .add t =>
    match s.registers t with
    | .called b => some { s.setRegister t (.added b) with bindings := s.bindings ++ [b] }
    | _ => none
  | .checkRegister t =>
    match s.registers t with
    | .added b =>
      some (s.setRegister t (if s.connected then .checked b s.connection else .idle))
    | _ => none
  | .subscribeRegister t ok =>
    match s.registers t with
    | .checked b n => (s.subscribe b n ok).map fun s => s.setRegister t .idle
    | _ => none
  | .connectComplete k =>
    match s.callbacks k with
    -- The client reports connected before the callback is called.
    | .waiting =>
      if 0 < k ∧ k ≤ s.connection then
        some (s.setCallback k (if s.created then .called else .finished))
      else none
    | _ => none
  | .resubscribeAll k =>
    match s.callbacks k with
    | .called => some (s.setCallback k (.looping s.bindings))
    | _ => none
  | .checkCallback k =>
    match s.callbacks k with
    | .looping (b :: rest) =>
      some (s.setCallback k (if s.connected then .checked b rest s.connection else .looping rest))
    | _ => none
  | .subscribeCallback k ok =>
    match s.callbacks k with
    | .checked b rest n => (s.subscribe b n ok).map fun s => s.setCallback k (.looping rest)
    | _ => none
  | .finish k =>
    match s.callbacks k with
    | .looping [] => some (s.setCallback k .finished)
    | _ => none

end Steps

/-! ### Coverage -/

section Coverage

variable {τ H : Type*}

/-- The registration still has to look at the connection, or is about to subscribe on it. -/
def RegisterPc.Pending (n : ℕ) (b : Binding H) : RegisterPc H → Prop
  | .added b' => b' = b
  | .checked b' m => b' = b ∧ m = n
  | _ => False

/-- The callback still comes to the binding, or is about to subscribe it. -/
def CallbackPc.Ahead (n : ℕ) (b : Binding H) : CallbackPc H → Prop
  | .waiting | .called => True
  | .looping rest => b ∈ rest
  | .checked b' rest m => b ∈ rest ∨ (b' = b ∧ m = n)
  | .finished => False

/-- A binding is subscribed on the current connection, or a registration or the callback of the
connection still has to do it. -/
def Covered (s : State τ H) (b : Binding H) : Prop :=
  (s.connection, b) ∈ s.subscribed ∨ (∃ t, (s.registers t).Pending s.connection b) ∨
    (s.callbacks s.connection).Ahead s.connection b

/-- What holds along every run. -/
structure Inv (s : State τ H) : Prop where
  covered : s.connected → ∀ b ∈ s.bindings, Covered s b
  /-- The callback of a connection that is still to come has not been called. -/
  later : ∀ k, s.connection < k → s.callbacks k = .waiting
  /-- Nobody can register before there is a registry. -/
  uncreated : s.created = false → s.bindings = [] ∧ ∀ t, s.registers t = .idle

theorem inv_initial (τ H : Type*) : Inv (State.initial τ H) where
  covered h := absurd h (by simp [State.initial])
  later _ _ := rfl
  uncreated _ := ⟨rfl, fun _ => rfl⟩

variable {s s' : State τ H} {b : Binding H}

/-- A callback that has been called is one of a connection that there has been. -/
theorem Inv.le_of_ne_waiting (h : Inv s) {k : ℕ} (hk : s.callbacks k ≠ .waiting) :
    k ≤ s.connection := by
  by_contra hlt
  exact hk (h.later k (by omega))

/-- A thread that is in a call has been given the registry. -/
theorem Inv.created_of_ne_idle (h : Inv s) {t : τ} (ht : s.registers t ≠ .idle) :
    s.created = true := by
  by_contra hcreated
  exact ht ((h.uncreated (by simpa using hcreated)).2 t)

/-- What a `subscribe` does, for a client that was connected by the connection `n`. -/
theorem subscribe_cases {n : ℕ} {ok : Bool} (h : s.subscribe b n ok = some s') :
    (∃ subs, s' = { s with subscribed := subs } ∧ ∀ x ∈ s.subscribed, x ∈ subs) ∧
      (s.connected → n = s.connection → (s.connection, b) ∈ s'.subscribed) := by
  rw [State.subscribe] at h
  split_ifs at h with hok hconnected hstays
  · cases h
    exact ⟨⟨_, rfl, fun _ hx => List.mem_cons_of_mem _ hx⟩, fun _ _ => List.mem_cons_self⟩
  · cases h
    exact ⟨⟨_, rfl, fun _ hx => hx⟩, fun hconnected hn => absurd ⟨hconnected, hn.symm⟩ hstays⟩

/-- A further subscription keeps the invariant. -/
theorem Inv.of_subscribe (h : Inv s) {n : ℕ} {ok : Bool} (hsub : s.subscribe b n ok = some s') :
    Inv s' := by
  obtain ⟨⟨subs, rfl, hsubs⟩, -⟩ := subscribe_cases hsub
  refine ⟨fun hconnected b' hb' => ?_, h.later, h.uncreated⟩
  exact (h.covered hconnected b' hb').imp_left (hsubs _)

/-- A callback that goes on keeps the invariant, if every binding that it still had to subscribe on
the current connection is subscribed by now, or still ahead of it. -/
theorem Inv.setCallback (h : Inv s) {k : ℕ} {pc : CallbackPc H} (hk : k ≤ s.connection)
    (hpc : s.connected → k = s.connection → ∀ b ∈ s.bindings,
      (s.callbacks k).Ahead s.connection b →
        (s.connection, b) ∈ s.subscribed ∨ pc.Ahead s.connection b) :
    Inv (s.setCallback k pc) where
  covered hconnected b hb := by
    rcases h.covered hconnected b hb with hsub | hpending | hahead
    · exact .inl hsub
    · exact .inr (.inl hpending)
    · by_cases hcurrent : k = s.connection
      · subst hcurrent
        refine (hpc hconnected rfl b hb hahead).imp id fun hahead => .inr ?_
        simpa [State.setCallback] using hahead
      · refine .inr (.inr ?_)
        simpa [State.setCallback, Ne.symm hcurrent] using hahead
  later k' hk' := by
    have hne : k' ≠ k := by
      have hlt : s.connection < k' := hk'
      omega
    simpa [State.setCallback, hne] using h.later k' hk'
  uncreated := h.uncreated

variable [DecidableEq τ]

/-- A thread that goes on keeps the invariant, if the binding that it still had to subscribe on the
current connection is subscribed by now, or still pending. -/
theorem Inv.setRegister (h : Inv s) {t : τ} {pc : RegisterPc H} (hcreated : s.created = true)
    (hpc : s.connected → ∀ b ∈ s.bindings, (s.registers t).Pending s.connection b →
      (s.connection, b) ∈ s.subscribed ∨ pc.Pending s.connection b) :
    Inv (s.setRegister t pc) where
  covered hconnected b hb := by
    rcases h.covered hconnected b hb with hsub | ⟨t', hpending⟩ | hahead
    · exact .inl hsub
    · by_cases ht : t' = t
      · subst ht
        refine (hpc hconnected b hb hpending).imp id fun hpending => .inl ⟨t', ?_⟩
        simpa [State.setRegister] using hpending
      · refine .inr (.inl ⟨t', ?_⟩)
        simpa [State.setRegister, ht] using hpending
    · exact .inr (.inr hahead)
  later := h.later
  uncreated hfalse := absurd (hcreated.symm.trans hfalse) (by decide)

/-- **Every binding stays covered.** A binding is added by a registration that still has to look at
the connection, and a new connection has its callback ahead of it. -/
theorem Inv.step {a : Action τ H} (h : Inv s)
    (hstep : MqttSubscriptions.step s a = some s') : Inv s' := by
  cases a with
  | create =>
    cases hstep
    exact ⟨h.covered, h.later, fun hfalse => absurd hfalse (by simp)⟩
  | connect =>
    simp only [MqttSubscriptions.step] at hstep
    split_ifs at hstep
    cases hstep
    have hwaiting : s.callbacks (s.connection + 1) = .waiting := h.later _ (by omega)
    refine ⟨fun _ b _ => .inr (.inr ?_), fun k hk => h.later k ?_, h.uncreated⟩
    · simp [hwaiting, CallbackPc.Ahead]
    · have hlt : s.connection + 1 < k := hk
      omega
  | disconnect =>
    cases hstep
    exact ⟨fun hconnected => absurd hconnected (by simp), h.later, h.uncreated⟩
  | register t b =>
    simp only [MqttSubscriptions.step] at hstep
    split at hstep
    next hpc =>
      split_ifs at hstep with hcreated
      cases hstep
      refine h.setRegister hcreated fun _ b' _ hpending => ?_
      simp [hpc, RegisterPc.Pending] at hpending
    next => cases hstep
  | add t =>
    simp only [MqttSubscriptions.step] at hstep
    split at hstep
    next b hpc =>
      cases hstep
      have hcreated : s.created = true := h.created_of_ne_idle (t := t) (by simp [hpc])
      have hset : Inv (s.setRegister t (.added b)) :=
        h.setRegister hcreated fun _ b' _ hpending => by simp [hpc, RegisterPc.Pending] at hpending
      refine ⟨fun hconnected b' hb' => ?_, hset.later, fun hfalse => ?_⟩
      · rcases List.mem_append.mp hb' with hold | hnew
        · exact hset.covered hconnected b' hold
        · rw [List.mem_singleton.mp hnew]
          exact .inr (.inl ⟨t, by simp [State.setRegister, RegisterPc.Pending]⟩)
      · exact absurd (hcreated.symm.trans hfalse) (by decide)
    next => cases hstep
  | checkRegister t =>
    simp only [MqttSubscriptions.step] at hstep
    split at hstep
    next b hpc =>
      cases hstep
      have hcreated : s.created = true := h.created_of_ne_idle (t := t) (by simp [hpc])
      refine h.setRegister hcreated fun hconnected b' _ hpending => .inr ?_
      rw [hpc] at hpending
      rw [if_pos hconnected]
      exact ⟨hpending, rfl⟩
    next => cases hstep
  | subscribeRegister t ok =>
    simp only [MqttSubscriptions.step] at hstep
    split at hstep
    next b n hpc =>
      obtain ⟨s₁, hsub, rfl⟩ := Option.map_eq_some_iff.mp hstep
      obtain ⟨⟨subs, rfl, -⟩, hsubscribed⟩ := subscribe_cases hsub
      have hcreated : s.created = true := h.created_of_ne_idle (t := t) (by simp [hpc])
      refine (h.of_subscribe hsub).setRegister hcreated fun hconnected b' _ hpending => .inl ?_
      simp only [hpc, RegisterPc.Pending] at hpending
      rw [← hpending.1]
      exact hsubscribed hconnected hpending.2
    next => cases hstep
  | connectComplete k =>
    simp only [MqttSubscriptions.step] at hstep
    split at hstep
    next hpc =>
      split_ifs at hstep with hk hcreated
      · cases hstep
        exact h.setCallback hk.2 fun _ _ b _ _ => .inr trivial
      · cases hstep
        have hbindings : s.bindings = [] := (h.uncreated (by simpa using hcreated)).1
        exact h.setCallback hk.2 fun _ _ b hb _ => by simp [hbindings] at hb
    next => cases hstep
  | resubscribeAll k =>
    simp only [MqttSubscriptions.step] at hstep
    split at hstep
    next hpc =>
      cases hstep
      exact h.setCallback (h.le_of_ne_waiting (by simp [hpc])) fun _ _ b hb _ => .inr hb
    next => cases hstep
  | checkCallback k =>
    simp only [MqttSubscriptions.step] at hstep
    split at hstep
    next b rest hpc =>
      cases hstep
      refine h.setCallback (h.le_of_ne_waiting (by simp [hpc])) fun hconnected _ b' _ hahead =>
        .inr ?_
      rw [if_pos hconnected]
      rw [hpc] at hahead
      rcases List.mem_cons.mp hahead with rfl | hrest
      · exact .inr ⟨rfl, rfl⟩
      · exact .inl hrest
    next => cases hstep
  | subscribeCallback k ok =>
    simp only [MqttSubscriptions.step] at hstep
    split at hstep
    next b rest n hpc =>
      obtain ⟨s₁, hsub, rfl⟩ := Option.map_eq_some_iff.mp hstep
      obtain ⟨⟨subs, rfl, -⟩, hsubscribed⟩ := subscribe_cases hsub
      refine (h.of_subscribe hsub).setCallback (h.le_of_ne_waiting (by simp [hpc]))
        fun hconnected _ b' _ hahead => ?_
      simp only [hpc, CallbackPc.Ahead] at hahead
      rcases hahead with hrest | ⟨rfl, hn⟩
      · exact .inr hrest
      · exact .inl (hsubscribed hconnected hn)
    next => cases hstep
  | finish k =>
    simp only [MqttSubscriptions.step] at hstep
    split at hstep
    next hpc =>
      cases hstep
      exact h.setCallback (h.le_of_ne_waiting (by simp [hpc])) fun _ _ b _ hahead => by
        simp [hpc, CallbackPc.Ahead] at hahead
    next => cases hstep

/-- The invariant holds along every run. -/
theorem inv_of_reachable (h : Reachable step (State.initial τ H) s) : Inv s :=
  h.invariant Inv (fun hinv _ hstep => hinv.step hstep) (inv_initial τ H)

end Coverage

/-! ### Quiet states -/

/-- **No binding is missed.** However registrations, connections, disconnections and callbacks
interleave: when the client is connected, the callback of its connection has finished and no
registration is in progress, every binding is subscribed on this connection. -/
theorem subscribed_of_finished {τ H : Type*} [DecidableEq τ] {s : State τ H}
    (h : Reachable step (State.initial τ H) s) (hconnected : s.connected = true)
    (hfinished : s.callbacks s.connection = .finished)
    (hreturned : ∀ t, s.registers t = .idle) :
    ∀ b ∈ s.bindings, (s.connection, b) ∈ s.subscribed := by
  intro b hb
  rcases (inv_of_reachable h).covered hconnected b hb with hsub | ⟨t, hpending⟩ | hahead
  · exact hsub
  · simp [hreturned t, RegisterPc.Pending] at hpending
  · simp [hfinished, CallbackPc.Ahead] at hahead

/-- A binding is added after the callback has begun its loop, and the connection is lost in the
middle of it: both bindings are subscribed on the second connection. -/
theorem subscribed_of_finished_reconnected : ∃ s : State Bool Unit,
    Reachable step (State.initial Bool Unit) s ∧ s.connection = 2 ∧
      s.bindings = [⟨"/device/+/heartbeat", 0, ()⟩, ⟨"/device/+/telemetry", 0, ()⟩] ∧
      ∀ b ∈ s.bindings, (s.connection, b) ∈ s.subscribed := by
  obtain ⟨s, hs, hconnected, hfinished, hreturned, hconnection, hbindings⟩ :
      ∃ s : State Bool Unit, Reachable step (State.initial Bool Unit) s ∧ s.connected = true ∧
        s.callbacks s.connection = .finished ∧ (∀ t, s.registers t = .idle) ∧ s.connection = 2 ∧
        s.bindings = [⟨"/device/+/heartbeat", 0, ()⟩, ⟨"/device/+/telemetry", 0, ()⟩] :=
    exists_reaches_of_execBy
      [.create, .register false ⟨"/device/+/heartbeat", 0, ()⟩, .add false, .checkRegister false,
        .connect, .connectComplete 1, .resubscribeAll 1,
        .register true ⟨"/device/+/telemetry", 0, ()⟩, .add true, .checkCallback 1, .disconnect,
        .subscribeCallback 1 false, .connect, .connectComplete 2, .resubscribeAll 2, .finish 1,
        .checkRegister true, .checkCallback 2, .subscribeRegister true true,
        .subscribeCallback 2 true, .checkCallback 2, .subscribeCallback 2 true, .finish 2]
      ⟨_, rfl, by decide, by decide, by decide, by decide, by decide⟩
  exact ⟨s, hs, hconnection, hbindings, subscribed_of_finished hs hconnected hfinished hreturned⟩

end EdgeGuardian.Controller.MqttSubscriptions
