import EdgeGuardian.Agent.Storage.OfflineQueue
import EdgeGuardian.Lib.Pool
import EdgeGuardian.Lib.Transition
import Mathlib.Algebra.Order.Group.Multiset
import Mathlib.Tactic.Abel

/-!
# Offline delivery of the MQTT client

`publishWithQueue` publishes a message, or stores it in the offline queue when the client is not
connected or the publish fails. `DrainOfflineQueue` takes batches of ten messages out of the queue
and publishes them one by one. Both run on any number of goroutines; they touch shared state in the
connectivity check, in the broker publish and in one Bolt transaction at a time, so a step of the
system is one of these operations of one call in progress.

The logs `accepted` and `delivered` are no part of the client: they record which calls of
`publishWithQueue` returned `nil` and which publishes the broker confirmed.

Source: `agent/internal/comms/mqtt_client.go`, lines 300–382.

## Main definitions

* `OfflineDelivery.Call`: the local states of the two functions.
* `OfflineDelivery.step`: the interleaved steps.
* `OfflineDelivery.NoLoss`: every accepted message is delivered or still queued.
* `OfflineDelivery.FailsLast`: the condition on a step under which nothing is lost.

## Main results

* `OfflineDelivery.Conserved.step`: what a step conserves.
* `OfflineDelivery.noLoss_of_failsLast`: no loss along every run whose drains fail only at the last
  message of a batch.
* `OfflineDelivery.drain_loses_rest_of_batch`: a run that loses a message.
-/

namespace EdgeGuardian.Agent

/-- What the broker is handed: a topic and a payload. -/
structure Publication where
  /-- The MQTT topic. -/
  topic : String
  /-- The JSON payload. -/
  payload : Bytes
deriving DecidableEq, Repr

/-- The publication that a queued message stands for. -/
def QueuedMessage.publication (m : QueuedMessage) : Publication where
  topic := m.topic
  payload := m.payload

namespace OfflineDelivery

/-- The outcome of `client.Publish(..)` and `token.WaitTimeout(5 * time.Second)`. -/
inductive PublishOutcome
  | success
  | error
  | timeout
deriving DecidableEq, Repr

/-- The local state of a call in progress. The first three belong to `publishWithQueue`, the
others to `DrainOfflineQueue`, with the messages of the batch that are still to be published. -/
inductive Call
  /-- Before `mc.client.IsConnected()`. -/
  | checking (p : Publication)
  /-- Before `mc.client.Publish`. -/
  | publishing (p : Publication)
  /-- In `queueMessage`, before the Bolt transaction. -/
  | queueing (p : Publication)
  /-- At the head of the loop, before `mc.store.DequeueMessages(10)`. -/
  | dequeueing
  /-- Before `mc.client.IsConnected()` for `m`, the messages `rest` of the batch following. -/
  | drainChecking (m : QueuedMessage) (rest : List QueuedMessage)
  /-- Before `mc.client.Publish` of `m`. -/
  | drainPublishing (m : QueuedMessage) (rest : List QueuedMessage)
  /-- Before `mc.store.EnqueueMessage(msg)`, which is followed by `return`. -/
  | requeueing (m : QueuedMessage)
deriving DecidableEq, Repr

/-- The `for` loop over a batch: the next message, or back to the head of the outer loop. -/
def Call.nextOfBatch : List QueuedMessage → Call
  | [] => .dequeueing
  | m :: rest => .drainChecking m rest

/-- The store, the calls in progress and the logs of what was accepted and delivered. -/
structure State where
  /-- The bucket `offline_queue`. -/
  queue : OfflineQueue
  /-- The calls in progress. -/
  calls : List Call
  /-- The messages for which `publishWithQueue` returned `nil`. -/
  accepted : List Publication
  /-- The messages whose publish succeeded. -/
  delivered : List Publication

/-- No call in progress, and nothing accepted yet. -/
def start (q : OfflineQueue) : State where
  queue := q
  calls := []
  accepted := []
  delivered := []

/-- The atomic operations. -/
inductive Action
  /-- `publishWithQueue` is called; `none` when `json.Marshal` fails and the call returns its
  error. -/
  | publishWithQueue (topic : String) (data : Option Bytes)
  /-- `DrainOfflineQueue` is called. -/
  | drainOfflineQueue
  /-- The call at `i` runs `IsConnected` and gets `up`. -/
  | isConnected (i : ℕ) (up : Bool)
  /-- The call at `i` publishes and waits for the token. -/
  | publish (i : ℕ) (outcome : PublishOutcome)
  /-- The call at `i` runs its Bolt transaction, at the time `now`. -/
  | transaction (i : ℕ) (now : ℕ)
deriving DecidableEq, Repr

/-- Replace the local state of the call at `i`, or end it. -/
def State.setCall (s : State) (i : ℕ) (c : Option Call) : State :=
  { s with calls := Pool.update s.calls i c }

/-- The check of `IsConnected`: both functions publish when connected; otherwise
`publishWithQueue` queues its message and `DrainOfflineQueue` puts the message at hand back. -/
def afterIsConnected (s : State) (i : ℕ) (up : Bool) : Call → Option State
  | .checking p => some (s.setCall i (some (if up then .publishing p else .queueing p)))
  | .drainChecking m rest =>
    some (s.setCall i (some (if up then .drainPublishing m rest else .requeueing m)))
  | _ => none

/-- The publish: on success `publishWithQueue` returns `nil` and a drain goes on with its batch;
otherwise the message at hand goes to the queue. -/
def afterPublish (s : State) (i : ℕ) (outcome : PublishOutcome) : Call → Option State
  | .publishing p =>
    match outcome with
    | .success =>
      some { s.setCall i none with
        accepted := s.accepted ++ [p], delivered := s.delivered ++ [p] }
    | _ => some (s.setCall i (some (.queueing p)))
  | .drainPublishing m rest =>
    match outcome with
    | .success =>
      some { s.setCall i (some (.nextOfBatch rest)) with
        delivered := s.delivered ++ [m.publication] }
    | _ => some (s.setCall i (some (.requeueing m)))
  | _ => none

/-- The Bolt transactions: `queueMessage` stores its message and returns `nil`, a drain takes the
next batch, and a drain that failed puts one message back and returns. -/
def afterTransaction (s : State) (i : ℕ) (now : ℕ) : Call → Option State
  | .queueing p =>
    some { s.setCall i none with
      queue := s.queue.enqueueMessage ⟨p.topic, p.payload, now⟩
      accepted := s.accepted ++ [p] }
  | .dequeueing =>
    let r := s.queue.dequeueMessages 10
    match r.1 with
    | [] => some { s.setCall i none with queue := r.2 }
    | m :: rest => some { s.setCall i (some (.drainChecking m rest)) with queue := r.2 }
  | .requeueing m => some { s.setCall i none with queue := s.queue.enqueueMessage m }
  | _ => none

/-- One operation of the system. -/
def step (s : State) : Action → Option State
  | .publishWithQueue _ none => some s
  | .publishWithQueue topic (some payload) =>
    some { s with calls := s.calls ++ [.checking ⟨topic, payload⟩] }
  | .drainOfflineQueue => some { s with calls := s.calls ++ [.dequeueing] }
  | .isConnected i up => s.calls[i]?.bind (afterIsConnected s i up)
  | .publish i outcome => s.calls[i]?.bind (afterPublish s i outcome)
  | .transaction i now => s.calls[i]?.bind (afterTransaction s i now)

/-! ### The property -/

/-- The publications that wait in the bucket. -/
def queued (q : OfflineQueue) : Multiset Publication :=
  (q.messages.map QueuedMessage.publication : List Publication)

/-- Every message queued at the start or accepted since, counted with multiplicity, has been
handed to the broker or is in the bucket. -/
def NoLoss (q₀ : OfflineQueue) (s : State) : Prop :=
  queued q₀ + (s.accepted : Multiset Publication) ≤ (s.delivered : Multiset Publication) +
    queued s.queue

instance (q₀ : OfflineQueue) (s : State) : Decidable (NoLoss q₀ s) :=
  inferInstanceAs (Decidable (_ ≤ _))

/-- The messages of the batch behind the one at hand. -/
def Call.rest : Call → List QueuedMessage
  | drainChecking _ rest => rest
  | drainPublishing _ rest => rest
  | _ => []

/-- The call is about to store a message. -/
def Call.stores : Call → Bool
  | queueing _ => true
  | requeueing _ => true
  | _ => false

/-- The drain steps that go wrong, and the wrap-around of the sequence counter, do not happen: a
drain finds the client disconnected, or fails to publish, only at the last message of its batch,
and a message is stored only while the bucket's `uint64` counter does not overflow. -/
def FailsLast (s : State) : Action → Prop
  | .isConnected i up => up = false → ∀ c ∈ s.calls[i]?, c.rest = []
  | .publish i outcome => outcome ≠ .success → ∀ c ∈ s.calls[i]?, c.rest = []
  | .transaction i _ => ∀ c ∈ s.calls[i]?, c.stores → s.queue.sequence + 1 < 2 ^ 64
  | _ => True

instance (s : State) : (a : Action) → Decidable (FailsLast s a)
  | .publishWithQueue _ _ => inferInstanceAs (Decidable True)
  | .drainOfflineQueue => inferInstanceAs (Decidable True)
  | .isConnected i up => inferInstanceAs (Decidable (up = false → ∀ c ∈ s.calls[i]?, c.rest = []))
  | .publish i outcome =>
    inferInstanceAs (Decidable (outcome ≠ .success → ∀ c ∈ s.calls[i]?, c.rest = []))
  | .transaction i _ =>
    inferInstanceAs (Decidable (∀ c ∈ s.calls[i]?, c.stores → s.queue.sequence + 1 < 2 ^ 64))

/-! ### Conservation -/

/-- The messages that a drain in progress took out of the bucket and has not published yet. -/
def Call.holds : Call → Multiset Publication
  | drainChecking m rest => (m :: rest).map QueuedMessage.publication
  | drainPublishing m rest => (m :: rest).map QueuedMessage.publication
  | requeueing m => {m.publication}
  | _ => 0

theorem holds_nextOfBatch (rest : List QueuedMessage) :
    (Call.nextOfBatch rest).holds = (rest.map QueuedMessage.publication : List Publication) := by
  cases rest <;> rfl

/-- What was queued at the start or accepted since is delivered, queued, or held by a drain. -/
structure Conserved (q₀ : OfflineQueue) (s : State) : Prop where
  /-- The keys of the bucket come from its counter. -/
  keys : s.queue.KeysIssued
  /-- The balance of the messages. -/
  balance : queued q₀ + (s.accepted : Multiset Publication) =
    (s.delivered : Multiset Publication) + queued s.queue + Pool.load Call.holds s.calls

theorem conserved_start {q₀ : OfflineQueue} (h : q₀.KeysIssued) : Conserved q₀ (start q₀) where
  keys := h
  balance := by simp [start, Pool.load]

theorem queued_enqueueMessage {q : OfflineQueue} (hq : q.KeysIssued)
    (h : q.sequence + 1 < 2 ^ 64) (msg : QueuedMessage) :
    queued (q.enqueueMessage msg) = {msg.publication} + queued q :=
  Quot.sound ((OfflineQueue.messages_enqueueMessage hq h msg).map QueuedMessage.publication)

theorem queued_dequeueMessages (q : OfflineQueue) (limit : ℕ) :
    queued q = ((q.dequeueMessages limit).1.map QueuedMessage.publication : List Publication) +
      queued (q.dequeueMessages limit).2 := by
  rw [queued, OfflineQueue.messages_dequeueMessages q limit, List.map_append, ← Multiset.coe_add]
  rfl

variable {q₀ : OfflineQueue} {s t : State} {i : ℕ} {c : Call}

/-- The balance with the stepping call taken apart. -/
theorem Conserved.balance_at (hs : Conserved q₀ s) (hc : s.calls[i]? = some c) :
    queued q₀ + (s.accepted : Multiset Publication) =
      (s.delivered : Multiset Publication) + queued s.queue +
        (c.holds + Pool.load Call.holds (s.calls.eraseIdx i)) := by
  rw [← Pool.load_eq hc]
  exact hs.balance

/-- A step of the call at `i` that only changes its local state keeps the balance when the new
local state holds the same messages. -/
theorem Conserved.setCall (hs : Conserved q₀ s) (hc : s.calls[i]? = some c) {c' : Call}
    (hholds : c'.holds = c.holds) : Conserved q₀ (s.setCall i (some c')) where
  keys := hs.keys
  balance := by
    simp only [State.setCall, Pool.load_update hc, Option.elim_some, hholds]
    exact hs.balance_at hc

theorem Conserved.afterIsConnected (hs : Conserved q₀ s) {up : Bool}
    (hc : s.calls[i]? = some c) (hok : FailsLast s (.isConnected i up))
    (h : OfflineDelivery.afterIsConnected s i up c = some t) : Conserved q₀ t := by
  cases c with
  | checking p =>
    cases h
    exact hs.setCall hc (by cases up <;> rfl)
  | drainChecking m rest =>
    cases h
    cases up with
    | true => exact hs.setCall hc rfl
    | false =>
      -- The drain forgets the rest of its batch; the condition says that it is empty.
      obtain rfl : rest = [] := hok rfl _ hc
      exact hs.setCall hc rfl
  | _ => cases h

theorem Conserved.afterPublish (hs : Conserved q₀ s) {outcome : PublishOutcome}
    (hc : s.calls[i]? = some c) (hok : FailsLast s (.publish i outcome))
    (h : OfflineDelivery.afterPublish s i outcome c = some t) : Conserved q₀ t := by
  have hbal := hs.balance_at hc
  cases c with
  | publishing p =>
    cases outcome with
    | success =>
      cases h
      refine ⟨hs.keys, ?_⟩
      simp only [State.setCall, Pool.load_update hc, ← Multiset.coe_add]
      simp only [Call.holds, Option.elim_none] at hbal ⊢
      rw [← add_assoc, hbal]
      abel
    | error | timeout =>
      cases h
      exact hs.setCall hc rfl
  | drainPublishing m rest =>
    cases outcome with
    | success =>
      cases h
      refine ⟨hs.keys, ?_⟩
      simp only [State.setCall, Pool.load_update hc, ← Multiset.coe_add, Option.elim_some,
        holds_nextOfBatch]
      rw [hbal, Call.holds, List.map_cons, ← List.singleton_append, ← Multiset.coe_add]
      abel
    | error | timeout =>
      cases h
      obtain rfl : rest = [] := hok (by decide) _ hc
      exact hs.setCall hc rfl
  | _ => cases h

theorem Conserved.afterTransaction (hs : Conserved q₀ s) {now : ℕ}
    (hc : s.calls[i]? = some c) (hok : FailsLast s (.transaction i now))
    (h : OfflineDelivery.afterTransaction s i now c = some t) : Conserved q₀ t := by
  have hbal := hs.balance_at hc
  cases c with
  | queueing p =>
    cases h
    have hseq := hok _ hc rfl
    refine ⟨hs.keys.enqueueMessage hseq _, ?_⟩
    simp only [State.setCall, Pool.load_update hc, ← Multiset.coe_add, Option.elim_none,
      queued_enqueueMessage hs.keys hseq]
    simp only [Call.holds, QueuedMessage.publication] at hbal ⊢
    rw [← add_assoc, hbal, Multiset.coe_singleton]
    abel
  | dequeueing =>
    have hq := queued_dequeueMessages s.queue 10
    simp only [Call.holds, zero_add] at hbal
    cases hr : (s.queue.dequeueMessages 10).1 with
    | nil =>
      simp only [OfflineDelivery.afterTransaction, hr, Option.some.injEq] at h
      subst h
      refine ⟨hs.keys.dequeueMessages 10, ?_⟩
      simp only [State.setCall, Pool.load_update hc, Option.elim_none]
      rw [hbal, hq, hr, List.map_nil, Multiset.coe_nil, zero_add, zero_add]
    | cons m rest =>
      simp only [OfflineDelivery.afterTransaction, hr, Option.some.injEq] at h
      subst h
      refine ⟨hs.keys.dequeueMessages 10, ?_⟩
      simp only [State.setCall, Pool.load_update hc, Option.elim_some]
      rw [hbal, hq, hr]
      simp only [Call.holds]
      abel
  | requeueing m =>
    cases h
    have hseq := hok _ hc rfl
    refine ⟨hs.keys.enqueueMessage hseq _, ?_⟩
    simp only [State.setCall, Pool.load_update hc, Option.elim_none,
      queued_enqueueMessage hs.keys hseq]
    rw [hbal, Call.holds]
    abel
  | _ => cases h

/-- **What a step conserves.** A step that meets the condition keeps the balance of the messages. -/
theorem Conserved.step {a : Action} (hs : Conserved q₀ s) (hok : FailsLast s a)
    (h : OfflineDelivery.step s a = some t) : Conserved q₀ t := by
  cases a with
  | publishWithQueue topic data =>
    cases data with
    | none =>
      cases h
      exact hs
    | some payload =>
      cases h
      refine ⟨hs.keys, ?_⟩
      simp only [Pool.load_append]
      simpa [Pool.load, Call.holds] using hs.balance
  | drainOfflineQueue =>
    cases h
    refine ⟨hs.keys, ?_⟩
    simp only [Pool.load_append]
    simpa [Pool.load, Call.holds] using hs.balance
  | isConnected i up =>
    obtain ⟨c, hc, h⟩ := Option.bind_eq_some_iff.mp h
    exact hs.afterIsConnected hc hok h
  | publish i outcome =>
    obtain ⟨c, hc, h⟩ := Option.bind_eq_some_iff.mp h
    exact hs.afterPublish hc hok h
  | transaction i now =>
    obtain ⟨c, hc, h⟩ := Option.bind_eq_some_iff.mp h
    exact hs.afterTransaction hc hok h

/-- **No loss while drains fail last.** Along every interleaving of calls of `publishWithQueue` and
`DrainOfflineQueue` in which a drain fails only at the last message of its batch, whenever no call
is in progress every accepted message has been handed to the broker or is in the bucket. -/
theorem noLoss_of_failsLast (hq : q₀.KeysIssued)
    (h : Transition.Reaches step FailsLast (start q₀) s) (hidle : s.calls = []) :
    NoLoss q₀ s := by
  have hs : Conserved q₀ s :=
    h.invariant (Conserved q₀) (fun hs hok hst => hs.step hok hst) (conserved_start hq)
  have hbal := hs.balance
  rw [hidle, Pool.load, List.map_nil, List.sum_nil, add_zero] at hbal
  exact hbal.le

/-- Two calls of `publishWithQueue` on a disconnected client, which queue their messages. -/
def queueTwo : List Action :=
  [.publishWithQueue "edgeguardian/device/d/heartbeat" (some [1]),
   .isConnected 0 false, .transaction 0 0,
   .publishWithQueue "edgeguardian/device/d/heartbeat" (some [2]),
   .isConnected 0 false, .transaction 0 1]

/-- A drain that publishes both messages meets the condition. -/
theorem noLoss_of_drained_two : ∃ s, Transition.Reaches step FailsLast (start .empty) s ∧
    s.calls = [] ∧ s.delivered.length = 2 ∧ NoLoss .empty s := by
  have hrun : ∃ s, Transition.Reaches step FailsLast (start .empty) s ∧
      s.calls = [] ∧ s.delivered.length = 2 :=
    Transition.exists_reaches_of_execBy
      (queueTwo ++ [Action.drainOfflineQueue, .transaction 0 2, .isConnected 0 true,
        .publish 0 .success, .isConnected 0 true, .publish 0 .success, .transaction 0 3])
      (by decide)
  obtain ⟨s, hs, hidle, hdelivered⟩ := hrun
  exact ⟨s, hs, hidle, hdelivered, noLoss_of_failsLast OfflineQueue.keysIssued_empty hs hidle⟩

/-- A drain that finds the client disconnected at the first of two queued messages puts only that
message back: the second is neither delivered nor queued. -/
theorem drain_loses_rest_of_batch : ∃ s, Transition.Reachable step (start .empty) s ∧
    s.calls = [] ∧ ¬ NoLoss .empty s :=
  Transition.exists_reaches_of_execBy
    (queueTwo ++
      [Action.drainOfflineQueue, .transaction 0 2, .isConnected 0 false, .transaction 0 3])
    (by decide)

end OfflineDelivery

end EdgeGuardian.Agent
