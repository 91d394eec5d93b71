import EdgeGuardian.Agent.Comms.OfflineDelivery
import EdgeGuardian.Lib.FirstDelivery

/-!
# The order in which drains deliver

`EnqueueMessage` hands out increasing keys and `DequeueMessages` reads in key order, so that the
queue is first in, first out. `DrainOfflineQueue` publishes a batch in this order. When a publish
fails, it stores the message at hand again, under a new key: behind every message that has been
waiting in the queue.

A run interleaves the stores of `publishWithQueue` with drains, one at a time. A step of a drain is
one Bolt transaction, one check of the connection or one publish, and the agent may restart in
between. A publish that fails may have reached the broker all the same.

Messages are numbered in the order in which `publishWithQueue` stores them, and the number follows
a message through the queue; the source knows no such number. `State.number` records which message
lies under a key of the bucket.

Source: `agent/internal/comms/mqtt_client.go`, lines 300–382.

## Main definitions

* `DrainOrder.step`: the steps of stores and drains.
* `DrainOrder.PutsBackAlone`: the condition on a step under which the order is kept.
* `DrainOrder.OrderInv`: the invariant.

## Main results

* `DrainOrder.step_cases`: what a step does to the messages that wait.
* `DrainOrder.first_deliveries_in_order`: the first deliveries are in the order of the stores, along
  every run that meets the condition.
* `DrainOrder.put_back_overtaken`: a run that delivers in another order.
-/

namespace EdgeGuardian.Agent.DrainOrder

open OfflineDelivery (PublishOutcome)
open FirstDelivery Transition

/-- A message with its number in the order of the stores. -/
structure Numbered where
  /-- The number. -/
  number : ℕ
  /-- The message. -/
  msg : QueuedMessage
deriving DecidableEq, Repr

/-- The local state of `DrainOfflineQueue`, with the messages of the batch that are still to be
published. -/
inductive Drain
  /-- No drain is in progress. -/
  | idle
  /-- At the head of the loop, before `mc.store.DequeueMessages(10)`. -/
  | dequeueing
  /-- Before `mc.client.IsConnected()` for `m`, the messages `rest` of the batch following. -/
  | checking (m : Numbered) (rest : List Numbered)
  /-- Before `mc.client.Publish` of `m`. -/
  | publishing (m : Numbered) (rest : List Numbered)
  /-- Before `mc.store.EnqueueMessage(msg)`, which is followed by `return`. -/
  | requeueing (m : Numbered)
deriving DecidableEq, Repr

/-- The `for` loop over a batch: the next message, or back to the head of the outer loop. -/
def Drain.nextOfBatch : List Numbered → Drain
  | [] => .dequeueing
  | m :: rest => .checking m rest

/-- The messages that a drain has taken out of the queue and still holds. -/
def Drain.batch : Drain → List Numbered
  | checking m rest => m :: rest
  | publishing m rest => m :: rest
  | requeueing m => [m]
  | _ => []

@[simp]
theorem batch_nextOfBatch (rest : List Numbered) : (Drain.nextOfBatch rest).batch = rest := by
  cases rest <;> rfl

/-- The store, the drain in progress, and the records of what was stored and delivered. -/
structure State where
  /-- The bucket `offline_queue`. -/
  queue : OfflineQueue
  /-- The number of the message under a key of the bucket. -/
  number : List ℕ → ℕ
  /-- The drain in progress. -/
  drain : Drain
  /-- The messages that `publishWithQueue` has stored, in this order. -/
  stored : List QueuedMessage
  /-- What drains have delivered to the broker, in this order. -/
  delivered : List Numbered

/-- The readable messages of some entries, with the numbers that their keys have. -/
def numbered (number : List ℕ → ℕ) (es : List (List ℕ × StoredValue)) : List Numbered :=
  es.filterMap fun e => e.2.unmarshal.map fun msg => ⟨number e.1, msg⟩

namespace State

/-- The readable messages of the bucket with their numbers, oldest key first. -/
def waiting (s : State) : List Numbered := numbered s.number s.queue.bucket.entries

/-- `Store.EnqueueMessage`. -/
def enqueueMessage (s : State) (m : Numbered) : State :=
  { s with
    queue := s.queue.enqueueMessage m.msg
    number := Function.update s.number (queueKey s.queue.nextSequence) m.number }

/-- `MQTTClient.queueMessage`, at the time `now`. -/
def queueMessage (s : State) (topic : String) (payload : Bytes) (now : ℕ) : State :=
  { s.enqueueMessage ⟨s.stored.length, ⟨topic, payload, now⟩⟩ with
    stored := s.stored ++ [⟨topic, payload, now⟩] }

/-- `Store.DequeueMessages(10)`: the batch with its numbers, and the queue without it. -/
def dequeueMessages (s : State) : List Numbered × State :=
  let r := s.queue.dequeueMessages 10
  (s.waiting.take r.1.length, { s with queue := r.2 })

/-- The messages on their way: those that a drain holds and, behind them, those in the queue. -/
def pending (s : State) : List Numbered := s.drain.batch ++ s.waiting

end State

/-- The atomic operations. -/
inductive Action
  /-- `publishWithQueue`, with the payload that `json.Marshal` gives, the answer of `IsConnected`,
  the outcome of the publish and the time of the store. -/
  | publishWithQueue (topic : String) (data : Option Bytes) (up : Bool) (outcome : PublishOutcome)
      (now : ℕ)
  /-- `DrainOfflineQueue` is called while no other drain is in progress. -/
  | drainOfflineQueue
  /-- The drain takes its next batch. -/
  | dequeueMessages
  /-- The drain runs `IsConnected` and gets `up`. -/
  | isConnected (up : Bool)
  /-- The drain publishes; `arrived` says whether a publish that fails has reached the broker. -/
  | publish (outcome : PublishOutcome) (arrived : Bool)
  /-- The drain puts the message at hand back and returns. -/
  | enqueueMessage
  /-- The agent ends and starts again. -/
  | restart
deriving DecidableEq, Repr

/-- `publishWithQueue` stores its message when the client is not connected or the publish fails. -/
def publishWithQueue (s : State) (topic : String) (data : Option Bytes) (up : Bool)
    (outcome : PublishOutcome) (now : ℕ) : State :=
  match data with
  | none => s
  | some payload =>
    if up = true ∧ outcome = .success then s else s.queueMessage topic payload now

/-- The publish of a drain: on success it goes on with its batch, otherwise it keeps the message at
hand and forgets the others. -/
def afterPublish (s : State) (m : Numbered) (rest : List Numbered) (outcome : PublishOutcome)
    (arrived : Bool) : State :=
  match outcome with
  | .success => { s with drain := .nextOfBatch rest, delivered := s.delivered ++ [m] }
  | _ =>
    { s with
      drain := .requeueing m
      delivered := if arrived then s.delivered ++ [m] else s.delivered }

/-- One operation of the system. -/
def step (s : State) : Action → Option State
  | .publishWithQueue topic data up outcome now =>
    some (publishWithQueue s topic data up outcome now)
  | .drainOfflineQueue =>
    match s.drain with
    | .idle => some { s with drain := .dequeueing }
    | _ => none
  | .dequeueMessages =>
    match s.drain with
    | .dequeueing =>
      let r := s.dequeueMessages
      match r.1 with
      | [] => some { r.2 with drain := .idle }
      | m :: rest => some { r.2 with drain := .checking m rest }
    | _ => none
  | .isConnected up =>
    match s.drain with
    | .checking m rest => some { s with drain := if up then .publishing m rest else .requeueing m }
    | _ => none
  | .publish outcome arrived =>
    match s.drain with
    | .publishing m rest => some (afterPublish s m rest outcome arrived)
    | _ => none
  | .enqueueMessage =>
    match s.drain with
    | .requeueing m => some { s.enqueueMessage m with drain := .idle }
    | _ => none
  | .restart => some { s with drain := .idle }

/-! ### The condition -/

/-- The operation stores a message in the bucket. -/
def Action.stores : Action → Bool
  | publishWithQueue _ data up outcome _ => data.isSome && !decide (up = true ∧ outcome = .success)
  | enqueueMessage => true
  | _ => false

/-- The sequence counter, a `uint64`, does not overflow, and a drain puts a message that has not
reached the broker back only into a queue without readable messages. -/
def PutsBackAlone (s : State) (a : Action) : Prop :=
  (a.stores = true → s.queue.sequence + 1 < 2 ^ 64) ∧
    (a = .enqueueMessage → ∀ m ∈ s.drain.batch,
      m.number ∈ s.delivered.map Numbered.number ∨ s.queue.messages = [])

instance (s : State) (a : Action) : Decidable (PutsBackAlone s a) :=
  inferInstanceAs (Decidable (_ ∧ _))

/-- The queue holds no readable message, and nothing was stored or delivered yet. -/
structure Starting (s : State) : Prop where
  keys : s.queue.KeysIssued
  messages : s.queue.messages = []
  drain : s.drain = .idle
  stored : s.stored = []
  delivered : s.delivered = []

/-! ### The messages that wait -/

variable {s t : State} {a : Action}

theorem map_msg_numbered (number : List ℕ → ℕ) (es : List (List ℕ × StoredValue)) :
    (numbered number es).map Numbered.msg = OfflineQueue.readable es := by
  rw [numbered, List.map_filterMap]
  refine List.filterMap_congr fun e _ => ?_
  rw [Option.map_map]
  exact Option.map_id'

theorem numbered_append (number : List ℕ → ℕ) (es es' : List (List ℕ × StoredValue)) :
    numbered number (es ++ es') = numbered number es ++ numbered number es' :=
  List.filterMap_append

/-- Writing the number of another key changes nothing. -/
theorem numbered_update {number : List ℕ → ℕ} {es : List (List ℕ × StoredValue)} {k : List ℕ}
    (hk : ∀ e ∈ es, e.1 ≠ k) (n : ℕ) :
    numbered (Function.update number k n) es = numbered number es :=
  List.filterMap_congr fun e he => by rw [Function.update_of_ne (hk e he)]

theorem waiting_eq_nil (h : s.queue.messages = []) : s.waiting = [] := by
  have hmap : s.waiting.map Numbered.msg = s.queue.messages := map_msg_numbered _ _
  rw [h, List.map_eq_nil_iff] at hmap
  exact hmap

/-- A message that is stored waits at the end. -/
theorem waiting_enqueueMessage (hs : s.queue.KeysIssued) (h : s.queue.sequence + 1 < 2 ^ 64)
    (m : Numbered) : (s.enqueueMessage m).waiting = s.waiting ++ [m] := by
  have hlt := hs.lt_queueKey h
  have hentries : (s.enqueueMessage m).queue.bucket.entries =
      s.queue.bucket.entries ++ [(queueKey s.queue.nextSequence, .message m.msg)] :=
    OrderedMap.entries_put_of_lt _ hlt
  have hold : ∀ e ∈ s.queue.bucket.entries, e.1 ≠ queueKey s.queue.nextSequence :=
    fun e he => (hlt _ (List.mem_map_of_mem he)).ne
  have hnew : (s.enqueueMessage m).number (queueKey s.queue.nextSequence) = m.number :=
    Function.update_self ..
  rw [State.waiting, hentries, numbered_append]
  congr 1
  · exact numbered_update hold m.number
  · rw [numbered, List.filterMap_cons, List.filterMap_nil, hnew]
    rfl

/-- A dequeue takes the first messages that wait, and they are those that `DequeueMessages`
returns. -/
theorem waiting_dequeueMessages (s : State) :
    s.waiting = s.dequeueMessages.1 ++ s.dequeueMessages.2.waiting ∧
      s.dequeueMessages.1.map Numbered.msg = (s.queue.dequeueMessages 10).1 := by
  obtain ⟨pre, post, hentries, hkeys, hmsgs⟩ :=
    OfflineQueue.dequeueLoop_spec s.queue.bucket.entries 10
  have hreturned : (s.queue.dequeueMessages 10).1 = OfflineQueue.readable pre := hmsgs
  have hlength : (s.queue.dequeueMessages 10).1.length = (numbered s.number pre).length := by
    rw [hreturned, ← map_msg_numbered s.number, List.length_map]
  have hwaiting : s.waiting = numbered s.number pre ++ numbered s.number post := by
    rw [State.waiting, hentries, numbered_append]
  have hbatch : s.dequeueMessages.1 = numbered s.number pre := by
    rw [State.dequeueMessages, hwaiting, hlength, List.take_left']
    rfl
  have hrest : s.dequeueMessages.2.waiting = numbered s.number post := by
    refine congrArg (numbered s.number) ?_
    change (s.queue.bucket.erase _).entries = post
    rw [hkeys, OrderedMap.entries_erase_take hentries]
  rw [hbatch, hrest, hreturned]
  exact ⟨hwaiting, map_msg_numbered _ _⟩

/-! ### What a step does -/

/-- What a step does to the records: it forgets some of the messages on their way, it stores a new
message behind all others, it delivers the message in front, or it puts the message in front
behind those that wait, if there are any only when it has been delivered. -/
inductive Effect (s t : State) : Prop
  | forgets (stored : t.stored = s.stored) (delivered : t.delivered = s.delivered)
      (pending : t.pending.Sublist s.pending)
  | storesLast (msg : QueuedMessage) (stored : t.stored = s.stored ++ [msg])
      (delivered : t.delivered = s.delivered)
      (pending : t.pending = s.pending ++ [⟨s.stored.length, msg⟩])
  | delivers (m : Numbered) (rest : List Numbered) (front : s.pending = m :: rest)
      (stored : t.stored = s.stored) (delivered : t.delivered = s.delivered ++ [m])
      (pending : t.pending.Sublist s.pending)
  | putsBack (m : Numbered) (front : s.pending = m :: s.waiting)
      (alone : m.number ∈ s.delivered.map Numbered.number ∨ s.waiting = [])
      (stored : t.stored = s.stored) (delivered : t.delivered = s.delivered)
      (pending : t.pending = s.waiting ++ [m])

/-- A step that changes the drain only. -/
theorem effect_setDrain {drain : Drain} (h : drain.batch.Sublist s.drain.batch) :
    Effect s { s with drain } :=
  .forgets rfl rfl (h.append (List.Sublist.refl _))

theorem effect_publishWithQueue {topic : String} {data : Option Bytes} {up : Bool}
    {outcome : PublishOutcome} {now : ℕ} (hs : s.queue.KeysIssued)
    (hok : PutsBackAlone s (.publishWithQueue topic data up outcome now)) :
    (publishWithQueue s topic data up outcome now).queue.KeysIssued ∧
      Effect s (publishWithQueue s topic data up outcome now) := by
  cases data with
  | none => exact ⟨hs, effect_setDrain (List.Sublist.refl _)⟩
  | some payload =>
    rw [publishWithQueue]
    split_ifs with hpublished
    · exact ⟨hs, effect_setDrain (List.Sublist.refl _)⟩
    · have hseq : s.queue.sequence + 1 < 2 ^ 64 := by
        refine hok.1 ?_
        rw [Action.stores, Option.isSome_some, Bool.true_and, Bool.not_eq_true',
          decide_eq_false_iff_not]
        exact hpublished
      refine ⟨hs.enqueueMessage hseq _, .storesLast ⟨topic, payload, now⟩ rfl rfl ?_⟩
      have hwaiting := waiting_enqueueMessage hs hseq ⟨s.stored.length, ⟨topic, payload, now⟩⟩
      rw [State.pending, State.pending, List.append_assoc, ← hwaiting]
      rfl

theorem effect_dequeueMessages (hdrain : s.drain = .dequeueing) (hs : s.queue.KeysIssued)
    (h : step s .dequeueMessages = some t) : t.queue.KeysIssued ∧ Effect s t := by
  have hkeys : s.dequeueMessages.2.queue.KeysIssued := hs.dequeueMessages 10
  have hwaiting := (waiting_dequeueMessages s).1
  have hpending : s.pending = s.waiting := by
    rw [State.pending, hdrain]
    rfl
  simp only [step, hdrain] at h
  split at h
  · rename_i hbatch
    cases h
    refine ⟨hkeys, .forgets rfl rfl ?_⟩
    rw [hpending, hwaiting, hbatch]
    exact List.Sublist.refl _
  · rename_i m rest hbatch
    cases h
    refine ⟨hkeys, .forgets rfl rfl ?_⟩
    rw [hpending, hwaiting, hbatch]
    exact List.Sublist.refl _

theorem effect_afterPublish {m : Numbered} {rest : List Numbered} {outcome : PublishOutcome}
    {arrived : Bool} (hdrain : s.drain = .publishing m rest) :
    Effect s (afterPublish s m rest outcome arrived) := by
  have hfront : s.pending = m :: (rest ++ s.waiting) := by
    rw [State.pending, hdrain]
    rfl
  have hkept : ([m] ++ s.waiting).Sublist s.pending := by
    rw [hfront]
    exact (List.sublist_append_right _ _).cons_cons m
  cases outcome with
  | success =>
    refine .delivers m _ hfront rfl rfl ?_
    rw [hfront, State.pending]
    simp only [afterPublish, batch_nextOfBatch]
    exact List.sublist_cons_self _ _
  | error | timeout =>
    cases arrived with
    | true => exact .delivers m _ hfront rfl rfl hkept
    | false => exact .forgets rfl rfl hkept

theorem effect_enqueueMessage {m : Numbered} (hdrain : s.drain = .requeueing m)
    (hs : s.queue.KeysIssued) (hok : PutsBackAlone s .enqueueMessage) :
    (s.enqueueMessage m).queue.KeysIssued ∧
      Effect s { s.enqueueMessage m with drain := .idle } := by
  have hseq := hok.1 rfl
  have hfront : s.pending = m :: s.waiting := by
    rw [State.pending, hdrain]
    rfl
  have hmem : m ∈ s.drain.batch := by
    rw [hdrain]
    exact List.mem_cons_self
  have halone := (hok.2 rfl m hmem).imp_right waiting_eq_nil
  exact ⟨hs.enqueueMessage hseq _,
    .putsBack m hfront halone rfl rfl (waiting_enqueueMessage hs hseq m)⟩

/-- **What a step does.** A step that meets the condition forgets messages, stores one, delivers the
first one or puts one back. -/
theorem step_cases (hs : s.queue.KeysIssued) (hok : PutsBackAlone s a) (h : step s a = some t) :
    t.queue.KeysIssued ∧ Effect s t := by
  cases a with
  | publishWithQueue topic data up outcome now =>
    cases h
    exact effect_publishWithQueue hs hok
  | drainOfflineQueue =>
    simp only [step] at h
    split at h
    · cases h
      exact ⟨hs, effect_setDrain (List.nil_sublist _)⟩
    · exact absurd h.symm (Option.some_ne_none _)
  | dequeueMessages =>
    have hdrain : s.drain = .dequeueing := by
      simp only [step] at h
      split at h
      · assumption
      · exact absurd h.symm (Option.some_ne_none _)
    exact effect_dequeueMessages hdrain hs h
  | isConnected up =>
    simp only [step] at h
    split at h
    · rename_i m rest hdrain
      cases h
      refine ⟨hs, effect_setDrain ?_⟩
      rw [hdrain]
      cases up with
      | true => exact List.Sublist.refl _
      | false => exact (List.nil_sublist rest).cons_cons m
    · exact absurd h.symm (Option.some_ne_none _)
  | publish outcome arrived =>
    simp only [step] at h
    split at h
    · rename_i m rest hdrain
      cases h
      refine ⟨?_, effect_afterPublish hdrain⟩
      cases outcome <;> exact hs
    · exact absurd h.symm (Option.some_ne_none _)
  | enqueueMessage =>
    simp only [step] at h
    split at h
    · rename_i m hdrain
      cases h
      exact effect_enqueueMessage hdrain hs hok
    · exact absurd h.symm (Option.some_ne_none _)
  | restart =>
    cases h
    exact ⟨hs, effect_setDrain (List.nil_sublist _)⟩

/-! ### The invariant -/

/-- The numbers of some messages. -/
abbrev numbers (l : List Numbered) : List ℕ := l.map Numbered.number

/-- The numbers are those of the stores, and the messages that have not been delivered wait in the
order of the stores, behind those that have. -/
structure OrderInv (s : State) : Prop where
  /-- The keys of the bucket come from its counter. -/
  keys : s.queue.KeysIssued
  /-- A message keeps the number under which it was stored. -/
  stored : ∀ m ∈ s.delivered ++ s.pending, s.stored[m.number]? = some m.msg
  /-- The order of the first deliveries. -/
  ordered : Ordered (numbers s.delivered) (numbers s.pending)

theorem Starting.orderInv (h : Starting s) : OrderInv s := by
  have hpending : s.pending = [] := by
    rw [State.pending, h.drain, waiting_eq_nil h.messages]
    rfl
  refine ⟨h.keys, ?_, ?_⟩
  · rw [h.delivered, hpending]
    exact fun _ hm => absurd hm List.not_mem_nil
  · rw [h.delivered, hpending]
    exact ⟨fun _ hm => absurd hm List.not_mem_nil, fun _ hm => absurd hm List.not_mem_nil, .nil⟩

/-- The numbers of the messages are below the number of the next message. -/
theorem OrderInv.number_lt (hs : OrderInv s) {l : List Numbered}
    (hl : l ⊆ s.delivered ++ s.pending) : ∀ n ∈ numbers l, n < s.stored.length := by
  intro n hn
  obtain ⟨m, hm, rfl⟩ := List.mem_map.mp hn
  exact (List.getElem?_eq_some_iff.mp (hs.stored m (hl hm))).1

/-- Messages keep the numbers under which they were stored. -/
theorem OrderInv.stored_of_effect (hs : OrderInv s) (h : Effect s t) :
    ∀ m ∈ t.delivered ++ t.pending, t.stored[m.number]? = some m.msg := by
  intro m hm
  cases h with
  | forgets hstored hdelivered hpending =>
    rw [hdelivered] at hm
    rw [hstored]
    exact hs.stored m (((List.Sublist.refl _).append hpending).subset hm)
  | storesLast msg hstored hdelivered hpending =>
    rw [hdelivered, hpending, ← List.append_assoc] at hm
    rw [hstored]
    rcases List.mem_append.mp hm with hm | hm
    · have hold := hs.stored m hm
      rw [List.getElem?_append_left (List.getElem?_eq_some_iff.mp hold).1]
      exact hold
    · rw [List.mem_singleton.mp hm]
      exact List.getElem?_concat_length ..
  | delivers m' rest hfront hstored hdelivered hpending =>
    rw [hdelivered, List.append_assoc] at hm
    rw [hstored]
    refine hs.stored m ?_
    rcases List.mem_append.mp hm with hm | hm
    · exact List.mem_append_left _ hm
    · refine List.mem_append_right _ ?_
      rcases List.mem_append.mp hm with hm | hm
      · rw [List.mem_singleton.mp hm, hfront]
        exact List.mem_cons_self
      · exact hpending.subset hm
  | putsBack m' hfront halone hstored hdelivered hpending =>
    rw [hdelivered, hpending] at hm
    rw [hstored]
    refine hs.stored m ?_
    rw [hfront]
    exact (List.Perm.append_left _ (List.perm_append_singleton _ _)).subset hm

/-- The order of the first deliveries is kept: these are the operations of a sender. -/
theorem OrderInv.ordered_of_effect (hs : OrderInv s) (h : Effect s t) :
    Ordered (numbers t.delivered) (numbers t.pending) := by
  cases h with
  | forgets hstored hdelivered hpending =>
    rw [hdelivered]
    exact hs.ordered.sublist (hpending.map _)
  | storesLast msg hstored hdelivered hpending =>
    rw [hdelivered, hpending, numbers, numbers, List.map_append]
    exact hs.ordered.store (hs.number_lt (List.subset_append_left _ _))
      (hs.number_lt (List.subset_append_right _ _))
  | delivers m rest hfront hstored hdelivered hpending =>
    have hordered := hs.ordered
    rw [hfront] at hordered hpending
    rw [hdelivered, numbers, List.map_append]
    exact hordered.deliver.sublist (hpending.map _)
  | putsBack m hfront halone hstored hdelivered hpending =>
    have hordered := hs.ordered
    rw [hfront] at hordered
    rw [hdelivered, hpending]
    rcases halone with hmem | hwaiting
    · rw [numbers, numbers, List.map_append]
      exact (hordered.sublist (List.sublist_cons_self _ _)).putBack hmem
    · rw [hwaiting] at hordered ⊢
      exact hordered

/-- The invariant is kept by every step that meets the condition. -/
theorem OrderInv.step (hs : OrderInv s) (hok : PutsBackAlone s a)
    (h : DrainOrder.step s a = some t) : OrderInv t := by
  obtain ⟨hkeys, heffect⟩ := step_cases hs.keys hok h
  exact ⟨hkeys, hs.stored_of_effect heffect, hs.ordered_of_effect heffect⟩

/-- The invariant along a run. -/
theorem orderInv_of_reaches {s₀ s : State} (h₀ : Starting s₀)
    (h : Reaches step PutsBackAlone s₀ s) : OrderInv s :=
  h.invariant OrderInv (fun hu hok hstep => hu.step hok hstep) h₀.orderInv

/-- **Drains deliver in the order of the stores.** Along every run of stores and drains, whatever
publishes fail, in which a message that has not reached the broker is put back only into a queue
without readable messages: of any two messages that drains have delivered, the one that
`publishWithQueue` stored first was delivered first. -/
theorem first_deliveries_in_order {s₀ s : State} (h₀ : Starting s₀)
    (h : Reaches step PutsBackAlone s₀ s) : FirstsInOrder (numbers s.delivered) := by
  have hs : OrderInv s := orderInv_of_reaches h₀ h
  exact hs.ordered.firsts

/-- The number of a message that is delivered is its place among the messages stored. -/
theorem stored_of_delivered {s₀ s : State} (h₀ : Starting s₀)
    (h : Reaches step PutsBackAlone s₀ s) {m : Numbered} (hm : m ∈ s.delivered) :
    s.stored[m.number]? = some m.msg := by
  have hs : OrderInv s := orderInv_of_reaches h₀ h
  exact hs.stored m (List.mem_append_left _ hm)

/-! ### A backlog of eleven messages -/

namespace Backlog

/-- A fresh database. -/
def fresh : State where
  queue := .empty
  number := fun _ => 0
  drain := .idle
  stored := []
  delivered := []

theorem starting_fresh : Starting fresh := ⟨OfflineQueue.keysIssued_empty, rfl, rfl, rfl, rfl⟩

/-- Command results that are stored while the client is not connected. -/
def offline (count : ℕ) : List Action :=
  (List.range count).map fun i => .publishWithQueue "edgeguardian/device/d/command/result"
    (some [UInt8.ofNat i]) false .error i

/-- A drain publishes a message of its batch. -/
def publishes (count : ℕ) : List Action :=
  (List.replicate count [.isConnected true, .publish .success true]).flatten

end Backlog

open Backlog in
/-- A drain whose last publish arrives but times out, so that the message is delivered twice. -/
theorem first_deliveries_in_order_eleven :
    ∃ s, (Starting fresh ∧ Reaches step PutsBackAlone fresh s ∧
        numbers s.delivered = [0, 1, 2, 3, 4, 5, 6, 7, 8, 9, 10, 10]) ∧
      FirstsInOrder (numbers s.delivered) := by
  obtain ⟨s, hreach, hdelivered⟩ :
      ∃ s, Reaches step PutsBackAlone fresh s ∧
        numbers s.delivered = [0, 1, 2, 3, 4, 5, 6, 7, 8, 9, 10, 10] :=
    exists_reaches_of_execBy
      (offline 11 ++ Action.drainOfflineQueue :: Action.dequeueMessages :: publishes 10 ++
        [Action.dequeueMessages, .isConnected true, .publish .timeout true, .enqueueMessage,
          .drainOfflineQueue, .dequeueMessages] ++ publishes 1 ++ [Action.dequeueMessages])
      (by decide +kernel)
  exact ⟨s, ⟨starting_fresh, hreach, hdelivered⟩, first_deliveries_in_order starting_fresh hreach⟩

open Backlog in
/-- Eleven messages wait. A drain takes ten of them and finds the client disconnected at the first,
which it puts back behind the eleventh. The next drain delivers the eleventh message first. -/
theorem put_back_overtaken :
    ∃ s, Reachable step fresh s ∧ numbers s.delivered = [10, 0] ∧
      ¬ FirstsInOrder (numbers s.delivered) :=
  exists_reaches_of_execBy
    (offline 11 ++ [Action.drainOfflineQueue, .dequeueMessages, .isConnected false,
      .enqueueMessage, .drainOfflineQueue, .dequeueMessages] ++ publishes 2 ++
        [Action.dequeueMessages])
    (by decide +kernel)

end EdgeGuardian.Agent.DrainOrder
