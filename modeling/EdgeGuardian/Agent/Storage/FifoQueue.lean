import EdgeGuardian.Agent.Storage.OfflineQueue
import EdgeGuardian.Lib.KeyedPass

/-!
# The offline queue is a FIFO list

The abstract queue is a list of messages in the order in which they were queued: an enqueue adds at
its end, a dequeue takes from its beginning. The bucket refines it, also where values that do not
unmarshal stand between the messages. Such a value takes the place of the message under its key, if
there is one, or stands alone under a key that has been given back or not been handed out yet; it is
deleted when a dequeue walks over it, or overwritten when the sequence counter gets there.

The sequence counter of a bucket outlives its entries, so that a run may begin with any number. It
does not wrap around: `NextSequence` is increasing.

Source: `agent/internal/storage/store.go`, lines 93–155.

## Main definitions

* `OfflineQueue.Op`, `OfflineQueue.run`: sequences of calls, and of damage to the bucket.
* `Fifo`, `Fifo.run`: the abstract queue.
* `OfflineQueue.Represents`: the bucket stands for an abstract queue.
* `OfflineQueue.Dequeues`: what a dequeue returns and removes.

## Main results

* `OfflineQueue.Represents.apply`: one call keeps the relation, and returns what the abstract queue
  returns.
* `OfflineQueue.refines_fifo`: so does every sequence of calls.
-/

namespace EdgeGuardian.Agent

namespace OfflineQueue

/-- A call, or a value that does not unmarshal, placed under the key of a sequence number. -/
inductive Op
  | enqueue (msg : QueuedMessage)
  | dequeue (limit : ℕ)
  | corrupt (seq : ℕ) (raw : Bytes)
deriving DecidableEq, Repr

/-- The call takes a sequence number. -/
def Op.isEnqueue : Op → Bool
  | enqueue _ => true
  | _ => false

/-- A value that does not unmarshal is placed in the bucket. -/
def corruptEntry (q : OfflineQueue) (seq : ℕ) (raw : Bytes) : OfflineQueue :=
  { q with bucket := q.bucket.put (queueKey seq) (.unreadable raw) }

/-- What a call returns, and the bucket after it. -/
def apply : Op → OfflineQueue → List QueuedMessage × OfflineQueue
  | .enqueue msg, q => ([], q.enqueueMessage msg)
  | .dequeue limit, q => q.dequeueMessages limit
  | .corrupt seq raw, q => ([], q.corruptEntry seq raw)

/-- What some calls return, and the bucket after them. -/
def run : List Op → OfflineQueue → List (List QueuedMessage) × OfflineQueue := KeyedPass.run apply

/-- An empty bucket that has handed out some sequence numbers. -/
def fresh (first : ℕ) : OfflineQueue where
  sequence := first
  bucket := OrderedMap.empty

end OfflineQueue

/-- A FIFO list: the messages in the order in which they were queued, each with its number, and the
last number. -/
structure Fifo where
  last : ℕ
  items : List (ℕ × QueuedMessage)
deriving DecidableEq, Repr

namespace Fifo

open OfflineQueue (Op)

/-- What a call returns, and the list after it. A message whose value is damaged is lost. -/
def apply : Op → Fifo → List QueuedMessage × Fifo
  | .enqueue msg, f => ([], ⟨f.last + 1, f.items ++ [(f.last + 1, msg)]⟩)
  | .dequeue limit, f => ((f.items.take limit).map Prod.snd, { f with items := f.items.drop limit })
  | .corrupt seq _, f => ([], { f with items := f.items.filter fun x => x.1 ≠ seq })

/-- What some calls return, and the list after them. -/
def run : List Op → Fifo → List (List QueuedMessage) × Fifo := KeyedPass.run apply

end Fifo

namespace OfflineQueue

/-! ### What a dequeue walks over -/

/-- The dequeue splits the entries into those that it walks over and the rest. -/
structure Walk (es : List (List ℕ × StoredValue)) (limit : ℕ)
    (pre post : List (List ℕ × StoredValue)) : Prop where
  split : es = pre ++ post
  keys : (dequeueLoop es limit).2 = pre.map Prod.fst
  returned : (dequeueLoop es limit).1 = readable pre
  atMost : (readable pre).length ≤ limit
  /-- It stops early only at the end. -/
  stops : (readable pre).length < limit → post = []
  /-- It does not walk over an unreadable entry behind the last message that it returns, unless it
  comes to the end. -/
  tight : post ≠ [] → ∀ e ∈ pre.getLast?, e.2.unmarshal.isSome

theorem exists_walk (es : List (List ℕ × StoredValue)) (limit : ℕ) :
    ∃ pre post, Walk es limit pre post := by
  induction es generalizing limit with
  | nil => exact ⟨[], [], rfl, rfl, rfl, Nat.zero_le _, fun _ => rfl, fun h => absurd rfl h⟩
  | cons e es ih =>
    obtain ⟨k, v⟩ := e
    cases limit with
    | zero =>
      exact ⟨[], (k, v) :: es, rfl, rfl, rfl, le_rfl, fun h => absurd h (Nat.lt_irrefl 0),
        fun _ e he => by simp at he⟩
    | succ limit =>
      cases hv : v.unmarshal with
      | none =>
        obtain ⟨pre, post, hwalk⟩ := ih (limit + 1)
        have hread : readable ((k, v) :: pre) = readable pre := List.filterMap_cons_none hv
        refine ⟨(k, v) :: pre, post, by rw [hwalk.split, List.cons_append], ?_, ?_, ?_, ?_, ?_⟩
        · simp only [dequeueLoop, hv, hwalk.keys, List.map_cons]
        · simp only [dequeueLoop, hv, hwalk.returned, hread]
        · rw [hread]
          exact hwalk.atMost
        · rw [hread]
          exact hwalk.stops
        · intro hpost
          rcases pre with _ | ⟨e, pre⟩
          · exact absurd (hwalk.stops (Nat.succ_pos limit)) hpost
          · rw [List.getLast?_cons_cons]
            exact hwalk.tight hpost
      | some msg =>
        obtain ⟨pre, post, hwalk⟩ := ih limit
        have hread : readable ((k, v) :: pre) = msg :: readable pre := List.filterMap_cons_some hv
        refine ⟨(k, v) :: pre, post, by rw [hwalk.split, List.cons_append], ?_, ?_, ?_, ?_, ?_⟩
        · simp only [dequeueLoop, hv, hwalk.keys, List.map_cons]
        · simp only [dequeueLoop, hv, hwalk.returned, hread]
        · rw [hread]
          exact Nat.succ_le_succ hwalk.atMost
        · rw [hread]
          exact fun h => hwalk.stops (Nat.lt_of_succ_lt_succ h)
        · intro hpost
          rcases pre with _ | ⟨e, pre⟩
          · simp [hv]
          · rw [List.getLast?_cons_cons]
            exact hwalk.tight hpost

/-- What is returned is as much as there is, up to the limit. -/
theorem Walk.readable_eq_take {es pre post : List (List ℕ × StoredValue)} {limit : ℕ}
    (h : Walk es limit pre post) : readable pre = (readable es).take limit := by
  have hsplit : readable es = readable pre ++ readable post := by
    rw [h.split, readable, List.filterMap_append]
    rfl
  rw [hsplit]
  rcases h.atMost.lt_or_eq with hlt | heq
  · have hnone : readable post = [] := by rw [h.stops hlt]; rfl
    rw [hnone, List.append_nil, List.take_of_length_le hlt.le]
  · rw [← heq, List.take_left]

/-- What a dequeue returns and removes: the first readable messages, at most as many as the limit,
and the unreadable entries before them; the rest stays as it is, and if fewer are returned, no
readable message remains. -/
def Dequeues (q : OfflineQueue) (limit : ℕ) : Prop :=
  ∃ pre post, q.bucket.entries = pre ++ post ∧
    (q.dequeueMessages limit).2.bucket.entries = post ∧
    (q.dequeueMessages limit).1 = readable pre ∧
    (q.dequeueMessages limit).1 = q.messages.take limit ∧
    ((q.dequeueMessages limit).1.length < limit → (q.dequeueMessages limit).2.messages = []) ∧
    (post ≠ [] → ∀ e ∈ pre.getLast?, e.2.unmarshal.isSome)

theorem entries_dequeueMessages {q : OfflineQueue} {limit : ℕ}
    {pre post : List (List ℕ × StoredValue)} (h : Walk q.bucket.entries limit pre post) :
    (q.dequeueMessages limit).2.bucket.entries = post := by
  rw [dequeueMessages]
  dsimp only
  rw [h.keys, OrderedMap.entries_erase_take h.split]

theorem dequeues (q : OfflineQueue) (limit : ℕ) : Dequeues q limit := by
  obtain ⟨pre, post, hwalk⟩ := exists_walk q.bucket.entries limit
  have hpost := entries_dequeueMessages hwalk
  have hreturned : (q.dequeueMessages limit).1 = readable pre := hwalk.returned
  refine ⟨pre, post, hwalk.split, hpost, hreturned, hreturned.trans hwalk.readable_eq_take, ?_,
    hwalk.tight⟩
  intro hfewer
  rw [hreturned] at hfewer
  rw [messages, hpost, hwalk.stops hfewer]
  rfl

/-! ### The relation -/

/-- The message of an entry, with its key. -/
def readEntry (e : List ℕ × StoredValue) : Option (List ℕ × QueuedMessage) :=
  e.2.unmarshal.map fun msg => (e.1, msg)

/-- The bucket stands for a FIFO list: the readable messages are those of the list, each under the
key of its number. -/
structure Represents (q : OfflineQueue) (f : Fifo) : Prop where
  sequence : q.sequence = f.last
  items : q.bucket.entries.filterMap readEntry = f.items.map fun x => (queueKey x.1, x.2)
  issued : ∀ x ∈ f.items, x.1 ≤ f.last

theorem represents_fresh (first : ℕ) : Represents (fresh first) ⟨first, []⟩ :=
  ⟨rfl, rfl, fun _ h => absurd h List.not_mem_nil⟩

theorem readable_eq_map (es : List (List ℕ × StoredValue)) :
    readable es = (es.filterMap readEntry).map Prod.snd := by
  rw [readable, List.map_filterMap]
  refine List.filterMap_congr fun e _ => ?_
  rw [readEntry, Option.map_map]
  exact (Option.map_id' ..).symm

section Represents

variable {q : OfflineQueue} {f : Fifo}

theorem Represents.messages (h : Represents q f) : q.messages = f.items.map Prod.snd := by
  rw [OfflineQueue.messages, readable_eq_map, h.items, List.map_map]
  rfl

/-- An enqueue adds its message at the end. -/
theorem Represents.enqueue (h : Represents q f) (hincreases : f.last + 1 < 2 ^ 64)
    (msg : QueuedMessage) :
    Represents (q.enqueueMessage msg) ⟨f.last + 1, f.items ++ [(f.last + 1, msg)]⟩ := by
  have hnext : q.nextSequence = f.last + 1 := by
    rw [nextSequence_eq (by rw [h.sequence]; exact hincreases), h.sequence]
  refine ⟨hnext, ?_, fun x hx => ?_⟩
  · change (q.bucket.put (queueKey q.nextSequence) (.message msg)).entries.filterMap readEntry = _
    rw [hnext, OrderedMap.filterMap_put_of_some
      (show readEntry (queueKey (f.last + 1), .message msg) = some (queueKey (f.last + 1), msg)
        from rfl), h.items, List.map_append]
    · rfl
    · intro e he hsome
      obtain ⟨w, hw⟩ := Option.isSome_iff_exists.mp hsome
      have hmem : w ∈ f.items.map fun x => (queueKey x.1, x.2) := by
        rw [← h.items]
        exact List.mem_filterMap.mpr ⟨e, he, hw⟩
      obtain ⟨x, hx, rfl⟩ := List.mem_map.mp hmem
      obtain ⟨msg', -, heq⟩ := Option.map_eq_some_iff.mp hw
      rw [Prod.mk.injEq] at heq
      rw [heq.1]
      exact queueKey_lt (Nat.lt_succ_of_le (h.issued x hx)) (hincreases.trans (by norm_num))
  · rcases List.mem_append.mp hx with hold | hnew
    · exact (h.issued x hold).trans (Nat.le_succ _)
    · rw [List.mem_singleton.mp hnew]

/-- A dequeue takes from the beginning. -/
theorem Represents.dequeue (h : Represents q f) (limit : ℕ) :
    (q.dequeueMessages limit).1 = (f.items.take limit).map Prod.snd ∧
      Represents (q.dequeueMessages limit).2 { f with items := f.items.drop limit } := by
  obtain ⟨pre, post, hwalk⟩ := exists_walk q.bucket.entries limit
  have hreturned : (q.dequeueMessages limit).1 = readable pre := hwalk.returned
  have htake : readable pre = (f.items.take limit).map Prod.snd := by
    rw [hwalk.readable_eq_take, List.map_take]
    exact congrArg _ h.messages
  refine ⟨hreturned.trans htake, h.sequence, ?_, fun x hx => h.issued x (List.mem_of_mem_drop hx)⟩
  have hsplit := h.items
  rw [hwalk.split, List.filterMap_append, ← List.take_append_drop limit f.items,
    List.map_append] at hsplit
  have hlength : (pre.filterMap readEntry).length =
      ((f.items.take limit).map fun x => (queueKey x.1, x.2)).length := by
    have hsame := congrArg List.length htake
    rw [readable_eq_map, List.length_map, List.length_map] at hsame
    rw [hsame, List.length_map]
  rw [entries_dequeueMessages hwalk]
  exact (List.append_inj hsplit hlength).2

/-- A damaged value takes its message away. -/
theorem Represents.corrupt (h : Represents q f) (seq : ℕ) (raw : Bytes) :
    Represents (q.corruptEntry seq raw) { f with items := f.items.filter fun x => x.1 ≠ seq } := by
  refine ⟨h.sequence, ?_, fun x hx => h.issued x (List.mem_of_mem_filter hx)⟩
  have hitems : ((f.items.filter fun x => x.1 ≠ seq).map fun x => (queueKey x.1, x.2)) =
      (q.bucket.entries.filterMap readEntry).filter fun w => w.1 ≠ queueKey seq := by
    rw [h.items, List.filter_map]
    refine congrArg _ (List.filter_congr fun x _ => ?_)
    simp [queueKey_injective.eq_iff]
  change (q.bucket.put (queueKey seq) (.unreadable raw)).entries.filterMap readEntry = _
  rw [hitems, OrderedMap.filterMap_put_of_none rfl, List.filterMap_filter, List.filter_filterMap]
  refine List.filterMap_congr fun e _ => ?_
  rcases hv : e.2.unmarshal with _ | msg
  · simp [readEntry, hv]
  · by_cases hk : e.1 = queueKey seq
    · simp [readEntry, hv, hk, Option.filter]
    · simp [readEntry, hv, hk, Option.filter]

/-- **One call.** It returns what the FIFO list returns, and keeps the relation. -/
theorem Represents.apply (h : Represents q f) (op : Op)
    (hincreases : op.isEnqueue → f.last + 1 < 2 ^ 64) :
    (OfflineQueue.apply op q).1 = (Fifo.apply op f).1 ∧
      Represents (OfflineQueue.apply op q).2 (Fifo.apply op f).2 := by
  cases op with
  | enqueue msg => exact ⟨rfl, h.enqueue (hincreases rfl) msg⟩
  | dequeue limit => exact h.dequeue limit
  | corrupt seq raw => exact ⟨rfl, h.corrupt seq raw⟩

end Represents

/-! ### Sequences of calls -/

/-- What holds of a sequence of calls on an empty bucket. -/
structure RefinesFifo (first : ℕ) (ops : List Op) : Prop where
  /-- The calls return what they return on a FIFO list. -/
  outputs : (run ops (fresh first)).1 = (Fifo.run ops ⟨first, []⟩).1
  /-- The bucket stands for the FIFO list after them. -/
  represents : Represents (run ops (fresh first)).2 (Fifo.run ops ⟨first, []⟩).2
  /-- A dequeue after them returns the oldest readable messages up to its limit, and removes these
  and the unreadable entries that it passes. -/
  dequeues : ∀ limit, Dequeues (run ops (fresh first)).2 limit

theorem Represents.run {q : OfflineQueue} {f : Fifo} (h : Represents q f) {ops : List Op}
    (hincreases : f.last + ops.countP Op.isEnqueue < 2 ^ 64) :
    (run ops q).1 = (Fifo.run ops f).1 ∧
      Represents (OfflineQueue.run ops q).2 (Fifo.run ops f).2 := by
  induction ops generalizing q f with
  | nil => exact ⟨rfl, h⟩
  | cons op ops ih =>
    rw [List.countP_cons] at hincreases
    have hfits : op.isEnqueue → f.last + 1 < 2 ^ 64 := by
      intro hop
      rw [if_pos hop] at hincreases
      omega
    have hrest : (Fifo.apply op f).2.last + ops.countP Op.isEnqueue < 2 ^ 64 := by
      cases op with
      | enqueue msg =>
        change f.last + (ops.countP Op.isEnqueue + 1) < 2 ^ 64 at hincreases
        change f.last + 1 + ops.countP Op.isEnqueue < 2 ^ 64
        omega
      | dequeue limit => exact hincreases
      | corrupt seq raw => exact hincreases
    obtain ⟨hfirst, hnext⟩ := h.apply op hfits
    obtain ⟨houtputs, hlast⟩ := ih hnext hrest
    exact ⟨congrArg₂ List.cons hfirst houtputs, hlast⟩

/-- **The queue refines a FIFO list**, for every sequence of calls on an empty bucket and any
damaged values in it, while the sequence numbers increase. -/
theorem refines_fifo (first : ℕ) (ops : List Op)
    (hincreases : first + ops.countP Op.isEnqueue < 2 ^ 64) : RefinesFifo first ops := by
  obtain ⟨houtputs, hrepresents⟩ := (represents_fresh first).run hincreases
  exact ⟨houtputs, hrepresents, fun limit => OfflineQueue.dequeues _ limit⟩

/-- Three messages across a change in the number of digits, one of them damaged, and a damaged value
ahead of the counter. -/
theorem refines_fifo_of_damaged :
    98 + [Op.enqueue ⟨"a", [], 1⟩, .enqueue ⟨"b", [], 2⟩, .corrupt 100 [0], .corrupt 102 [0],
        .enqueue ⟨"c", [], 3⟩, .enqueue ⟨"d", [], 4⟩, .dequeue 2].countP Op.isEnqueue < 2 ^ 64 ∧
      RefinesFifo 98 [.enqueue ⟨"a", [], 1⟩, .enqueue ⟨"b", [], 2⟩, .corrupt 100 [0],
        .corrupt 102 [0], .enqueue ⟨"c", [], 3⟩, .enqueue ⟨"d", [], 4⟩, .dequeue 2] :=
  ⟨by decide, refines_fifo 98 _ (by decide)⟩

end OfflineQueue

end EdgeGuardian.Agent
