import EdgeGuardian.Lib.OrderedMap
import Mathlib.Data.Nat.Digits.Lemmas

/-!
# The offline queue of the agent's BoltDB store

The bucket `offline_queue` maps the key `fmt.Sprintf("%020d", seq)` of a bucket sequence number to
the JSON of a `QueuedMessage`. A cursor visits the keys in byte order. `DequeueMessages` walks the
first entries, skips those that do not unmarshal, and deletes every key it walked over.

Keys are the lists of their decimal digits: the digits `0` to `9` are bytes in increasing order, so
byte order is the lexicographic order of the digits. A stored value is either the JSON of a message
or bytes that do not unmarshal. Every Bolt transaction is one step and succeeds.

Source: `agent/internal/storage/store.go`, lines 93–155.

## Main definitions

* `OfflineQueue`: the bucket with its sequence counter.
* `OfflineQueue.enqueueMessage`, `OfflineQueue.dequeueMessages`.
* `OfflineQueue.messages`: the readable messages, oldest key first.

## Main results

* `queueKey_lt`: the keys are in the order of the sequence counter.
* `OfflineQueue.messages_enqueueMessage`: an enqueue adds exactly its message.
* `OfflineQueue.messages_dequeueMessages`: a dequeue returns the first readable messages and
  leaves the others.
-/

namespace EdgeGuardian.Agent

/-- A Go `[]byte`. -/
abbrev Bytes := List UInt8

/-- `storage.QueuedMessage`. -/
structure QueuedMessage where
  /-- The MQTT topic. -/
  topic : String
  /-- The JSON payload. -/
  payload : Bytes
  /-- The time of queueing, in nanoseconds. -/
  queuedAt : ℕ
deriving DecidableEq, Repr

/-- A value of the bucket: the JSON of a message, or bytes that `json.Unmarshal` refuses. -/
inductive StoredValue
  | message (m : QueuedMessage)
  | unreadable (raw : Bytes)
deriving DecidableEq, Repr

/-- `json.Unmarshal` into a `QueuedMessage`. -/
def StoredValue.unmarshal : StoredValue → Option QueuedMessage
  | message m => some m
  | unreadable _ => none

/-- The digits of `fmt.Sprintf("%020d", seq)`. -/
def queueKey (seq : ℕ) : List ℕ := (Nat.digits 10 seq).reverse.leftpad 20 0

/-- Padding loses nothing: the number is read back from the digits of its key. -/
theorem ofDigits_queueKey (seq : ℕ) : Nat.ofDigits 10 (queueKey seq).reverse = seq := by
  rw [queueKey, List.leftpad, List.reverse_append, List.reverse_reverse, List.reverse_replicate,
    Nat.ofDigits_append_replicate_zero, Nat.ofDigits_digits]

theorem queueKey_injective : Function.Injective queueKey := fun m n h => by
  rw [← ofDigits_queueKey m, ← ofDigits_queueKey n, h]

/-- Of two lists of as many digits, the lexicographically smaller one writes the smaller number. -/
theorem ofDigits_reverse_lt {a b : List ℕ} (hlength : a.length = b.length)
    (ha : ∀ d ∈ a, d < 10) (h : a < b) :
    Nat.ofDigits 10 a.reverse < Nat.ofDigits 10 b.reverse := by
  induction a generalizing b with
  | nil =>
    rw [List.length_nil, eq_comm, List.length_eq_zero_iff] at hlength
    exact absurd (hlength ▸ h) (lt_irrefl _)
  | cons x a ih =>
    cases b with
    | nil => exact absurd hlength (Nat.succ_ne_zero _)
    | cons y b =>
      have hlength' : a.length = b.length := Nat.succ.inj hlength
      have hvalue : Nat.ofDigits 10 a.reverse < 10 ^ a.length := by
        rw [← List.length_reverse]
        exact Nat.ofDigits_lt_base_pow_length (by decide) fun d hd =>
          ha d (List.mem_cons_of_mem x (List.mem_reverse.mp hd))
      simp only [List.reverse_cons, Nat.ofDigits_append, List.length_reverse, ← hlength',
        Nat.ofDigits_singleton]
      rcases List.cons_lt_cons_iff.mp h with hlt | ⟨rfl, hlt⟩
      · calc Nat.ofDigits 10 a.reverse + 10 ^ a.length * x
            < 10 ^ a.length + 10 ^ a.length * x := by omega
          _ = 10 ^ a.length * (x + 1) := by ring
          _ ≤ 10 ^ a.length * y := Nat.mul_le_mul_left _ hlt
          _ ≤ Nat.ofDigits 10 b.reverse + 10 ^ a.length * y := Nat.le_add_left _ _
      · have hrest := ih hlength' (fun d hd => ha d (List.mem_cons_of_mem x hd)) hlt
        omega

/-- A number below `10 ^ 20` is written with twenty digits. -/
theorem length_queueKey {seq : ℕ} (h : seq < 10 ^ 20) : (queueKey seq).length = 20 := by
  have hdigits : (Nat.digits 10 seq).length ≤ 20 :=
    (Nat.digits_length_le_iff (by decide) seq).mpr h
  rw [queueKey, List.length_leftpad, List.length_reverse]
  exact max_eq_left hdigits

theorem lt_ten_of_mem_queueKey {seq d : ℕ} (h : d ∈ queueKey seq) : d < 10 := by
  rcases List.mem_append.mp h with h | h
  · rw [List.eq_of_mem_replicate h]
    decide
  · exact Nat.digits_lt_base (by decide) (List.mem_reverse.mp h)

/-- **The keys are in the order of the counter.** Zero padding makes byte order the order of the
sequence numbers, for all numbers of at most twenty digits. -/
theorem queueKey_lt {m n : ℕ} (h : m < n) (hn : n < 10 ^ 20) : queueKey m < queueKey n := by
  rcases lt_trichotomy (queueKey m) (queueKey n) with hlt | heq | hgt
  · exact hlt
  · exact absurd (queueKey_injective heq) h.ne
  · have hlength : (queueKey n).length = (queueKey m).length := by
      rw [length_queueKey hn, length_queueKey (h.trans hn)]
    have hlt := ofDigits_reverse_lt hlength (fun _ hd => lt_ten_of_mem_queueKey hd) hgt
    rw [ofDigits_queueKey, ofDigits_queueKey] at hlt
    exact absurd hlt h.not_gt

/-- The bucket `offline_queue` and its sequence counter. -/
structure OfflineQueue where
  /-- The last sequence number handed out, a `uint64`. -/
  sequence : ℕ
  /-- The stored values in key order. -/
  bucket : OrderedMap (List ℕ) StoredValue

namespace OfflineQueue

/-- The bucket after `Open` on a fresh database. -/
def empty : OfflineQueue where
  sequence := 0
  bucket := OrderedMap.empty

/-- `Bucket.NextSequence`: the counter is a `uint64`. -/
def nextSequence (q : OfflineQueue) : ℕ := (q.sequence + 1) % 2 ^ 64

/-- `Store.EnqueueMessage`. -/
def enqueueMessage (q : OfflineQueue) (msg : QueuedMessage) : OfflineQueue where
  sequence := q.nextSequence
  bucket := q.bucket.put (queueKey q.nextSequence) (.message msg)

/-- The loop of `DequeueMessages`: walk the cursor until `limit` messages are read, collecting the
messages and the keys to delete. Unreadable entries are skipped, and deleted, without counting. -/
def dequeueLoop : List (List ℕ × StoredValue) → ℕ → List QueuedMessage × List (List ℕ)
  | [], _ => ([], [])
  | _ :: _, 0 => ([], [])
  | (k, v) :: es, limit + 1 =>
    match v.unmarshal with
    | none =>
      let r := dequeueLoop es (limit + 1)
      (r.1, k :: r.2)
    | some msg =>
      let r := dequeueLoop es limit
      (msg :: r.1, k :: r.2)

/-- `Store.DequeueMessages`: the messages returned and the bucket after the transaction. -/
def dequeueMessages (q : OfflineQueue) (limit : ℕ) : List QueuedMessage × OfflineQueue :=
  let r := dequeueLoop q.bucket.entries limit
  (r.1, { q with bucket := q.bucket.erase r.2 })

/-- The readable messages of some entries. -/
def readable (es : List (List ℕ × StoredValue)) : List QueuedMessage :=
  es.filterMap fun e => e.2.unmarshal

/-- The messages in the bucket, oldest key first. -/
def messages (q : OfflineQueue) : List QueuedMessage := readable q.bucket.entries

/-! ### What a dequeue takes -/

/-- The loop walks over a first part of the entries: it deletes the keys of that part and returns
its readable messages. -/
theorem dequeueLoop_spec (es : List (List ℕ × StoredValue)) (limit : ℕ) :
    ∃ pre post, es = pre ++ post ∧ (dequeueLoop es limit).2 = pre.map Prod.fst ∧
      (dequeueLoop es limit).1 = readable pre := by
  induction es generalizing limit with
  | nil => exact ⟨[], [], rfl, rfl, rfl⟩
  | cons e es ih =>
    obtain ⟨k, v⟩ := e
    cases limit with
    | zero => exact ⟨[], (k, v) :: es, rfl, rfl, rfl⟩
    | succ limit =>
      cases hv : v.unmarshal with
      | none =>
        obtain ⟨pre, post, hes, hkeys, hmsgs⟩ := ih (limit + 1)
        refine ⟨(k, v) :: pre, post, by rw [hes, List.cons_append], ?_, ?_⟩
        · simp only [dequeueLoop, hv, hkeys, List.map_cons]
        · simp only [dequeueLoop, hv, hmsgs, readable, List.filterMap_cons]
      | some msg =>
        obtain ⟨pre, post, hes, hkeys, hmsgs⟩ := ih limit
        refine ⟨(k, v) :: pre, post, by rw [hes, List.cons_append], ?_, ?_⟩
        · simp only [dequeueLoop, hv, hkeys, List.map_cons]
        · simp only [dequeueLoop, hv, hmsgs, readable, List.filterMap_cons]

/-- A dequeue splits the readable messages: it returns a first part and leaves the rest. -/
theorem messages_dequeueMessages (q : OfflineQueue) (limit : ℕ) :
    q.messages = (q.dequeueMessages limit).1 ++ (q.dequeueMessages limit).2.messages := by
  obtain ⟨pre, post, hes, hkeys, hmsgs⟩ := dequeueLoop_spec q.bucket.entries limit
  have hpost : (q.bucket.erase (dequeueLoop q.bucket.entries limit).2).entries = post := by
    rw [hkeys, OrderedMap.entries_erase_take hes]
  simp only [dequeueMessages, messages, hpost, hmsgs]
  rw [hes, readable, List.filterMap_append]
  rfl

/-! ### What an enqueue adds -/

/-- Every key of the bucket was handed out by the sequence counter. -/
def KeysIssued (q : OfflineQueue) : Prop :=
  ∀ k ∈ q.bucket.keys, ∃ n ≤ q.sequence, k = queueKey n

theorem keysIssued_empty : KeysIssued empty := fun _ hk => absurd hk List.not_mem_nil

theorem nextSequence_eq {q : OfflineQueue} (h : q.sequence + 1 < 2 ^ 64) :
    q.nextSequence = q.sequence + 1 := Nat.mod_eq_of_lt h

theorem KeysIssued.enqueueMessage {q : OfflineQueue} (hq : q.KeysIssued)
    (h : q.sequence + 1 < 2 ^ 64) (msg : QueuedMessage) : (q.enqueueMessage msg).KeysIssued := by
  intro k hk
  change ∃ n ≤ q.nextSequence, k = queueKey n
  rw [nextSequence_eq h]
  rcases OrderedMap.mem_keys_put hk with rfl | hk
  · exact ⟨q.sequence + 1, le_rfl, by rw [nextSequence_eq h]⟩
  · obtain ⟨n, hn, rfl⟩ := hq k hk
    exact ⟨n, by omega, rfl⟩

theorem KeysIssued.dequeueMessages {q : OfflineQueue} (hq : q.KeysIssued) (limit : ℕ) :
    (q.dequeueMessages limit).2.KeysIssued :=
  fun k hk => hq k (OrderedMap.mem_keys_erase hk)

/-- The next key stands behind all keys of the bucket. -/
theorem KeysIssued.lt_queueKey {q : OfflineQueue} (hq : q.KeysIssued)
    (h : q.sequence + 1 < 2 ^ 64) : ∀ k ∈ q.bucket.keys, k < queueKey q.nextSequence := by
  intro k hk
  obtain ⟨n, hn, rfl⟩ := hq k hk
  rw [nextSequence_eq h]
  exact queueKey_lt (Nat.lt_succ_of_le hn) (h.trans (by norm_num))

/-- While the counter does not wrap around, an enqueue writes a fresh key, so it adds exactly its
message. -/
theorem messages_enqueueMessage {q : OfflineQueue} (hq : q.KeysIssued)
    (h : q.sequence + 1 < 2 ^ 64) (msg : QueuedMessage) :
    (q.enqueueMessage msg).messages.Perm (msg :: q.messages) := by
  have hfresh : queueKey q.nextSequence ∉ q.bucket.keys :=
    fun hmem => lt_irrefl _ (hq.lt_queueKey h _ hmem)
  exact (OrderedMap.entries_put_perm (.message msg) hfresh).filterMap fun e => e.2.unmarshal

end OfflineQueue

end EdgeGuardian.Agent
