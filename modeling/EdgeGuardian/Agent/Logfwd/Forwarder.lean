import EdgeGuardian.Lib.Newest
import EdgeGuardian.Lib.Transition

/-!
# The log forwarder of the agent

Any number of readers push log entries into a buffer with room for `maxSize` of them; an entry that
finds no room takes the place of the oldest. One goroutine flushes the buffer: it takes all entries
out of it under the lock, encodes and publishes them without the lock, and puts them back under the
lock if the publisher fails. A batch that cannot be encoded is dropped, since it could not be
encoded later either: there is an entry in it whose time is not one of RFC 3339.

Pushes come between the parts of a flush in any way. Every entry has the number of its push, so that
entries that look the same can be told apart; the forwarder does not know of it.

Source: `agent/internal/logfwd/forwarder.go`.

## Main definitions

* `Forwarder.push`, `Forwarder.putBack`: the buffer.
* `Forwarder.State`, `Forwarder.Action`, `Forwarder.step`: pushes and flushes.
* `Forwarder.State.since`: the entries that were pushed after the last entry of some batches.
* `Forwarder.HoldsNewest`: the buffer holds the newest entries, and what has been published is in
  order.

## Main results

* `Forwarder.Inv.step`: the invariant of the buffer, of the batch in flight and of the history.
* `Forwarder.holdsNewest_finished`: the buffer holds the newest entries since the last batch that
  was published or could not be encoded.
* `Forwarder.holdsNewest_of_encodable`: entries that can be encoded are dropped for newer ones only.
-/

namespace EdgeGuardian.Agent.Logfwd

open Transition

/-! ### Entries -/

/-- What `Time.MarshalJSON` looks at in a `time.Time`, and the rest of it. -/
structure Timestamp where
  year : ℤ
  /-- The hours of the offset of its zone from UTC. -/
  zoneHours : ℤ
  rest : ℕ
deriving DecidableEq, Repr

/-- `Entry`. -/
structure Entry where
  timestamp : Timestamp
  level : String
  /-- A string of Go is any sequence of bytes. -/
  message : List UInt8
  source : String
deriving DecidableEq, Repr

/-- `json.Marshal` succeeds: the time can be written as RFC 3339 has it. The texts are always
written. -/
def Entry.encodable (e : Entry) : Bool :=
  0 ≤ e.timestamp.year ∧ e.timestamp.year ≤ 9999 ∧ e.timestamp.zoneHours.natAbs < 24

namespace Forwarder

/-! ### The buffer -/

section Buffer

variable {α : Type*}

/-- `Push`, without the lock; `none` where the slice is out of range. -/
def push (maxSize : ℕ) (buffer : List α) (entry : α) : Option (List α) :=
  if maxSize ≤ buffer.length then
    match buffer with
    | [] => none
    | _ :: newer => some (newer ++ [entry])
  else some (buffer ++ [entry])

/-- The last part of `flush`, for a batch that was not published. -/
def putBack (maxSize : ℕ) (batch buffer : List α) : List α :=
  let remaining := maxSize - buffer.length
  if 0 < remaining then
    (if remaining < batch.length then batch.drop (batch.length - remaining) else batch) ++ buffer
  else buffer

variable {maxSize : ℕ}

theorem push_of_full {buffer : List α} (h : maxSize ≤ buffer.length) (hne : buffer ≠ []) (x : α) :
    push maxSize buffer x = some (buffer.tail ++ [x]) := by
  obtain ⟨oldest, newer, rfl⟩ := List.exists_cons_of_ne_nil hne
  exact if_pos h

theorem push_of_room {buffer : List α} (h : buffer.length < maxSize) (x : α) :
    push maxSize buffer x = some (buffer ++ [x]) := by
  cases buffer <;> exact if_neg (Nat.not_le.mpr h)

theorem push_rtake (h : 0 < maxSize) (l : List α) (x : α) :
    push maxSize (l.rtake maxSize) x = some ((l ++ [x]).rtake maxSize) := by
  have hlast : [x].rtake maxSize = [x] := Newest.rtake_of_length_le h
  rw [Newest.rtake_append, hlast, List.length_singleton]
  by_cases hfull : maxSize ≤ (l.rtake maxSize).length
  · have hne : l.rtake maxSize ≠ [] := List.ne_nil_of_length_pos (h.trans_le hfull)
    have htail : l.rtake (maxSize - 1) = (l.rtake maxSize).tail := by
      rw [← Newest.rtake_rtake_of_le (Nat.sub_le maxSize 1), List.rtake, ← List.drop_one]
      rw [Newest.length_rtake] at hfull ⊢
      congr 1
      omega
    rw [push_of_full hfull hne, htail]
  · have hroom : l.length < maxSize := by
      rw [Newest.length_rtake] at hfull
      omega
    rw [push_of_room (Nat.not_le.mp hfull), Newest.rtake_of_length_le hroom.le,
      Newest.rtake_of_length_le (Nat.le_sub_one_of_lt hroom)]

theorem putBack_eq (batch buffer : List α) :
    putBack maxSize batch buffer = batch.rtake (maxSize - buffer.length) ++ buffer := by
  rw [putBack]
  by_cases hroom : 0 < maxSize - buffer.length
  · rw [if_pos hroom]
    split_ifs with htrim
    · rfl
    · rw [Newest.rtake_of_length_le (Nat.not_lt.mp htrim)]
  · rw [if_neg hroom, Nat.eq_zero_of_not_pos hroom, List.rtake_zero, List.nil_append]

/-- What is put back and what has been pushed meanwhile are the newest of both. -/
theorem putBack_rtake (l m : List α) :
    putBack maxSize (l.rtake maxSize) (m.rtake maxSize) = (l ++ m).rtake maxSize := by
  rw [putBack_eq, Newest.rtake_append, Newest.rtake_rtake_of_le (Nat.sub_le _ _),
    Newest.length_rtake]
  congr 2
  omega

end Buffer

/-! ### Pushes and flushes -/

/-- An entry with the number of its push. -/
structure Pushed where
  number : ℕ
  entry : Entry
deriving DecidableEq, Repr

/-- Where `flush` is, with the batch that it has taken. -/
inductive FlushPc
  | idle
  | taken (batch : List Pushed)
  | publishing (batch : List Pushed)
  /-- The publisher has failed. -/
  | failed (batch : List Pushed)
deriving DecidableEq, Repr

/-- How a batch ends that is not put back. -/
inductive Outcome
  | published
  /-- `json.Marshal` has failed. -/
  | refused
deriving DecidableEq, Repr

structure State where
  buffer : List Pushed
  flush : FlushPc
  /-- All entries that were pushed. -/
  pushed : List Pushed
  /-- The batches that were not put back. -/
  finished : List (List Pushed × Outcome)
deriving DecidableEq, Repr

/-- `NewForwarder`. -/
def State.initial : State where
  buffer := []
  flush := .idle
  pushed := []
  finished := []

inductive Action
  | push (entry : Entry)
  /-- The first part of `flush`, under the lock. -/
  | take
  | marshal
  /-- The publisher returns. -/
  | publish (ok : Bool)
  /-- The last part of `flush`, under the lock. -/
  | putBack
deriving DecidableEq, Repr

/-- One step. -/
def step (maxSize : ℕ) (s : State) : Action → Option State
  | .push entry =>
    (push maxSize s.buffer ⟨s.pushed.length, entry⟩).map fun buffer =>
      { s with buffer := buffer, pushed := s.pushed ++ [⟨s.pushed.length, entry⟩] }
  | .take =>
    match s.flush with
    | .idle =>
      if s.buffer = [] then some s else some { s with buffer := [], flush := .taken s.buffer }
    | _ => none
  | .marshal =>
    match s.flush with
    | .taken batch =>
      if batch.all fun p => p.entry.encodable then some { s with flush := .publishing batch }
      else some { s with flush := .idle, finished := s.finished ++ [(batch, .refused)] }
    | _ => none
  | .publish ok =>
    match s.flush with
    | .publishing batch =>
      if ok then some { s with flush := .idle, finished := s.finished ++ [(batch, .published)] }
      else some { s with flush := .failed batch }
    | _ => none
  | .putBack =>
    match s.flush with
    | .failed batch =>
      some { s with flush := .idle, buffer := putBack maxSize batch s.buffer }
    | _ => none

/-! ### What the buffer is for -/

/-- The batches that were published. -/
def State.published (s : State) : List (List Pushed) :=
  (s.finished.filter fun f => f.2 = .published).map Prod.fst

/-- How many entries were pushed up to the last entry of the last batch. -/
def upTo (batches : List (List Pushed)) : ℕ :=
  match batches.getLast?.bind List.getLast? with
  | none => 0
  | some p => p.number + 1

/-- The entries that were pushed after the last entry of the last batch. -/
def State.since (s : State) (batches : List (List Pushed)) : List Pushed :=
  s.pushed.drop (upTo batches)

/-- The buffer holds the newest of some entries, and what has been published is in the order of the
pushes, with nothing twice. -/
structure HoldsNewest (maxSize : ℕ) (s : State) (entries : List Pushed) : Prop where
  buffer_eq : s.flush = .idle → s.buffer = entries.rtake maxSize
  length_le : s.buffer.length ≤ maxSize
  sublist : s.published.flatten.Sublist s.pushed
  increasing : (s.published.flatten.map Pushed.number).Pairwise (· < ·)

/-! ### What a step does -/

/-- The batch in flight. -/
def FlushPc.batch : FlushPc → Option (List Pushed)
  | idle => none
  | taken batch | publishing batch | failed batch => some batch

inductive Effect (maxSize : ℕ) (s : State) (a : Action) (s' : State) : Prop
  | push (entry : Entry) (buffer : List Pushed) (ha : a = .push entry)
      (hbuffer : push maxSize s.buffer ⟨s.pushed.length, entry⟩ = some buffer)
      (heq : s' = { s with
        buffer := buffer
        pushed := s.pushed ++ [⟨s.pushed.length, entry⟩] })
  | stay (heq : s' = s)
  | take (hflush : s.flush.batch = none) (hbuffer : s.buffer ≠ [])
      (heq : s' = { s with buffer := [], flush := .taken s.buffer })
  | carry (flush : FlushPc) (hbatch : flush.batch = s.flush.batch)
      (heq : s' = { s with flush := flush })
  | finish (batch : List Pushed) (outcome : Outcome) (hbatch : s.flush.batch = some batch)
      (hrefused : outcome = .refused → ∃ p ∈ batch, p.entry.encodable = false)
      (heq : s' = { s with flush := .idle, finished := s.finished ++ [(batch, outcome)] })
  | putBack (batch : List Pushed) (hbatch : s.flush.batch = some batch)
      (heq : s' = { s with flush := .idle, buffer := Forwarder.putBack maxSize batch s.buffer })

section Steps

variable {maxSize : ℕ} {s s' : State} {a : Action}

/-- **Everything that a step does.** -/
theorem effect_of_step (h : step maxSize s a = some s') : Effect maxSize s a s' := by
  cases a with
  | push entry =>
    obtain ⟨buffer, hbuffer, heq⟩ := Option.map_eq_some_iff.mp h
    exact .push entry buffer rfl hbuffer heq.symm
  | take =>
    simp only [step] at h
    split at h
    next hflush =>
      split_ifs at h with hempty
      · exact .stay (Option.some_inj.mp h).symm
      · exact .take (by rw [hflush]; rfl) hempty (Option.some_inj.mp h).symm
    next => cases h
  | marshal =>
    simp only [step] at h
    split at h
    next batch hflush =>
      have hbatch : s.flush.batch = some batch := by rw [hflush]; rfl
      split_ifs at h with hall
      · exact .carry (.publishing batch) hbatch.symm (Option.some_inj.mp h).symm
      · refine .finish batch .refused hbatch (fun _ => ?_) (Option.some_inj.mp h).symm
        simpa using hall
    next => cases h
  | publish ok =>
    simp only [step] at h
    split at h
    next batch hflush =>
      have hbatch : s.flush.batch = some batch := by rw [hflush]; rfl
      split_ifs at h
      · exact .finish batch .published hbatch nofun (Option.some_inj.mp h).symm
      · exact .carry (.failed batch) hbatch.symm (Option.some_inj.mp h).symm
    next => cases h
  | putBack =>
    simp only [step] at h
    split at h
    next batch hflush =>
      exact .putBack batch (by rw [hflush]; rfl) (Option.some_inj.mp h).symm
    next => cases h

end Steps

/-! ### The invariant -/

/-- How many entries were pushed up to the last entry of the last batch that was not put back. -/
def State.settled (s : State) : ℕ := upTo (s.finished.map Prod.fst)

/-- The batch in flight has the newest entries up to some push, and the buffer the newest ones after
it. -/
structure Flight (maxSize : ℕ) (s : State) (batch : List Pushed) (k : ℕ) : Prop where
  lt : s.settled < k
  le : k ≤ s.pushed.length
  batch_eq : batch = ((s.pushed.take k).drop s.settled).rtake maxSize
  buffer_eq : s.buffer = (s.pushed.drop k).rtake maxSize

/-- The buffer, the batch in flight and the history. -/
structure Inv (maxSize : ℕ) (s : State) : Prop where
  numbers : s.pushed.map Pushed.number = List.range s.pushed.length
  settled_le : s.settled ≤ s.pushed.length
  idle : s.flush.batch = none → s.buffer = (s.pushed.drop s.settled).rtake maxSize
  flight : ∀ batch, s.flush.batch = some batch → ∃ k, Flight maxSize s batch k
  sublist : s.published.flatten.Sublist (s.pushed.take s.settled)

theorem inv_initial (maxSize : ℕ) : Inv maxSize State.initial where
  numbers := rfl
  settled_le := le_rfl
  idle _ := by rw [State.initial, List.drop_nil, List.rtake_nil]
  flight _ h := by cases h
  sublist := .slnil

section Invariant

variable {maxSize : ℕ} {s s' : State} {batch : List Pushed} {k : ℕ}

/-- The entry of a push. -/
theorem Inv.exists_getLast?_take (hs : Inv maxSize s) (hpos : 0 < k) (hle : k ≤ s.pushed.length) :
    ∃ p, (s.pushed.take k).getLast? = some p ∧ p.number + 1 = k := by
  have hlt : k - 1 < s.pushed.length := by omega
  refine ⟨s.pushed[k - 1], ?_, ?_⟩
  · rw [List.getLast?_eq_getElem?, List.length_take, Nat.min_eq_left hle,
      List.getElem?_take_of_lt (Nat.sub_one_lt_of_lt hpos), List.getElem?_eq_getElem hlt]
  · have hnumber : (s.pushed.map Pushed.number)[k - 1]? = some (k - 1) := by
      rw [hs.numbers, List.getElem?_range hlt]
    rw [List.getElem?_map, List.getElem?_eq_getElem hlt] at hnumber
    have heq := Option.some_inj.mp hnumber
    omega

/-- The last entry of the batch in flight is the last one that was pushed before it was taken. -/
theorem Flight.upTo_eq (hmax : 0 < maxSize) (hs : Inv maxSize s) (h : Flight maxSize s batch k)
    (batches : List (List Pushed)) : upTo (batches ++ [batch]) = k := by
  obtain ⟨p, hp, hnumber⟩ := hs.exists_getLast?_take (Nat.zero_lt_of_lt h.lt) h.le
  have hlast : batch.getLast? = some p := by
    have hshort : ¬ (s.pushed.take k).length ≤ s.settled := by
      rw [List.length_take, Nat.min_eq_left h.le]
      exact Nat.not_le.mpr h.lt
    rw [h.batch_eq, Newest.getLast?_rtake hmax, List.getLast?_drop, if_neg hshort, hp]
  rw [upTo, List.getLast?_concat, Option.bind_some, hlast]
  exact hnumber

theorem Inv.push (hs : Inv maxSize s) (hmax : 0 < maxSize) (entry : Entry) {buffer : List Pushed}
    (hbuffer : push maxSize s.buffer ⟨s.pushed.length, entry⟩ = some buffer) :
    Inv maxSize { s with
      buffer := buffer
      pushed := s.pushed ++ [⟨s.pushed.length, entry⟩] } where
  numbers := by
    rw [List.map_append, hs.numbers, List.length_append, List.length_singleton, List.range_succ]
    rfl
  settled_le := hs.settled_le.trans (by simp)
  idle hflush := by
    rw [hs.idle hflush, push_rtake hmax] at hbuffer
    change buffer = ((s.pushed ++ [_]).drop s.settled).rtake maxSize
    rw [← Option.some_inj.mp hbuffer, List.drop_append_of_le_length hs.settled_le]
  flight batch hbatch := by
    obtain ⟨k, hk⟩ := hs.flight batch hbatch
    rw [hk.buffer_eq, push_rtake hmax] at hbuffer
    refine ⟨k, hk.lt, hk.le.trans (by simp), ?_, ?_⟩
    · rw [List.take_append_of_le_length hk.le]
      exact hk.batch_eq
    · rw [← Option.some_inj.mp hbuffer, List.drop_append_of_le_length hk.le]
  sublist := by
    change s.published.flatten.Sublist ((s.pushed ++ [_]).take s.settled)
    rw [List.take_append_of_le_length hs.settled_le]
    exact hs.sublist

theorem Inv.take (hs : Inv maxSize s) (hflush : s.flush.batch = none) (hbuffer : s.buffer ≠ []) :
    Inv maxSize { s with buffer := [], flush := .taken s.buffer } where
  numbers := hs.numbers
  settled_le := hs.settled_le
  idle h := by cases h
  flight batch hbatch := by
    cases hbatch
    have hidle := hs.idle hflush
    refine ⟨s.pushed.length, ?_, le_rfl, ?_, ?_⟩
    · have hne : s.settled ≠ s.pushed.length := by
        intro heq
        rw [heq, List.drop_length, List.rtake_nil] at hidle
        exact hbuffer hidle
      exact lt_of_le_of_ne hs.settled_le hne
    · rw [List.take_length]
      exact hidle
    · rw [List.drop_length, List.rtake_nil]
  sublist := hs.sublist

theorem Inv.carry (hs : Inv maxSize s) {flush : FlushPc} (hbatch : flush.batch = s.flush.batch) :
    Inv maxSize { s with flush := flush } where
  numbers := hs.numbers
  settled_le := hs.settled_le
  idle h := hs.idle (hbatch.symm.trans h)
  flight batch h := by
    obtain ⟨k, hk⟩ := hs.flight batch (hbatch.symm.trans h)
    exact ⟨k, hk.lt, hk.le, hk.batch_eq, hk.buffer_eq⟩
  sublist := hs.sublist

/-- A batch that is published is in the order of the pushes, behind those before it. -/
theorem Flight.sublist (h : Flight maxSize s batch k) (hs : Inv maxSize s) (outcome : Outcome) :
    (State.published { s with
      flush := .idle
      finished := s.finished ++ [(batch, outcome)] }).flatten.Sublist (s.pushed.take k) := by
  have htake : (s.pushed.take k).take s.settled = s.pushed.take s.settled := by
    rw [List.take_take, Nat.min_eq_left h.lt.le]
  have hbatch : batch.Sublist ((s.pushed.take k).drop s.settled) := by
    rw [h.batch_eq]
    exact Newest.rtake_sublist _ _
  rw [← List.take_append_drop s.settled (s.pushed.take k), htake, State.published,
    List.filter_append, List.map_append, List.flatten_append]
  refine hs.sublist.append ?_
  cases outcome with
  | published => simpa using hbatch
  | refused => simp

theorem Inv.finish (hs : Inv maxSize s) (hmax : 0 < maxSize) (hbatch : s.flush.batch = some batch)
    (outcome : Outcome) :
    Inv maxSize { s with flush := .idle, finished := s.finished ++ [(batch, outcome)] } := by
  obtain ⟨k, hk⟩ := hs.flight batch hbatch
  have hsettled : State.settled { s with
      flush := .idle
      finished := s.finished ++ [(batch, outcome)] } = k := by
    rw [State.settled, List.map_append]
    exact hk.upTo_eq hmax hs _
  refine ⟨hs.numbers, ?_, fun _ => ?_, nofun, ?_⟩
  · rw [hsettled]
    exact hk.le
  · rw [hsettled]
    exact hk.buffer_eq
  · rw [hsettled]
    exact hk.sublist hs outcome

theorem Inv.putBack (hs : Inv maxSize s) (hbatch : s.flush.batch = some batch) :
    Inv maxSize { s with flush := .idle, buffer := putBack maxSize batch s.buffer } where
  numbers := hs.numbers
  settled_le := hs.settled_le
  idle _ := by
    obtain ⟨k, hk⟩ := hs.flight batch hbatch
    have hdrop : (s.pushed.take k).drop s.settled ++ s.pushed.drop k =
        s.pushed.drop s.settled := by
      rw [← List.drop_append_of_le_length, List.take_append_drop]
      rw [List.length_take, Nat.min_eq_left hk.le]
      exact hk.lt.le
    change Forwarder.putBack maxSize batch s.buffer = (s.pushed.drop s.settled).rtake maxSize
    rw [hk.batch_eq, hk.buffer_eq, putBack_rtake, hdrop]
  flight _ h := by cases h
  sublist := hs.sublist

theorem Inv.step (hs : Inv maxSize s) (hmax : 0 < maxSize) {a : Action}
    (h : Effect maxSize s a s') : Inv maxSize s' := by
  cases h with
  | push entry buffer _ hbuffer heq =>
    subst heq
    exact hs.push hmax entry hbuffer
  | stay heq =>
    subst heq
    exact hs
  | take hflush hbuffer heq =>
    subst heq
    exact hs.take hflush hbuffer
  | carry flush hbatch heq =>
    subst heq
    exact hs.carry hbatch
  | finish batch outcome hbatch _ heq =>
    subst heq
    exact hs.finish hmax hbatch outcome
  | putBack batch hbatch heq =>
    subst heq
    exact hs.putBack hbatch

theorem inv_of_reaches (hmax : 0 < maxSize) {ok : State → Action → Prop}
    (h : Reaches (step maxSize) ok State.initial s) : Inv maxSize s :=
  h.invariant (Inv maxSize) (fun hs _ hstep => hs.step hmax (effect_of_step hstep))
    (inv_initial maxSize)

/-- The buffer holds the newest elements of some history. -/
theorem Inv.exists_buffer_eq (hs : Inv maxSize s) :
    ∃ l : List Pushed, s.buffer = l.rtake maxSize := by
  cases hflush : s.flush.batch with
  | none => exact ⟨_, hs.idle hflush⟩
  | some batch =>
    obtain ⟨k, hk⟩ := hs.flight batch hflush
    exact ⟨_, hk.buffer_eq⟩

theorem Inv.length_le (hs : Inv maxSize s) : s.buffer.length ≤ maxSize := by
  obtain ⟨l, hl⟩ := hs.exists_buffer_eq
  rw [hl, Newest.length_rtake]
  exact Nat.min_le_left _ _

/-- A push is never out of range. -/
theorem Inv.exists_push (hs : Inv maxSize s) (hmax : 0 < maxSize) (entry : Entry) :
    ∃ s', Forwarder.step maxSize s (.push entry) = some s' := by
  obtain ⟨l, hl⟩ := hs.exists_buffer_eq
  rw [Forwarder.step, hl, push_rtake hmax]
  exact ⟨_, rfl⟩

theorem Inv.holdsNewest (hs : Inv maxSize s) :
    HoldsNewest maxSize s (s.since (s.finished.map Prod.fst)) where
  buffer_eq hidle := hs.idle (by rw [hidle]; rfl)
  length_le := hs.length_le
  sublist := hs.sublist.trans (List.take_sublist _ _)
  increasing := by
    have hsublist := (hs.sublist.trans (List.take_sublist _ _)).map Pushed.number
    rw [hs.numbers] at hsublist
    exact List.pairwise_lt_range.sublist hsublist

end Invariant

/-! ### What the buffer holds -/

section Results

variable {maxSize : ℕ} {s : State}

/-- **The buffer holds the newest entries** since the last batch that was published or could not be
encoded, and what has been published is in order. -/
theorem holdsNewest_finished (hmax : 0 < maxSize)
    (h : Reachable (step maxSize) State.initial s) :
    HoldsNewest maxSize s (s.since (s.finished.map Prod.fst)) :=
  (inv_of_reaches hmax h).holdsNewest

/-- Entries that can be encoded are never refused. -/
theorem finished_of_encodable (hmax : 0 < maxSize)
    (h : Reaches (step maxSize) (fun _ a => ∀ e, a = .push e → e.encodable) State.initial s) :
    ∀ f ∈ s.finished, f.2 = .published := by
  refine (h.invariant (fun s => Inv maxSize s ∧ (∀ p ∈ s.pushed, p.entry.encodable) ∧
    ∀ f ∈ s.finished, f.2 = .published) (fun {s a s'} hs hok hstep => ?_)
    ⟨inv_initial maxSize, nofun, nofun⟩).2.2
  obtain ⟨hinv, hpushed, hfinished⟩ := hs
  have heffect := effect_of_step hstep
  refine ⟨hinv.step hmax heffect, ?_⟩
  cases heffect with
  | push entry buffer ha _ heq =>
    subst heq
    refine ⟨?_, hfinished⟩
    simp only [List.forall_mem_append, List.forall_mem_singleton]
    exact ⟨hpushed, hok entry ha⟩
  | stay heq | take _ _ heq | carry _ _ heq | putBack _ _ heq =>
    subst heq
    exact ⟨hpushed, hfinished⟩
  | finish batch outcome hbatch hrefused heq =>
    subst heq
    refine ⟨hpushed, ?_⟩
    simp only [List.forall_mem_append, List.forall_mem_singleton]
    refine ⟨hfinished, ?_⟩
    cases outcome with
    | published => rfl
    | refused =>
      obtain ⟨k, hk⟩ := hinv.flight batch hbatch
      obtain ⟨p, hp, hfalse⟩ := hrefused rfl
      rw [hk.batch_eq] at hp
      have hmem : p ∈ s.pushed :=
        List.mem_of_mem_take (List.mem_of_mem_drop ((Newest.rtake_sublist _ _).subset hp))
      rw [hpushed p hmem] at hfalse
      cases hfalse

/-- If all entries can be encoded, they are dropped for newer ones only. -/
theorem holdsNewest_of_encodable (hmax : 0 < maxSize)
    (h : Reaches (step maxSize) (fun _ a => ∀ e, a = .push e → e.encodable) State.initial s) :
    HoldsNewest maxSize s (s.since s.published) := by
  have hall : (s.finished.filter fun f => f.2 = .published) = s.finished :=
    List.filter_eq_self.mpr fun f hf => decide_eq_true (finished_of_encodable hmax h f hf)
  rw [State.published, hall]
  exact (inv_of_reaches hmax h).holdsNewest

end Results

/-! ### An entry that cannot be encoded -/

/-- An entry of a year. -/
def entryOf (year : ℤ) : Entry where
  timestamp := ⟨year, 0, 0⟩
  level := "INFO"
  message := [111, 107]
  source := "journald"

/-- Three entries for two places; the publisher fails, with one entry more in between, and then
succeeds, with another one. -/
theorem holdsNewest_finished_two : ∃ s, Reachable (step 2) State.initial s ∧
    s.published.flatten.map Pushed.number = [2, 3] ∧ s.buffer.map Pushed.number = [4] ∧
      HoldsNewest 2 s (s.since (s.finished.map Prod.fst)) := by
  obtain ⟨s, hs, hpublished, hbuffer⟩ : ∃ s, Reachable (step 2) State.initial s ∧
      s.published.flatten.map Pushed.number = [2, 3] ∧ s.buffer.map Pushed.number = [4] :=
    exists_reaches_of_execBy
      [.push (entryOf 2025), .push (entryOf 2025), .push (entryOf 2025), .take,
        .push (entryOf 2025), .marshal, .publish false, .putBack, .take, .marshal,
        .push (entryOf 2025), .publish true]
      ⟨_, rfl, by decide, by decide⟩
  exact ⟨s, hs, hpublished, hbuffer, holdsNewest_finished (by decide) hs⟩

/-- An entry of the year 10000 takes all the others of its batch with it: nothing was published, and
the buffer is empty. -/
theorem not_holdsNewest_published : ∃ s, Reachable (step 2) State.initial s ∧
    s.flush = .idle ∧ s.published = [] ∧ s.pushed.length = 2 ∧ s.buffer = [] ∧
      ¬ HoldsNewest 2 s (s.since s.published) := by
  obtain ⟨s, hs, hflush, hpublished, hpushed, hbuffer⟩ : ∃ s, Reachable (step 2) State.initial s ∧
      s.flush = .idle ∧ s.published = [] ∧ s.pushed.length = 2 ∧ s.buffer = [] :=
    exists_reaches_of_execBy [.push (entryOf 2025), .push (entryOf 10000), .take, .marshal]
      ⟨_, rfl, by decide, by decide, by decide, by decide⟩
  refine ⟨s, hs, hflush, hpublished, hpushed, hbuffer, fun h => ?_⟩
  have hlength := congrArg List.length (h.buffer_eq hflush)
  rw [Newest.length_rtake, State.since, hpublished, hbuffer, List.length_drop, hpushed] at hlength
  exact absurd hlength (by decide)

end Forwarder

end EdgeGuardian.Agent.Logfwd
