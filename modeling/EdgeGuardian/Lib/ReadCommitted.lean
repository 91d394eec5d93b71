import EdgeGuardian.Lib.Table
import EdgeGuardian.Lib.Transition
import Mathlib.Logic.Function.Basic

/-!
# Transactions that write back a row as they have read it

A transaction reads one row of a table, computes a new row from the copy that it has read, and
writes the new row whole. At READ COMMITTED, a read sees what is committed, a row that another
transaction has written can be written only after that one has ended, and nothing checks that the
row is still as it was read: what has been committed since is overwritten. There may be any number
of transactions, and their reads, writes, commits and rollbacks are interleaved in any order.

Two questions about a column are answered here. A flag that some transactions set and that the
others write back as they have read it stays set as long as no transaction overtakes a copy from
before it was set. A counter that some transactions count up counts their commits as long as no
transaction commits over a count that is newer than its copy or counts it up where it wraps; and it
then keeps to the limit that the transactions check.

## Main definitions

* `ReadCommitted.Program`: what a transaction does with a row.
* `ReadCommitted.State`, `ReadCommitted.step`: the table, its locks, and the transactions.
* `ReadCommitted.Flag`, `ReadCommitted.FlagFinal`, `ReadCommitted.overtakes`.
* `ReadCommitted.Counter`, `ReadCommitted.Counted`, `ReadCommitted.current`.

## Main results

* `ReadCommitted.step_cases`: a step is a commit, or changes neither the rows nor what is committed.
* `ReadCommitted.rows_of_exec_alone`: a transaction that runs alone.
* `ReadCommitted.flagFinal_of_reaches`, `ReadCommitted.counted_of_reaches`: flags and counters along
  runs.
-/

namespace ReadCommitted

open Transition

/-! ### Programs and states -/

/-- What a transaction does with a row of a table: how it finds the row, and the row that it writes
in its place, `none` where it writes nothing. -/
structure Program (ρ : Type*) {κ : Type*} (key : ρ → κ) where
  selects : ρ → Bool
  update : ρ → Option ρ
  key_update : ∀ {copy row}, update copy = some row → key row = key copy

/-- Where a transaction is, with the row as it was read and the row to write. -/
inductive Pc (ρ : Type*)
  | ready
  | read (copy row : ρ)
  | written (copy row : ρ)
  | committed (copy row : ρ)
  /-- The transaction has written nothing, or was rolled back. -/
  | ended
deriving DecidableEq, Repr

/-- The committed rows, the transactions that have written rows and not ended, the points of all
transactions, and the commits so far. -/
structure State {ρ κ : Type*} (key : ρ → κ) (ι : Type*) where
  rows : Table ρ key
  lock : κ → Option ι
  pc : ι → Pc ρ
  log : List (ι × κ)

/-- The statements of the transactions. -/
inductive Action (ι : Type*)
  | read (i : ι)
  | write (i : ι)
  | commit (i : ι)
  | rollback (i : ι)
deriving DecidableEq, Repr

section Steps

variable {ρ κ ι : Type*} {key : ρ → κ} [DecidableEq κ] [DecidableEq ι]

/-- The state with a transaction at another point. -/
def State.moved (s : State key ι) (i : ι) (pc : Pc ρ) : State key ι :=
  { s with pc := Function.update s.pc i pc }

/-- The row that a program reads, and the row that it makes of it. -/
def State.fetch (s : State key ι) (p : Program ρ key) : Option (ρ × ρ) :=
  (s.rows.rows.find? p.selects).bind fun copy => (p.update copy).map fun row => (copy, row)

/-- The state after the commit of a transaction. -/
def State.publish (s : State key ι) (i : ι) (copy row : ρ) : State key ι where
  rows := s.rows.save row
  lock := Function.update s.lock (key row) none
  pc := Function.update s.pc i (.committed copy row)
  log := s.log ++ [(i, key row)]

/-- One statement. -/
def step (prog : ι → Program ρ key) (s : State key ι) : Action ι → Option (State key ι)
  | .read i =>
    match s.pc i with
    | .ready =>
      match s.fetch (prog i) with
      | some (copy, row) => some (s.moved i (.read copy row))
      | none => some (s.moved i .ended)
    | _ => none
  | .write i =>
    match s.pc i with
    | .read copy row =>
      if s.lock (key row) = none then
        some { s.moved i (.written copy row) with
          lock := Function.update s.lock (key row) (some i) }
      else none
    | _ => none
  | .commit i =>
    match s.pc i with
    | .written copy row => some (s.publish i copy row)
    | _ => none
  | .rollback i =>
    match s.pc i with
    | .ready | .read _ _ => some (s.moved i .ended)
    | .written _ row =>
      some { s.moved i .ended with lock := Function.update s.lock (key row) none }
    | .committed _ _ | .ended => none

/-- No transaction has begun. -/
structure Starting (s : State key ι) : Prop where
  pc : ∀ i, s.pc i = .ready
  log : s.log = []

/-- The table before any transaction. -/
def State.start (rows : Table ρ key) : State key ι := ⟨rows, fun _ => none, fun _ => .ready, []⟩

omit [DecidableEq κ] [DecidableEq ι] in
@[simp] theorem State.pc_start (rows : Table ρ key) (i : ι) :
    (State.start rows).pc i = .ready := rfl

omit [DecidableEq κ] [DecidableEq ι] in
@[simp] theorem State.lock_start (rows : Table ρ key) (k : κ) :
    (State.start rows : State key ι).lock k = none := rfl

omit [DecidableEq κ] [DecidableEq ι] in
@[simp] theorem State.rows_start (rows : Table ρ key) :
    (State.start rows : State key ι).rows = rows := rfl

omit [DecidableEq κ] [DecidableEq ι] in
theorem starting_start (rows : Table ρ key) : Starting (State.start rows : State key ι) :=
  ⟨fun _ => rfl, rfl⟩

/-- The transaction has read a row and not ended. -/
def State.Holds (s : State key ι) (i : ι) (copy row : ρ) : Prop :=
  s.pc i = .read copy row ∨ s.pc i = .written copy row

/-! ### What a step does -/

variable {prog : ι → Program ρ key} {s t : State key ι} {a : Action ι}

omit [DecidableEq ι] in
theorem State.fetch_eq_some {p : Program ρ key} {copy row : ρ}
    (h : s.fetch p = some (copy, row)) :
    s.rows.find? (key row) = some copy ∧ p.update copy = some row := by
  obtain ⟨_, hfind, h⟩ := Option.bind_eq_some_iff.mp h
  obtain ⟨_, hupdate, heq⟩ := Option.map_eq_some_iff.mp h
  obtain ⟨rfl, rfl⟩ := Prod.mk.inj heq
  rw [p.key_update hupdate]
  exact ⟨Table.mem_rows_iff.mp (List.mem_of_find?_eq_some hfind), hupdate⟩

/-- The step writes no row and commits nothing. A transaction may have read a row in it. -/
structure Quiet (prog : ι → Program ρ key) (s t : State key ι) : Prop where
  rows : t.rows = s.rows
  log : t.log = s.log
  committed : ∀ j copy row, t.pc j = .committed copy row ↔ s.pc j = .committed copy row
  holds : ∀ j copy row, t.Holds j copy row →
    s.Holds j copy row ∨ s.fetch (prog j) = some (copy, row)

omit [DecidableEq κ] in
/-- A transaction that is not committed moves to a point at which it is not committed. -/
theorem Quiet.moved {i : ι} {pc : Pc ρ} (hold : ∀ copy row, s.pc i ≠ .committed copy row)
    (hnew : ∀ copy row, pc ≠ .committed copy row)
    (hholds : ∀ copy row, pc = .read copy row ∨ pc = .written copy row →
      s.Holds i copy row ∨ s.fetch (prog i) = some (copy, row))
    (lock : κ → Option ι) : Quiet prog s { s.moved i pc with lock := lock } := by
  refine ⟨rfl, rfl, fun j copy row => ?_, fun j copy row h => ?_⟩
  · by_cases hj : j = i
    · subst hj
      simp only [State.moved, Function.update_self]
      exact iff_of_false (hnew copy row) (hold copy row)
    · simp only [State.moved, Function.update_of_ne hj]
  · by_cases hj : j = i
    · subst hj
      simp only [State.Holds, State.moved, Function.update_self] at h
      exact hholds copy row h
    · simp only [State.Holds, State.moved, Function.update_of_ne hj] at h
      exact .inl h

/-- **What a step does.** It is the commit of a transaction that has written its row, or it changes
neither the rows nor what is committed. -/
theorem step_cases (h : step prog s a = some t) :
    (∃ i copy row, a = .commit i ∧ s.pc i = .written copy row ∧ t = s.publish i copy row) ∨
      (∀ i, a ≠ .commit i) ∧ Quiet prog s t := by
  cases a with
  | read i =>
    refine .inr ⟨fun _ hcommit => (nomatch hcommit), ?_⟩
    rcases hpc : s.pc i with _ | _ | _ | _ | _ <;>
      simp only [step, hpc, reduceCtorEq] at h
    have hold : ∀ copy row, s.pc i ≠ .committed copy row := by simp [hpc]
    rcases hfetch : s.fetch (prog i) with _ | ⟨copy, row⟩ <;>
      simp only [hfetch, Option.some.injEq] at h <;> rw [← h]
    · exact .moved hold (by simp) (by simp) s.lock
    · refine .moved hold (by simp) (fun copy' row' hpc' => .inr ?_) s.lock
      simp only [Pc.read.injEq, reduceCtorEq, or_false] at hpc'
      rw [hfetch, hpc'.1, hpc'.2]
  | write i =>
    refine .inr ⟨fun _ hcommit => (nomatch hcommit), ?_⟩
    rcases hpc : s.pc i with _ | ⟨copy, row⟩ | _ | _ | _ <;>
      simp only [step, hpc, reduceCtorEq] at h
    split_ifs at h
    rw [← Option.some.inj h]
    refine .moved (by simp [hpc]) (by simp) (fun copy' row' hpc' => .inl (.inl ?_)) _
    simp only [reduceCtorEq, Pc.written.injEq, false_or] at hpc'
    rw [hpc, hpc'.1, hpc'.2]
  | commit i =>
    rcases hpc : s.pc i with _ | _ | ⟨copy, row⟩ | _ | _ <;>
      simp only [step, hpc, reduceCtorEq] at h
    exact .inl ⟨i, copy, row, rfl, hpc, (Option.some.inj h).symm⟩
  | rollback i =>
    refine .inr ⟨fun _ hcommit => (nomatch hcommit), ?_⟩
    rcases hpc : s.pc i with _ | _ | _ | _ | _ <;>
      simp only [step, hpc, reduceCtorEq] at h
    all_goals
      rw [← Option.some.inj h]
      exact .moved (by simp [hpc]) (by simp) (by simp) _

/-! ### What a commit does -/

section Publish

variable {i j : ι} {copy row : ρ}

theorem State.find?_publish (k : κ) :
    (s.publish i copy row).rows.find? k = if k = key row then some row else s.rows.find? k :=
  Table.find?_save s.rows row k

/-- The commits after a commit. -/
theorem State.pc_publish_eq_committed {copy' row' : ρ} (hpc : s.pc i = .written copy row) :
    (s.publish i copy row).pc j = .committed copy' row' ↔
      (j = i ∧ copy' = copy ∧ row' = row) ∨ s.pc j = .committed copy' row' := by
  by_cases hj : j = i
  · subst hj
    simp only [State.publish, Function.update_self, hpc, Pc.committed.injEq, true_and, reduceCtorEq,
      or_false]
    exact ⟨fun h => ⟨h.1.symm, h.2.symm⟩, fun h => ⟨h.1.symm, h.2.symm⟩⟩
  · simp only [State.publish, Function.update_of_ne hj, hj, false_and, false_or]

/-- A transaction that is in flight after a commit was so before it. -/
theorem State.holds_of_publish {copy' row' : ρ}
    (h : (s.publish i copy row).Holds j copy' row') : s.Holds j copy' row' := by
  by_cases hj : j = i
  · subst hj
    simp [State.Holds, State.publish] at h
  · simpa only [State.Holds, State.publish, Function.update_of_ne hj] using h

end Publish

/-! ### A transaction alone -/

/-- A transaction that runs alone writes what its program makes of the row that it finds. -/
theorem rows_of_exec_alone (prog : ι → Program ρ key) {rows : Table ρ key} {i : ι} {copy row : ρ}
    (hfind : rows.rows.find? (prog i).selects = some copy)
    (hupdate : (prog i).update copy = some row) :
    (exec (step prog) (.start rows) [.read i, .write i, .commit i]).map State.rows =
      some (rows.save row) := by
  have hfetch : (State.start rows : State key ι).fetch (prog i) = some (copy, row) := by
    rw [State.fetch, State.rows_start, hfind, Option.bind_some, hupdate]
    rfl
  simp [execBy, step, hfetch, State.moved, State.publish]

/-! ### Columns that stay, and where rows come from -/

/-- The column stays as it is in every row that is written. -/
def Frozen {β : Type*} (prog : ι → Program ρ key) (g : ρ → β) : Prop :=
  ∀ {i copy row}, (prog i).update copy = some row → g row = g copy

/-- All rows, and all copies in flight, have the column that their row had in `s₀`, and what is to
be written is what the program makes of the copy. -/
structure FrozenInv {β : Type*} (prog : ι → Program ρ key) (g : ρ → β) (s₀ s : State key ι) :
    Prop where
  rows : ∀ k, (s.rows.find? k).map g = (s₀.rows.find? k).map g
  held : ∀ {i copy row}, s.Holds i copy row →
    (prog i).update copy = some row ∧ (s₀.rows.find? (key row)).map g = some (g copy)

omit [DecidableEq ι] in
theorem Starting.frozenInv {β : Type*} {g : ρ → β} (h : Starting s) : FrozenInv prog g s s := by
  refine ⟨fun _ => rfl, fun {i _ _} hholds => ?_⟩
  rw [State.Holds, h.pc i] at hholds
  exact nomatch hholds

theorem FrozenInv.step {β : Type*} {g : ρ → β} {s₀ : State key ι} (hg : Frozen prog g)
    (hs : FrozenInv prog g s₀ s) (h : step prog s a = some t) : FrozenInv prog g s₀ t := by
  rcases step_cases h with ⟨i, copy, row, -, hpc, rfl⟩ | ⟨-, hquiet⟩
  · obtain ⟨hupdate, hcopy⟩ := hs.held (.inr hpc)
    refine ⟨fun k => ?_, fun hholds => hs.held (State.holds_of_publish hholds)⟩
    rw [State.find?_publish]
    split_ifs with hk
    · rw [hk, hcopy, Option.map_some, hg hupdate]
    · exact hs.rows k
  · refine ⟨fun k => ?_, fun {j copy row} hholds => ?_⟩
    · rw [hquiet.rows]
      exact hs.rows k
    · rcases hquiet.holds j copy row hholds with hholds | hfetch
      · exact hs.held hholds
      · obtain ⟨hfind, hupdate⟩ := State.fetch_eq_some hfetch
        exact ⟨hupdate, by rw [← hs.rows, hfind, Option.map_some]⟩

omit [DecidableEq ι] in
/-- The row of a transaction in flight is in the table. -/
theorem FrozenInv.exists_stored {β : Type*} {g : ρ → β} {s₀ : State key ι} {i : ι} {copy row : ρ}
    (hs : FrozenInv prog g s₀ s) (h : s.Holds i copy row) :
    ∃ stored, s.rows.find? (key row) = some stored ∧ g stored = g copy := by
  have hrow := hs.rows (key row)
  rw [(hs.held h).2] at hrow
  exact Option.map_eq_some_iff.mp hrow

/-- The log has the commits, and each of them once. -/
def LogSound (s : State key ι) : Prop :=
  (s.log.map Prod.fst).Nodup ∧
    ∀ i, i ∈ s.log.map Prod.fst → ∃ copy row, s.pc i = .committed copy row

theorem LogSound.step (hs : LogSound s) (h : step prog s a = some t) : LogSound t := by
  rcases step_cases h with ⟨i, copy, row, -, hpc, rfl⟩ | ⟨-, hquiet⟩
  · have hnew : i ∉ s.log.map Prod.fst := by
      intro hi
      obtain ⟨copy', row', hcommitted⟩ := hs.2 i hi
      exact nomatch hpc.symm.trans hcommitted
    have hlog : (s.publish i copy row).log.map Prod.fst = s.log.map Prod.fst ++ [i] := by
      simp [State.publish]
    rw [LogSound, hlog]
    refine ⟨List.nodup_append.mpr ⟨hs.1, List.nodup_singleton i, ?_⟩, fun j hj => ?_⟩
    · intro j hj j' hj' heq
      rw [List.mem_singleton.mp hj'] at heq
      exact hnew (heq ▸ hj)
    · rcases List.mem_append.mp hj with hj | hj
      · obtain ⟨copy', row', hcommitted⟩ := hs.2 j hj
        exact ⟨copy', row', (State.pc_publish_eq_committed hpc).mpr (.inr hcommitted)⟩
      · rw [List.mem_singleton.mp hj]
        exact ⟨copy, row, (State.pc_publish_eq_committed hpc).mpr (.inl ⟨rfl, rfl, rfl⟩)⟩
  · rw [LogSound, hquiet.log]
    refine ⟨hs.1, fun j hj => ?_⟩
    obtain ⟨copy', row', hcommitted⟩ := hs.2 j hj
    exact ⟨copy', row', (hquiet.committed j copy' row').mpr hcommitted⟩

/-- No transaction commits twice. -/
theorem nodup_log_of_reaches {ok : State key ι → Action ι → Prop} {s₀ : State key ι}
    (h₀ : Starting s₀) (h : Reaches (step prog) ok s₀ s) : (s.log.map Prod.fst).Nodup := by
  have hs : LogSound s := h.invariant LogSound (fun hu _ hstep => hu.step hstep) (by
    simp [LogSound, h₀.log])
  exact hs.1

/-! ### Flags -/

/-- Some transactions set the flag of the row that they write, and the others write it back as they
have read it. -/
structure Flag (prog : ι → Program ρ key) (flag : ρ → Bool) (sets : ι → Bool) : Prop where
  flags : ∀ {i copy row}, sets i → (prog i).update copy = some row → flag row
  keeps : ∀ {i copy row}, sets i = false → (prog i).update copy = some row → flag row = flag copy

/-- The flag of a row is set in every state after the commit of a transaction that sets it. -/
def FlagFinal (flag : ρ → Bool) (sets : ι → Bool) (s : State key ι) : Prop :=
  ∀ i copy row, sets i → s.pc i = .committed copy row →
    ∀ stored ∈ s.rows.find? (key row), flag stored

/-- A transaction that does not set the flag commits a copy from before the flag was set. -/
def overtakes (flag : ρ → Bool) (sets : ι → Bool) (s : State key ι) : Action ι → Bool
  | .commit i =>
    match s.pc i with
    | .written copy row => !sets i && !flag copy && (s.rows.find? (key row)).any flag
    | _ => false
  | .read _ | .write _ | .rollback _ => false

/-- The invariant: a flag that was read is still set, and a flag that was set since is that of a
transaction that sets it. -/
structure FlagInv (prog : ι → Program ρ key) (flag : ρ → Bool) (sets : ι → Bool)
    (s₀ s : State key ι) : Prop where
  frozen : FrozenInv prog (fun _ => ()) s₀ s
  seen : ∀ {j copy row stored}, s.Holds j copy row → s.rows.find? (key row) = some stored →
    flag copy → flag stored
  flagged : ∀ {j copy row stored}, s.Holds j copy row → s.rows.find? (key row) = some stored →
    flag stored → flag copy = false →
      ∃ i copy' row', sets i ∧ s.pc i = .committed copy' row' ∧ key row' = key row
  final : FlagFinal flag sets s

section Flags

variable {flag : ρ → Bool} {sets : ι → Bool} {s₀ : State key ι}

omit [DecidableEq ι] in
theorem Starting.flagInv (h : Starting s) : FlagInv prog flag sets s s := by
  have hnone : ∀ j copy row, ¬ s.Holds j copy row := by
    intro j copy row hholds
    rw [State.Holds, h.pc j] at hholds
    exact nomatch hholds
  refine ⟨h.frozenInv, fun hholds => absurd hholds (hnone _ _ _), fun hholds =>
    absurd hholds (hnone _ _ _), fun i copy row _ hcommitted => ?_⟩
  exact nomatch (h.pc i).symm.trans hcommitted

omit [DecidableEq ι] in
/-- What a commit that overtakes nothing leaves of a flag. -/
theorem FlagInv.flag_row {i : ι} {copy row stored : ρ} (hflag : Flag prog flag sets)
    (hs : FlagInv prog flag sets s₀ s) (hpc : s.pc i = .written copy row)
    (hstored : s.rows.find? (key row) = some stored)
    (hok : overtakes flag sets s (.commit i) = false) (h : flag stored) : flag row := by
  obtain ⟨hupdate, -⟩ := hs.frozen.held (.inr hpc)
  rcases hsets : sets i with _ | _
  · simp only [overtakes, hpc, hstored, hsets, Option.any_some, h, Bool.not_false, Bool.true_and,
      Bool.and_true, Bool.not_eq_false'] at hok
    rw [hflag.keeps hsets hupdate, hok]
  · exact hflag.flags hsets hupdate

theorem FlagInv.publish {i : ι} {copy row : ρ} (hflag : Flag prog flag sets)
    (hs : FlagInv prog flag sets s₀ s) (hpc : s.pc i = .written copy row)
    (hok : overtakes flag sets s (.commit i) = false)
    (hfrozen : FrozenInv prog (fun _ => ()) s₀ (s.publish i copy row)) :
    FlagInv prog flag sets s₀ (s.publish i copy row) := by
  obtain ⟨hupdate, -⟩ := hs.frozen.held (.inr hpc)
  obtain ⟨old, hold, -⟩ := hs.frozen.exists_stored (.inr hpc)
  have hrow : flag old → flag row := hs.flag_row hflag hpc hold hok
  refine ⟨hfrozen, fun {j copy' row' stored} hholds hstored hcopy => ?_,
    fun {j copy' row' stored} hholds hstored hset hcopy => ?_, ?_⟩
  · have hholds := State.holds_of_publish hholds
    rw [State.find?_publish] at hstored
    split_ifs at hstored with hk
    · rw [← Option.some.inj hstored]
      exact hrow (hs.seen hholds (hk ▸ hold) hcopy)
    · exact hs.seen hholds hstored hcopy
  · have hholds := State.holds_of_publish hholds
    rw [State.find?_publish] at hstored
    split_ifs at hstored with hk
    · rw [← Option.some.inj hstored] at hset
      by_cases hset' : flag old
      · obtain ⟨i', c, r, hi', hpc', hkey⟩ := hs.flagged hholds (hk ▸ hold) hset' hcopy
        exact ⟨i', c, r, hi', (State.pc_publish_eq_committed hpc).mpr (.inr hpc'), hkey⟩
      · -- The flag was not set before, so that this transaction sets it.
        rcases hsets : sets i with _ | _
        · rw [hflag.keeps hsets hupdate] at hset
          exact absurd (hs.seen (.inr hpc) hold hset) hset'
        · refine ⟨i, copy, row, hsets, ?_, hk.symm⟩
          exact (State.pc_publish_eq_committed hpc).mpr (.inl ⟨rfl, rfl, rfl⟩)
    · obtain ⟨i', c, r, hi', hpc', hkey⟩ := hs.flagged hholds hstored hset hcopy
      exact ⟨i', c, r, hi', (State.pc_publish_eq_committed hpc).mpr (.inr hpc'), hkey⟩
  · intro j copy' row' hsets hpc' stored hstored
    rw [Option.mem_def, State.find?_publish] at hstored
    rcases (State.pc_publish_eq_committed hpc).mp hpc' with ⟨rfl, -, rfl⟩ | hpc'
    · rw [if_pos rfl] at hstored
      rw [← Option.some.inj hstored]
      exact hflag.flags hsets hupdate
    · split_ifs at hstored with hk
      · rw [← Option.some.inj hstored]
        exact hrow (hs.final j copy' row' hsets hpc' old (hk ▸ hold))
      · exact hs.final j copy' row' hsets hpc' stored hstored

/-- The invariant is kept by every step that overtakes nothing. -/
theorem FlagInv.step (hflag : Flag prog flag sets) (hs : FlagInv prog flag sets s₀ s)
    (hok : overtakes flag sets s a = false) (h : step prog s a = some t) :
    FlagInv prog flag sets s₀ t := by
  have hfrozen := hs.frozen.step (fun _ => rfl) h
  rcases step_cases h with ⟨i, copy, row, rfl, hpc, rfl⟩ | ⟨-, hquiet⟩
  · exact hs.publish hflag hpc hok hfrozen
  · refine ⟨hfrozen, fun {j copy row stored} hholds hstored hcopy => ?_,
      fun {j copy row stored} hholds hstored hset hcopy => ?_, ?_⟩
    · rw [hquiet.rows] at hstored
      rcases hquiet.holds j copy row hholds with hholds | hfetch
      · exact hs.seen hholds hstored hcopy
      · rwa [← Option.some.inj ((State.fetch_eq_some hfetch).1.symm.trans hstored)]
    · rw [hquiet.rows] at hstored
      rcases hquiet.holds j copy row hholds with hholds | hfetch
      · obtain ⟨i', c, r, hi', hpc', hkey⟩ := hs.flagged hholds hstored hset hcopy
        exact ⟨i', c, r, hi', (hquiet.committed i' c r).mpr hpc', hkey⟩
      · rw [← Option.some.inj ((State.fetch_eq_some hfetch).1.symm.trans hstored), hcopy] at hset
        exact nomatch hset
    · intro j copy row hsets hpc stored hstored
      rw [hquiet.rows] at hstored
      exact hs.final j copy row hsets ((hquiet.committed j copy row).mp hpc) stored hstored

/-- A step that overtakes a flag takes it back. -/
theorem not_flagFinal_of_overtakes (hflag : Flag prog flag sets) (hs : FlagInv prog flag sets s₀ s)
    (hbad : overtakes flag sets s a = true) (h : step prog s a = some t) :
    ¬ FlagFinal flag sets t := by
  rcases step_cases h with ⟨i, copy, row, rfl, hpc, rfl⟩ | ⟨hother, -⟩
  · obtain ⟨hupdate, -⟩ := hs.frozen.held (.inr hpc)
    obtain ⟨old, hold, -⟩ := hs.frozen.exists_stored (.inr hpc)
    simp only [overtakes, hpc, hold, Option.any_some, Bool.and_eq_true, Bool.not_eq_true'] at hbad
    obtain ⟨⟨hsets, hcopy⟩, hset⟩ := hbad
    obtain ⟨i', c, r, hi', hpc', hkey⟩ := hs.flagged (.inr hpc) hold hset hcopy
    intro hfinal
    have hrow := hfinal i' c r hi' ((State.pc_publish_eq_committed hpc).mpr (.inr hpc')) row
      (by rw [Option.mem_def, State.find?_publish, if_pos hkey])
    rw [hflag.keeps hsets hupdate, hcopy] at hrow
    exact nomatch hrow
  · cases a with
    | commit i => exact absurd rfl (hother i)
    | read | write | rollback => exact nomatch hbad

/-- In every run whose steps overtake nothing, flags are final; a step that overtakes one takes it
back. -/
theorem flagFinal_of_reaches (hflag : Flag prog flag sets) (h₀ : Starting s₀)
    (h : Reaches (step prog) (fun s a => overtakes flag sets s a = false) s₀ s) :
    FlagFinal flag sets s ∧ ∀ a t, ReadCommitted.step prog s a = some t →
      (FlagFinal flag sets t ↔ overtakes flag sets s a = false) := by
  have hs : FlagInv prog flag sets s₀ s :=
    h.invariant (FlagInv prog flag sets s₀) (fun hu hok hstep => hu.step hflag hok hstep) h₀.flagInv
  refine ⟨hs.final, fun a t hstep => ⟨fun hfinal => ?_, fun hok => (hs.step hflag hok hstep).final⟩⟩
  by_contra hbad
  rw [Bool.not_eq_false] at hbad
  exact not_flagFinal_of_overtakes hflag hs hbad hstep hfinal

end Flags

/-! ### Counters -/

/-- Some transactions count the row up that they write, if it is below its limit, and the others
write the count back as they have read it. A count wraps at `top`: then no row has the count
before. -/
structure Counter (prog : ι → Program ρ key) (count : ρ → ℤ) (limit : ρ → Option ℤ) (top : ℤ)
    (counts : ι → Bool) : Prop where
  adds : ∀ {i copy row}, counts i → (prog i).update copy = some row → count copy < top →
    count row = count copy + 1
  wraps : ∀ {i copy row}, counts i → (prog i).update copy = some row → top ≤ count copy →
    ∀ stored, count row ≠ count stored + 1
  below : ∀ {i copy row}, counts i → (prog i).update copy = some row →
    ∀ m ∈ limit copy, count copy < m
  keeps : ∀ {i copy row}, counts i = false → (prog i).update copy = some row →
    count row = count copy
  frozen : Frozen prog limit

/-- The number of transactions of a kind that have committed a row with the key. -/
def State.commits (s : State key ι) (counts : ι → Bool) (k : κ) : ℕ :=
  s.log.countP fun e => counts e.1 && decide (e.2 = k)

/-- Every row has been counted up once for each commit that counts it up, and these do not take it
over its limit. -/
def Counted (count : ρ → ℤ) (limit : ρ → Option ℤ) (counts : ι → Bool) (s₀ s : State key ι) :
    Prop :=
  ∀ k, ∀ r₀ ∈ s₀.rows.find? k, ∃ r ∈ s.rows.find? k, limit r = limit r₀ ∧
    count r = count r₀ + s.commits counts k ∧
    ∀ m ∈ limit r, 0 < s.commits counts k → count r₀ + s.commits counts k ≤ m

/-- A transaction commits only over the count that it has read, and counts up only what is below
`top`. -/
def current (count : ρ → ℤ) (top : ℤ) (counts : ι → Bool) (s : State key ι) : Action ι → Bool
  | .commit i =>
    match s.pc i with
    | .written copy row =>
      ((s.rows.find? (key row)).all fun stored => count stored = count copy) &&
        (!counts i || count copy < top)
    | _ => true
  | .read _ | .write _ | .rollback _ => true

/-- The invariant: limits stay, and the commits are counted. -/
structure CounterInv (prog : ι → Program ρ key) (count : ρ → ℤ) (limit : ρ → Option ℤ)
    (counts : ι → Bool) (s₀ s : State key ι) : Prop where
  frozen : FrozenInv prog limit s₀ s
  counted : Counted count limit counts s₀ s

section Counters

variable {count : ρ → ℤ} {limit : ρ → Option ℤ} {top : ℤ} {counts : ι → Bool} {s₀ : State key ι}

omit [DecidableEq ι] in
theorem Starting.counterInv (h : Starting s) : CounterInv prog count limit counts s s := by
  refine ⟨h.frozenInv, fun k r₀ hr₀ => ⟨r₀, hr₀, rfl, ?_, fun m _ => ?_⟩⟩
  · simp [State.commits, h.log]
  · simp [State.commits, h.log]

theorem State.commits_publish_self {i : ι} {copy row : ρ} :
    (s.publish i copy row).commits counts (key row) =
      s.commits counts (key row) + if counts i then 1 else 0 := by
  simp [State.commits, State.publish, List.countP_append, List.countP_singleton]

theorem State.commits_publish_of_ne {i : ι} {copy row : ρ} {k : κ} (hk : k ≠ key row) :
    (s.publish i copy row).commits counts k = s.commits counts k := by
  simp [State.commits, State.publish, List.countP_append, Ne.symm hk]

omit [DecidableEq κ] [DecidableEq ι] in
/-- What a transaction writes in the column of the count. -/
theorem Counter.count_row {i : ι} {copy row : ρ} (hcounter : Counter prog count limit top counts)
    (h : (prog i).update copy = some row) (hbelow : counts i → count copy < top) :
    count row = count copy + if counts i then 1 else 0 := by
  rcases hcounts : counts i with _ | _
  · exact (hcounter.keeps hcounts h).trans (Int.add_zero _).symm
  · exact hcounter.adds hcounts h (hbelow hcounts)

omit [DecidableEq ι] in
/-- The row of a transaction in flight, and the count that it should have. -/
theorem CounterInv.exists_count {i : ι} {copy row : ρ}
    (hs : CounterInv prog count limit counts s₀ s) (h : s.Holds i copy row) :
    ∃ r₀ stored, s₀.rows.find? (key row) = some r₀ ∧ limit r₀ = limit copy ∧
      s.rows.find? (key row) = some stored ∧
      count stored = count r₀ + s.commits counts (key row) ∧
      ∀ m ∈ limit copy, 0 < s.commits counts (key row) →
        count r₀ + s.commits counts (key row) ≤ m := by
  obtain ⟨r₀, hr₀, hlimit⟩ := Option.map_eq_some_iff.mp (hs.frozen.held h).2
  obtain ⟨stored, hstored, hsame, hcount, hbound⟩ := hs.counted (key row) r₀ hr₀
  rw [hsame, hlimit] at hbound
  exact ⟨r₀, stored, hr₀, hlimit, hstored, hcount, hbound⟩

theorem CounterInv.publish {i : ι} {copy row : ρ} (hcounter : Counter prog count limit top counts)
    (hs : CounterInv prog count limit counts s₀ s) (hpc : s.pc i = .written copy row)
    (hok : current count top counts s (.commit i) = true) :
    Counted count limit counts s₀ (s.publish i copy row) := by
  obtain ⟨hupdate, -⟩ := hs.frozen.held (.inr hpc)
  obtain ⟨r₀, stored, hr₀, hlimit, hstored, hcount, hbound⟩ := hs.exists_count (.inr hpc)
  simp only [current, hpc, hstored, Option.all_some, Bool.and_eq_true, decide_eq_true_eq,
    Bool.or_eq_true, Bool.not_eq_true', ← Bool.not_eq_true, ← imp_iff_not_or] at hok
  intro k r hr
  by_cases hk : k = key row
  · subst hk
    have hrr : r = r₀ := Option.some.inj (hr.symm.trans hr₀)
    have hrow := hcounter.count_row hupdate hok.2
    refine ⟨row, by rw [Option.mem_def, State.find?_publish, if_pos rfl], ?_, ?_, fun m hm => ?_⟩
    · rw [hrr, hlimit, hcounter.frozen hupdate]
    · rw [hrr, State.commits_publish_self]
      split_ifs at hrow ⊢ <;> omega
    · rw [hcounter.frozen hupdate] at hm
      rw [hrr, State.commits_publish_self]
      split_ifs with hcounts
      · have hbelow := hcounter.below hcounts hupdate m hm
        omega
      · exact hbound m hm
  · obtain ⟨r', hr', hsame, hcount', hbound'⟩ := hs.counted k r hr
    rw [← State.commits_publish_of_ne hk] at hcount' hbound'
    exact ⟨r', by rwa [Option.mem_def, State.find?_publish, if_neg hk], hsame, hcount', hbound'⟩

/-- The invariant is kept by every step that commits over the count that it has read. -/
theorem CounterInv.step (hcounter : Counter prog count limit top counts)
    (hs : CounterInv prog count limit counts s₀ s) (hok : current count top counts s a = true)
    (h : step prog s a = some t) : CounterInv prog count limit counts s₀ t := by
  refine ⟨hs.frozen.step hcounter.frozen h, ?_⟩
  rcases step_cases h with ⟨i, copy, row, rfl, hpc, rfl⟩ | ⟨-, hquiet⟩
  · exact hs.publish hcounter hpc hok
  · intro k r₀ hr₀
    rw [hquiet.rows, State.commits, hquiet.log]
    exact hs.counted k r₀ hr₀

/-- A step that commits over another count than it has read is not counted. -/
theorem not_counted_of_not_current (hcounter : Counter prog count limit top counts)
    (hs : CounterInv prog count limit counts s₀ s) (hbad : current count top counts s a = false)
    (h : step prog s a = some t) : ¬ Counted count limit counts s₀ t := by
  rcases step_cases h with ⟨i, copy, row, rfl, hpc, rfl⟩ | ⟨hother, -⟩
  · obtain ⟨hupdate, -⟩ := hs.frozen.held (.inr hpc)
    obtain ⟨r₀, stored, hr₀, -, hstored, hcount, -⟩ := hs.exists_count (.inr hpc)
    simp only [current, hpc, hstored, Option.all_some, Bool.and_eq_false_iff,
      decide_eq_false_iff_not, Bool.or_eq_false_iff, Bool.not_eq_false'] at hbad
    intro hcounted
    obtain ⟨r, hr, -, hnew, -⟩ := hcounted (key row) r₀ hr₀
    rw [Option.mem_def, State.find?_publish, if_pos rfl] at hr
    rw [← Option.some.inj hr, State.commits_publish_self] at hnew
    by_cases hover : counts i ∧ top ≤ count copy
    · -- the count that wraps is not the next one of any row
      have hwraps := hcounter.wraps hover.1 hupdate hover.2 stored
      rw [if_pos hover.1] at hnew
      omega
    · rw [not_and, not_le] at hover
      have hrow := hcounter.count_row hupdate hover
      rcases hbad with hstale | ⟨hcounts, htop⟩
      · split_ifs at hrow hnew <;> omega
      · exact absurd (hover hcounts) htop
  · cases a with
    | commit i => exact absurd rfl (hother i)
    | read | write | rollback => exact nomatch hbad

/-- In every run whose transactions commit over the counts that they have read, the commits are
counted; another commit is not. -/
theorem counted_of_reaches (hcounter : Counter prog count limit top counts) (h₀ : Starting s₀)
    (h : Reaches (step prog) (fun s a => current count top counts s a = true) s₀ s) :
    Counted count limit counts s₀ s ∧ ∀ a t, ReadCommitted.step prog s a = some t →
      (Counted count limit counts s₀ t ↔ current count top counts s a = true) := by
  have hs : CounterInv prog count limit counts s₀ s :=
    h.invariant (CounterInv prog count limit counts s₀)
      (fun hu hok hstep => hu.step hcounter hok hstep) h₀.counterInv
  refine ⟨hs.counted, fun a t hstep =>
    ⟨fun hcounted => ?_, fun hok => (hs.step hcounter hok hstep).counted⟩⟩
  by_contra hbad
  rw [Bool.not_eq_true] at hbad
  exact not_counted_of_not_current hcounter hs hbad hstep hcounted

end Counters

end Steps

end ReadCommitted
