import EdgeGuardian.Lib.Transition
import Mathlib.Data.List.Basic
import Mathlib.Logic.Function.Basic
import Mathlib.Order.Nat

/-!
# Transactions that read one row and save it whole

Any number of transactions work on the row of one key of a table, which need not exist. Each of them
notes the time, reads the row, reads the clock again, computes a new row from its copy and saves it
whole: it inserts a row where it has read none, and a unique key admits only one such insert. At
READ COMMITTED a read sees what is committed, a row that another transaction has written can be
written only after that one has ended, and nothing checks that the row is still as it was read. The
statements of the transactions are interleaved in any order, and the clock does not go back.

Everything that was ever committed is kept as a history, and a copy is an entry of it. Two kinds of
columns are followed. A number that every transaction counts up numbers the history as long as every
transaction commits over the number that it has read. A time stamp that some transactions renew and
the others write back never decreases as long as no transaction overlooks a renewal.

## Main definitions

* `SharedRow.Program`, `SharedRow.Draft`, `SharedRow.Pc`: what a transaction does and holds.
* `SharedRow.State`, `SharedRow.step`: the row, its lock, the clock and the transactions.
* `SharedRow.history`, `SharedRow.Sound`: the committed rows, and what every transaction knows.
* `SharedRow.Numbering`, `SharedRow.Numbered`, `SharedRow.current`.
* `SharedRow.Stamping`, `SharedRow.Stamped`, `SharedRow.overlooks`.

## Main results

* `SharedRow.step_cases`: a step is a commit, or changes neither the row nor the history.
* `SharedRow.row_of_exec_alone`: a transaction that runs alone.
* `SharedRow.sound_of_reaches`: every copy is an entry of the history.
* `SharedRow.numbered_of_reaches`, `SharedRow.not_numbered_of_not_current`: numbers along runs.
* `SharedRow.StampInv.step`: time stamps along runs.
-/

namespace SharedRow

open Transition

/-! ### Programs and states -/

/-- What a transaction saves, from the time at which it began, the time at which it computes the row
and the row as it has read it; `none` where it saves nothing. -/
abbrev Program (ρ : Type*) := (began now : ℕ) → Option ρ → Option ρ

/-- What a transaction knows once it has read the row: when it began, how many commits there had
been, and the row. -/
structure View (ρ : Type*) where
  began : ℕ
  seen : ℕ
  copy : Option ρ
deriving DecidableEq, Repr

/-- A row to save, with the time at which it was computed. -/
structure Draft (ρ : Type*) extends View ρ where
  now : ℕ
  row : ρ
deriving DecidableEq, Repr

/-- Where a transaction is. -/
inductive Pc (ρ : Type*)
  | ready
  | started (began : ℕ)
  | read (v : View ρ)
  | computed (d : Draft ρ)
  | written (d : Draft ρ)
  | committed (d : Draft ρ)
  /-- The transaction has saved nothing, or was rolled back. -/
  | ended
deriving DecidableEq, Repr

/-- The clock, the committed row, the transaction that has written it and not ended, the points of
all transactions, and the commits so far. -/
structure State (ι ρ : Type*) where
  clock : ℕ
  row : Option ρ
  lock : Option ι
  pc : ι → Pc ρ
  log : List (ι × Draft ρ)

/-- Time passes, or a transaction takes its next statement. -/
inductive Action (ι : Type*)
  | tick (n : ℕ)
  | start (i : ι)
  | read (i : ι)
  | compute (i : ι)
  | write (i : ι)
  | commit (i : ι)
  | rollback (i : ι)
deriving DecidableEq, Repr

section Steps

variable {ι ρ : Type*} [DecidableEq ι]

/-- The state with a transaction at another point. -/
def State.moved (s : State ι ρ) (i : ι) (pc : Pc ρ) : State ι ρ :=
  { s with pc := Function.update s.pc i pc }

/-- The state after the commit of a transaction. -/
def State.publish (s : State ι ρ) (i : ι) (d : Draft ρ) : State ι ρ where
  clock := s.clock
  row := some d.row
  lock := none
  pc := Function.update s.pc i (.committed d)
  log := s.log ++ [(i, d)]

/-- One statement. -/
def step (prog : ι → Program ρ) (s : State ι ρ) : Action ι → Option (State ι ρ)
  | .tick n => some { s with clock := s.clock + n }
  | .start i =>
    match s.pc i with
    | .ready => some (s.moved i (.started s.clock))
    | _ => none
  | .read i =>
    match s.pc i with
    | .started began => some (s.moved i (.read ⟨began, s.log.length, s.row⟩))
    | _ => none
  | .compute i =>
    match s.pc i with
    | .read v =>
      match prog i v.began s.clock v.copy with
      | some row => some (s.moved i (.computed ⟨v, s.clock, row⟩))
      | none => some (s.moved i .ended)
    | _ => none
  | .write i =>
    match s.pc i with
    | .computed d =>
      if s.lock.isSome then none
      -- The key of an insert is taken.
      else if d.copy.isNone && s.row.isSome then some (s.moved i .ended)
      else some { s.moved i (.written d) with lock := some i }
    | _ => none
  | .commit i =>
    match s.pc i with
    | .written d => some (s.publish i d)
    | _ => none
  | .rollback i =>
    match s.pc i with
    | .ready | .started _ | .read _ | .computed _ => some (s.moved i .ended)
    | .written _ => some { s.moved i .ended with lock := none }
    | .committed _ | .ended => none

/-- The state in which no transaction has begun. -/
def State.start (clock : ℕ) (row : Option ρ) : State ι ρ where
  clock := clock
  row := row
  lock := none
  pc := fun _ => .ready
  log := []

/-- The states from which runs start: no transaction has begun. -/
structure Starting (s : State ι ρ) : Prop where
  pc : ∀ i, s.pc i = .ready
  lock : s.lock = none
  log : s.log = []

end Steps

variable {ι ρ : Type*} [DecidableEq ι] {prog : ι → Program ρ} {s t : State ι ρ} {a : Action ι}

/-- The transaction has the view of the row and has not ended. -/
def State.Views (s : State ι ρ) (i : ι) (v : View ρ) : Prop :=
  s.pc i = .read v ∨ ∃ d, d.toView = v ∧ (s.pc i = .computed d ∨ s.pc i = .written d)

/-- The transaction has computed the row to save and has not ended. -/
def State.Drafts (s : State ι ρ) (i : ι) (d : Draft ρ) : Prop :=
  s.pc i = .computed d ∨ s.pc i = .written d

/-! ### Steps -/

/-- A step that commits nothing: what a transaction knows after it, it knew before or has just
noted, read or computed. -/
structure Quiet (prog : ι → Program ρ) (s t : State ι ρ) : Prop where
  row : t.row = s.row
  log : t.log = s.log
  clock : s.clock ≤ t.clock
  started : ∀ i b, t.pc i = .started b → s.pc i = .started b ∨ b = s.clock
  views : ∀ i v, t.Views i v → s.Views i v ∨
    s.pc i = .started v.began ∧ v.seen = s.log.length ∧ v.copy = s.row
  drafts : ∀ i d, t.Drafts i d → s.Drafts i d ∨
    s.Views i d.toView ∧ d.now = s.clock ∧ prog i d.began d.now d.copy = some d.row

theorem State.moved_pc_self {i : ι} {pc : Pc ρ} : (s.moved i pc).pc i = pc := by
  simp only [State.moved, Function.update_self]

theorem State.moved_pc_of_ne {i j : ι} {pc : Pc ρ} (h : j ≠ i) : (s.moved i pc).pc j = s.pc j := by
  simp only [State.moved, Function.update_of_ne h]

/-- A transaction that only moves commits nothing, if what it then knows is as it should be. -/
theorem Quiet.of_moved {i : ι} {pc : Pc ρ} (hrow : t.row = s.row) (hlog : t.log = s.log)
    (hclock : t.clock = s.clock) (hpc : t.pc = (s.moved i pc).pc)
    (hstarted : ∀ b, pc = .started b → b = s.clock)
    (hread : ∀ v, pc = .read v → s.pc i = .started v.began ∧ v.seen = s.log.length ∧ v.copy = s.row)
    (hcomputed : ∀ d, pc = .computed d → s.pc i = .read d.toView ∧ d.now = s.clock ∧
      prog i d.began d.now d.copy = some d.row)
    (hwritten : ∀ d, pc = .written d → s.pc i = .computed d) : Quiet prog s t := by
  refine ⟨hrow, hlog, Nat.le_of_eq hclock.symm, fun j b hj => ?_, fun j v hj => ?_,
    fun j d hj => ?_⟩
  · rw [hpc] at hj
    by_cases hji : j = i
    · subst hji
      rw [State.moved_pc_self] at hj
      exact .inr (hstarted b hj)
    · rw [State.moved_pc_of_ne hji] at hj
      exact .inl hj
  · rw [State.Views, hpc] at hj
    by_cases hji : j = i
    · subst hji
      rw [State.moved_pc_self] at hj
      rcases hj with hj | ⟨d, rfl, hj | hj⟩
      · exact .inr (hread v hj)
      · exact .inl (.inl (hcomputed d hj).1)
      · exact .inl (.inr ⟨d, rfl, .inl (hwritten d hj)⟩)
    · rw [State.moved_pc_of_ne hji] at hj
      exact .inl hj
  · rw [State.Drafts, hpc] at hj
    by_cases hji : j = i
    · subst hji
      rw [State.moved_pc_self] at hj
      rcases hj with hj | hj
      · obtain ⟨hview, hnow, hprog⟩ := hcomputed d hj
        exact .inr ⟨.inl hview, hnow, hprog⟩
      · exact .inl (.inl (hwritten d hj))
    · rw [State.moved_pc_of_ne hji] at hj
      exact .inl hj

/-- A transaction that ends knows nothing. -/
theorem Quiet.of_ended {i : ι} (hrow : t.row = s.row) (hlog : t.log = s.log)
    (hclock : t.clock = s.clock) (hpc : t.pc = (s.moved i .ended).pc) : Quiet prog s t :=
  .of_moved hrow hlog hclock hpc (by simp) (by simp)
    (by simp) (by simp)

theorem quiet_start {i : ι} (h : step prog s (.start i) = some t) : Quiet prog s t := by
  simp only [step] at h
  split at h
  · cases h
    refine .of_moved rfl rfl rfl rfl ?_ ?_ ?_ ?_
    · exact fun b hb => (Pc.started.inj hb).symm
    all_goals simp
  · exact absurd h.symm (Option.some_ne_none _)

theorem quiet_read {i : ι} (h : step prog s (.read i) = some t) : Quiet prog s t := by
  simp only [step] at h
  split at h
  · rename_i began hpc
    cases h
    refine .of_moved rfl rfl rfl rfl ?_ ?_ ?_ ?_
    · simp
    · intro v hv
      rw [← Pc.read.inj hv]
      exact ⟨hpc, rfl, rfl⟩
    all_goals simp
  · exact absurd h.symm (Option.some_ne_none _)

theorem quiet_compute {i : ι} (h : step prog s (.compute i) = some t) : Quiet prog s t := by
  simp only [step] at h
  split at h
  · rename_i v hpc
    split at h
    · rename_i row hprog
      cases h
      refine .of_moved rfl rfl rfl rfl ?_ ?_ ?_ ?_
      · simp
      · simp
      · intro d hd
        rw [← Pc.computed.inj hd]
        exact ⟨hpc, rfl, hprog⟩
      · simp
    · cases h
      exact .of_ended rfl rfl rfl rfl
  · exact absurd h.symm (Option.some_ne_none _)

theorem quiet_write {i : ι} (h : step prog s (.write i) = some t) : Quiet prog s t := by
  simp only [step] at h
  split at h
  · rename_i d hpc
    split_ifs at h
    · cases h
      exact .of_ended rfl rfl rfl rfl
    · cases h
      have hmoved : ({ s.moved i (.written d) with lock := some i } : State ι ρ).pc =
          (s.moved i (.written d)).pc := rfl
      refine .of_moved rfl rfl rfl hmoved ?_ ?_ ?_ ?_
      · simp
      · simp
      · simp
      · intro d' hd'
        rwa [← Pc.written.inj hd']
  · exact absurd h.symm (Option.some_ne_none _)

theorem quiet_rollback {i : ι} (h : step prog s (.rollback i) = some t) : Quiet prog s t := by
  simp only [step] at h
  split at h
  all_goals first
    | (cases h; exact .of_ended rfl rfl rfl rfl)
    | exact absurd h.symm (Option.some_ne_none _)

/-- **What a step does.** It commits a row, or it is quiet. -/
theorem step_cases (h : step prog s a = some t) :
    (∃ i d, a = .commit i ∧ s.pc i = .written d ∧ t = s.publish i d) ∨
      (∀ i, a ≠ .commit i) ∧ Quiet prog s t := by
  cases a with
  | tick n =>
    cases h
    exact .inr ⟨by simp, rfl, rfl, Nat.le_add_right _ _,
      fun _ _ h => .inl h, fun _ _ h => .inl h, fun _ _ h => .inl h⟩
  | start i => exact .inr ⟨by simp, quiet_start h⟩
  | read i => exact .inr ⟨by simp, quiet_read h⟩
  | compute i => exact .inr ⟨by simp, quiet_compute h⟩
  | write i => exact .inr ⟨by simp, quiet_write h⟩
  | commit i =>
    simp only [step] at h
    split at h
    · rename_i d hpc
      cases h
      exact .inl ⟨i, d, rfl, hpc, rfl⟩
    · exact absurd h.symm (Option.some_ne_none _)
  | rollback i => exact .inr ⟨by simp, quiet_rollback h⟩

/-- A transaction that runs alone saves what its program makes of the row. -/
theorem row_of_exec_alone (prog : ι → Program ρ) {clock : ℕ} {row : Option ρ} {i : ι} {row' : ρ}
    (h : prog i clock clock row = some row') :
    (exec (step prog) (.start clock row) [.start i, .read i, .compute i, .write i, .commit i]).map
      State.row = some (some row') := by
  cases row <;> simp [execBy, step, State.moved, State.publish, State.start, h]

/-! ### The history -/

/-- Everything that was ever committed, in order: what there was at the start, and the rows of the
commits. -/
def history (first : Option ρ) (log : List (ι × Draft ρ)) : List (Option ρ) :=
  first :: log.map fun e => some e.2.row

section History

variable {first : Option ρ} {log : List (ι × Draft ρ)}

omit [DecidableEq ι] in
theorem history_append {i : ι} {d : Draft ρ} :
    history first (log ++ [(i, d)]) = history first log ++ [some d.row] := by
  simp only [history, List.map_append, List.map_cons, List.map_nil, List.cons_append]

omit [DecidableEq ι] in
theorem length_history : (history first log).length = log.length + 1 := by
  simp only [history, List.length_cons, List.length_map]

omit [DecidableEq ι] in
/-- An entry of the history, after one more commit. -/
theorem getElem?_history_append {n : ℕ} {i : ι} {d : Draft ρ} {r : Option ρ} :
    (history first (log ++ [(i, d)]))[n]? = some r ↔
      (history first log)[n]? = some r ∨ n = log.length + 1 ∧ r = some d.row := by
  rw [history_append]
  by_cases hn : n < (history first log).length
  · rw [List.getElem?_append_left hn]
    rw [length_history] at hn
    constructor
    · exact .inl
    · rintro (h | ⟨rfl, -⟩)
      · exact h
      · omega
  · rw [List.getElem?_append_right (Nat.le_of_not_lt hn), List.getElem?_eq_none_iff.mpr
      (Nat.le_of_not_lt hn), length_history, List.getElem?_singleton]
    rw [length_history] at hn
    split_ifs with hzero
    · have hlast : n = log.length + 1 := by omega
      simp [hlast, eq_comm]
    · have hlast : n ≠ log.length + 1 := by omega
      simp [hlast]

end History

/-- A draft is what its transaction saves of the copy, and was computed before now. -/
structure Draft.Valid (prog : ι → Program ρ) (clock : ℕ) (i : ι) (d : Draft ρ) : Prop where
  prog : prog i d.began d.now d.copy = some d.row
  began : d.began ≤ d.now
  now : d.now ≤ clock

omit [DecidableEq ι] in
theorem Draft.Valid.mono {clock clock' : ℕ} {i : ι} {d : Draft ρ} (h : d.Valid prog clock i)
    (hle : clock ≤ clock') : d.Valid prog clock' i :=
  ⟨h.prog, h.began, h.now.trans hle⟩

/-- What every transaction knows: its times are past, its copy is an entry of the history, and its
draft is computed from the copy. -/
structure Sound (prog : ι → Program ρ) (first : Option ρ) (s : State ι ρ) : Prop where
  started : ∀ {i b}, s.pc i = .started b → b ≤ s.clock
  viewed : ∀ {i v}, s.Views i v → v.began ≤ s.clock ∧ (history first s.log)[v.seen]? = some v.copy
  drafted : ∀ {i d}, s.Drafts i d → d.Valid prog s.clock i
  logged : ∀ {i d}, (i, d) ∈ s.log → d.Valid prog s.clock i
  stored : (history first s.log)[s.log.length]? = some s.row

section Sound

variable {first : Option ρ} {s₀ : State ι ρ}

omit [DecidableEq ι] in
theorem starting_start (clock : ℕ) (row : Option ρ) : Starting (.start clock row : State ι ρ) :=
  ⟨fun _ => rfl, rfl, rfl⟩

omit [DecidableEq ι] in
theorem Starting.not_views (h : Starting s) (i : ι) (v : View ρ) : ¬ s.Views i v := by
  rw [State.Views, h.pc i]
  simp

omit [DecidableEq ι] in
theorem Starting.not_drafts (h : Starting s) (i : ι) (d : Draft ρ) : ¬ s.Drafts i d := by
  rw [State.Drafts, h.pc i]
  simp

omit [DecidableEq ι] in
theorem Starting.sound (h : Starting s) : Sound prog s.row s := by
  refine ⟨fun {i b} hi => ?_, fun hv => absurd hv (h.not_views _ _),
    fun hd => absurd hd (h.not_drafts _ _), fun {i d} hd => ?_, ?_⟩
  · rw [h.pc i] at hi
    simp at hi
  · rw [h.log] at hd
    exact absurd hd List.not_mem_nil
  · simp [history, h.log]

theorem State.publish_pc_of_ne {i j : ι} {d : Draft ρ} (h : j ≠ i) :
    (s.publish i d).pc j = s.pc j := by
  simp only [State.publish, Function.update_of_ne h]

theorem State.publish_pc_self {i : ι} {d : Draft ρ} : (s.publish i d).pc i = .committed d := by
  simp only [State.publish, Function.update_self]

/-- A commit gives no other transaction a view. -/
theorem State.views_of_publish {i j : ι} {d : Draft ρ} {v : View ρ}
    (h : (s.publish i d).Views j v) : s.Views j v := by
  by_cases hji : j = i
  · subst hji
    rw [State.Views, State.publish_pc_self] at h
    simp at h
  · rwa [State.Views, State.publish_pc_of_ne hji] at h

theorem State.drafts_of_publish {i j : ι} {d d' : Draft ρ} (h : (s.publish i d).Drafts j d') :
    s.Drafts j d' := by
  by_cases hji : j = i
  · subst hji
    rw [State.Drafts, State.publish_pc_self] at h
    simp at h
  · rwa [State.Drafts, State.publish_pc_of_ne hji] at h

theorem Sound.publish {i : ι} {d : Draft ρ} (hs : Sound prog first s) (hpc : s.pc i = .written d) :
    Sound prog first (s.publish i d) := by
  refine ⟨fun {j b} hj => ?_, fun {j v} hv => ?_, fun {j d'} hd => ?_, fun {j d'} hd => ?_, ?_⟩
  · by_cases hji : j = i
    · subst hji
      rw [State.publish_pc_self] at hj
      simp at hj
    · rw [State.publish_pc_of_ne hji] at hj
      exact hs.started hj
  · obtain ⟨hbegan, hcopy⟩ := hs.viewed (State.views_of_publish hv)
    exact ⟨hbegan, getElem?_history_append.mpr (.inl hcopy)⟩
  · exact hs.drafted (State.drafts_of_publish hd)
  · rcases List.mem_append.mp hd with hd | hd
    · exact hs.logged hd
    · obtain ⟨rfl, rfl⟩ := Prod.mk.inj (List.mem_singleton.mp hd)
      exact hs.drafted (.inr hpc)
  · refine getElem?_history_append.mpr (.inr ⟨?_, rfl⟩)
    simp only [State.publish, List.length_append, List.length_singleton]

theorem Sound.step (hs : Sound prog first s) (h : step prog s a = some t) :
    Sound prog first t := by
  rcases step_cases h with ⟨i, d, rfl, hpc, rfl⟩ | ⟨-, hquiet⟩
  · exact hs.publish hpc
  · refine ⟨fun {i b} hi => ?_, fun {i v} hv => ?_, fun {i d} hd => ?_, fun {i d} hd => ?_, ?_⟩
    · rcases hquiet.started i b hi with hi | rfl
      · exact (hs.started hi).trans hquiet.clock
      · exact hquiet.clock
    · rw [hquiet.log]
      rcases hquiet.views i v hv with hv | ⟨hstarted, hseen, hcopy⟩
      · obtain ⟨hbegan, hcopy⟩ := hs.viewed hv
        exact ⟨hbegan.trans hquiet.clock, hcopy⟩
      · rw [hseen, hcopy]
        exact ⟨(hs.started hstarted).trans hquiet.clock, hs.stored⟩
    · rcases hquiet.drafts i d hd with hd | ⟨hview, hnow, hprog⟩
      · exact (hs.drafted hd).mono hquiet.clock
      · refine ⟨hprog, ?_, ?_⟩
        · rw [hnow]
          exact (hs.viewed hview).1
        · rw [hnow]
          exact hquiet.clock
    · rw [hquiet.log] at hd
      exact (hs.logged hd).mono hquiet.clock
    · rw [hquiet.log, hquiet.row]
      exact hs.stored

/-- Every copy is an entry of the history. -/
theorem sound_of_reaches {ok : State ι ρ → Action ι → Prop} (h₀ : Starting s₀)
    (h : Reaches (step prog) ok s₀ s) : Sound prog s₀.row s :=
  h.invariant (Sound prog s₀.row) (fun hu _ hstep => hu.step hstep) h₀.sound

end Sound

/-! ### Numbers -/

/-- The number of a row, 0 where there is none. -/
def numberOf (number : ρ → ℕ) (r : Option ρ) : ℕ := r.elim 0 number

/-- Every transaction counts up the number that it has read. -/
structure Numbering (prog : ι → Program ρ) (number : ρ → ℕ) : Prop where
  counted : ∀ {i began now copy row}, prog i began now copy = some row →
    number row = numberOf number copy + 1

/-- The history is numbered. -/
def Numbered (number : ρ → ℕ) (first : Option ρ) (s : State ι ρ) : Prop :=
  ∀ n r, (history first s.log)[n]? = some r → numberOf number r = numberOf number first + n

/-- A transaction commits only over the number that it has read. -/
def current (number : ρ → ℕ) (s : State ι ρ) : Action ι → Bool
  | .commit i =>
    match s.pc i with
    | .written d => numberOf number s.row = numberOf number d.copy
    | _ => true
  | .tick _ | .start _ | .read _ | .compute _ | .write _ | .rollback _ => true

section Numbers

variable {number : ρ → ℕ} {first : Option ρ} {s₀ : State ι ρ}

omit [DecidableEq ι] in
theorem Starting.numbered (h : Starting s) : Numbered number s.row s := by
  intro n r hr
  rw [history, h.log, List.map_nil, List.getElem?_singleton] at hr
  split_ifs at hr with hn
  rw [← Option.some.inj hr, hn, Nat.add_zero]

theorem Numbered.step (hnumbering : Numbering prog number) (hsound : Sound prog first s)
    (hs : Numbered number first s) (hok : current number s a = true)
    (h : step prog s a = some t) : Numbered number first t := by
  rcases step_cases h with ⟨i, d, rfl, hpc, rfl⟩ | ⟨-, hquiet⟩
  · simp only [current, hpc, decide_eq_true_eq] at hok
    intro n r hr
    rcases getElem?_history_append.mp hr with hr | ⟨rfl, rfl⟩
    · exact hs n r hr
    · have hrow : numberOf number s.row = numberOf number first + s.log.length :=
        hs _ _ hsound.stored
      have hnew : number d.row = numberOf number d.copy + 1 :=
        hnumbering.counted (hsound.drafted (.inr hpc)).prog
      show number d.row = _
      omega
  · intro n r hr
    rw [hquiet.log] at hr
    exact hs n r hr

theorem numbered_of_reaches (hnumbering : Numbering prog number) (h₀ : Starting s₀)
    (h : Reaches (step prog) (fun s a => current number s a = true) s₀ s) :
    Numbered number s₀.row s := by
  have hs : Sound prog s₀.row s ∧ Numbered number s₀.row s :=
    h.invariant (fun s => Sound prog s₀.row s ∧ Numbered number s₀.row s)
      (fun hu hok hstep => ⟨hu.1.step hstep, hu.2.step hnumbering hu.1 hok hstep⟩)
      ⟨h₀.sound, h₀.numbered⟩
  exact hs.2

omit [DecidableEq ι] in
/-- The number of the stored row counts the commits. -/
theorem Numbered.numberOf_row (hsound : Sound prog first s) (hs : Numbered number first s) :
    numberOf number s.row = numberOf number first + s.log.length :=
  hs _ _ hsound.stored

omit [DecidableEq ι] in
/-- A number belongs to one entry of the history. -/
theorem Numbered.eq_of_numberOf_eq (hs : Numbered number first s) {r r' : Option ρ}
    (hr : r ∈ history first s.log) (hr' : r' ∈ history first s.log)
    (heq : numberOf number r = numberOf number r') : r = r' := by
  obtain ⟨n, hn⟩ := List.getElem?_of_mem hr
  obtain ⟨n', hn'⟩ := List.getElem?_of_mem hr'
  have hnumber := hs n r hn
  have hnumber' := hs n' r' hn'
  have hsame : n = n' := by omega
  rw [hsame] at hn
  exact Option.some.inj (hn.symm.trans hn')

/-- A step that commits over another number than it has read leaves a number that does not count the
commits. -/
theorem not_numbered_of_not_current (hnumbering : Numbering prog number)
    (hsound : Sound prog first s) (hs : Numbered number first s)
    (hbad : current number s a = false) (h : step prog s a = some t) :
    numberOf number t.row ≠ numberOf number first + t.log.length := by
  rcases step_cases h with ⟨i, d, rfl, hpc, rfl⟩ | ⟨hother, -⟩
  · simp only [current, hpc, decide_eq_false_iff_not] at hbad
    have hrow : numberOf number s.row = numberOf number first + s.log.length :=
      hs.numberOf_row hsound
    have hnew : number d.row = numberOf number d.copy + 1 :=
      hnumbering.counted (hsound.drafted (.inr hpc)).prog
    have hlog : (s.publish i d).log.length = s.log.length + 1 := by
      simp only [State.publish, List.length_append, List.length_singleton]
    show number d.row ≠ _
    omega
  · cases a with
    | commit i => exact absurd rfl (hother i)
    | tick | start | read | compute | write | rollback => exact absurd hbad (by simp [current])

end Numbers

/-! ### Time stamps -/

/-- The time stamp of a row, none where there is no row. -/
def stampOf (stamp : ρ → Option ℕ) (r : Option ρ) : Option ℕ := r.bind stamp

/-- Some transactions renew the time stamp of the row, and the others write it back as they have
read it. -/
structure Stamping (prog : ι → Program ρ) (stamp : ρ → Option ℕ) (renews : ι → Bool) : Prop where
  renewed : ∀ {i began now copy row}, renews i → prog i began now copy = some row →
    stamp row = some now
  kept : ∀ {i began now copy row}, renews i = false → prog i began now copy = some row →
    stamp row = stampOf stamp copy

/-- The time stamp never decreases. -/
def Stamped (stamp : ρ → Option ℕ) (first : Option ρ) (s : State ι ρ) : Prop :=
  (history first s.log).Pairwise fun r r' => stampOf stamp r ≤ stampOf stamp r'

/-- A transaction commits although the stamp was renewed after it has read the row: a transaction
that does not renew it, or one that renews it with an earlier time. -/
def overlooks (renews : ι → Bool) (s : State ι ρ) : Action ι → Bool
  | .commit i =>
    match s.pc i with
    | .written d =>
      (s.log.drop d.seen).any fun e => renews e.1 && (!renews i || decide (d.now < e.2.now))
    | _ => false
  | .tick _ | .start _ | .read _ | .compute _ | .write _ | .rollback _ => false

/-- The invariant: the stored stamp is the one that a transaction has read, or one that was renewed
since. -/
structure StampInv (prog : ι → Program ρ) (stamp : ρ → Option ℕ) (renews : ι → Bool)
    (first : Option ρ) (s : State ι ρ) : Prop where
  sound : Sound prog first s
  stamped : Stamped stamp first s
  bounded : stampOf stamp s.row ≤ some s.clock
  drafted : ∀ {i d}, s.Drafts i d → stampOf stamp d.copy ≤ some d.now
  since : ∀ {i v}, s.Views i v →
    (∀ e ∈ s.log.drop v.seen, renews e.1 = false) ∧ stampOf stamp s.row = stampOf stamp v.copy ∨
      ∃ e ∈ s.log.drop v.seen, renews e.1 ∧ stampOf stamp s.row = some e.2.now

section Stamps

variable {stamp : ρ → Option ℕ} {renews : ι → Bool} {first : Option ρ}

theorem optionLe_refl (x : Option ℕ) : x ≤ x := by
  cases x <;> simp

theorem optionLe_trans {x y z : Option ℕ} (hxy : x ≤ y) (hyz : y ≤ z) : x ≤ z := by
  cases x <;> cases y <;> cases z <;> simp at *
  omega

omit [DecidableEq ι] in
theorem Starting.stampInv (h : Starting s) (hclock : stampOf stamp s.row ≤ some s.clock) :
    StampInv prog stamp renews s.row s := by
  refine ⟨h.sound, ?_, hclock, fun hd => absurd hd (h.not_drafts _ _),
    fun hv => absurd hv (h.not_views _ _)⟩
  simp [Stamped, history, h.log]

omit [DecidableEq ι] in
/-- No stamp was ever later than the stored one. -/
theorem StampInv.stampOf_le_row (hs : StampInv prog stamp renews first s) {r : Option ρ}
    (hr : r ∈ history first s.log) : stampOf stamp r ≤ stampOf stamp s.row := by
  obtain ⟨n, hn⟩ := List.getElem?_of_mem hr
  obtain ⟨hlast, hstored⟩ := List.getElem?_eq_some_iff.mp hs.sound.stored
  obtain ⟨hlt, rfl⟩ := List.getElem?_eq_some_iff.mp hn
  rw [length_history] at hlt
  by_cases hend : n = s.log.length
  · subst hend
    rw [hstored]
    exact optionLe_refl _
  · rw [← hstored]
    exact List.pairwise_iff_getElem.mp hs.stamped n s.log.length _ hlast (by omega)

omit [DecidableEq ι] in
/-- The stored stamp is not earlier than any that was renewed. -/
theorem StampInv.renewed_le_row (hstamping : Stamping prog stamp renews)
    (hs : StampInv prog stamp renews first s) {e : ι × Draft ρ} (he : e ∈ s.log)
    (hrenews : renews e.1) : some e.2.now ≤ stampOf stamp s.row := by
  have hmem : some e.2.row ∈ history first s.log :=
    List.mem_cons_of_mem _ (List.mem_map_of_mem he)
  have hstamp : stamp e.2.row = some e.2.now := hstamping.renewed hrenews (hs.sound.logged he).prog
  have hle := hs.stampOf_le_row hmem
  rwa [stampOf, Option.bind_some, hstamp] at hle

omit [DecidableEq ι] in
theorem StampInv.seen_le (hs : StampInv prog stamp renews first s) {i : ι} {v : View ρ}
    (hv : s.Views i v) : v.seen ≤ s.log.length := by
  obtain ⟨hlt, -⟩ := List.getElem?_eq_some_iff.mp (hs.sound.viewed hv).2
  rw [length_history] at hlt
  omega

omit [DecidableEq ι] in
/-- What a commit that overlooks nothing does to the stamp: it keeps the stored one, or renews
it. -/
theorem StampInv.stamp_row {i : ι} {d : Draft ρ} (hstamping : Stamping prog stamp renews)
    (hs : StampInv prog stamp renews first s) (hpc : s.pc i = .written d)
    (hok : overlooks renews s (.commit i) = false) :
    renews i = false ∧ stamp d.row = stampOf stamp s.row ∨
      renews i ∧ stamp d.row = some d.now ∧ stampOf stamp s.row ≤ some d.now := by
  have hprog := (hs.sound.drafted (.inr hpc)).prog
  have hsince := hs.since (.inr ⟨d, rfl, .inr hpc⟩)
  simp only [overlooks, hpc, List.any_eq_false, Bool.and_eq_true, Bool.or_eq_true,
    Bool.not_eq_eq_eq_not, Bool.not_true, decide_eq_true_eq, not_and, not_or] at hok
  rcases hrenews : renews i with _ | _
  · refine .inl ⟨rfl, ?_⟩
    rcases hsince with ⟨-, hrow⟩ | ⟨e, he, hrenewed, -⟩
    · rw [hrow, hstamping.kept hrenews hprog]
    · exact absurd hrenews (hok e he hrenewed).1
  · refine .inr ⟨rfl, hstamping.renewed hrenews hprog, ?_⟩
    rcases hsince with ⟨-, hrow⟩ | ⟨e, he, hrenewed, hrow⟩
    · rw [hrow]
      exact hs.drafted (.inr hpc)
    · rw [hrow, Option.some_le_some]
      exact Nat.le_of_not_lt (hok e he hrenewed).2

theorem StampInv.publish {i : ι} {d : Draft ρ} (hstamping : Stamping prog stamp renews)
    (hs : StampInv prog stamp renews first s) (hpc : s.pc i = .written d)
    (hok : overlooks renews s (.commit i) = false) :
    StampInv prog stamp renews first (s.publish i d) := by
  have hstamp := hs.stamp_row hstamping hpc hok
  have hnow : d.now ≤ s.clock := (hs.sound.drafted (.inr hpc)).now
  have hle : stampOf stamp s.row ≤ stamp d.row := by
    rcases hstamp with ⟨-, hkept⟩ | ⟨-, hrenewed, hle⟩
    · rw [hkept]
      exact optionLe_refl _
    · rwa [hrenewed]
  refine ⟨hs.sound.publish hpc, ?_, ?_, fun hd => hs.drafted (State.drafts_of_publish hd),
    fun {j v} hv => ?_⟩
  · show (history first (s.log ++ [(i, d)])).Pairwise _
    rw [history_append]
    refine List.pairwise_append.mpr ⟨hs.stamped, List.pairwise_singleton _ _, fun r hr r' hr' => ?_⟩
    rw [List.mem_singleton.mp hr']
    exact optionLe_trans (hs.stampOf_le_row hr) hle
  · show stamp d.row ≤ some s.clock
    rcases hstamp with ⟨-, hkept⟩ | ⟨-, hrenewed, -⟩
    · rw [hkept]
      exact hs.bounded
    · rwa [hrenewed, Option.some_le_some]
  · have hv := State.views_of_publish hv
    have hdrop : (s.publish i d).log.drop v.seen = s.log.drop v.seen ++ [(i, d)] :=
      List.drop_append_of_le_length (hs.seen_le hv)
    rw [hdrop]
    show (_ ∧ stamp d.row = _) ∨ ∃ e, _ ∧ _ ∧ stamp d.row = _
    rcases hstamp with ⟨hrenews, hkept⟩ | ⟨hrenews, hrenewed, -⟩
    · rw [hkept]
      rcases hs.since hv with ⟨hnone, hrow⟩ | ⟨e, he, hrenewed, hrow⟩
      · refine .inl ⟨fun e he => ?_, hrow⟩
        rcases List.mem_append.mp he with he | he
        · exact hnone e he
        · rwa [List.mem_singleton.mp he]
      · exact .inr ⟨e, List.mem_append_left _ he, hrenewed, hrow⟩
    · exact .inr ⟨(i, d), by simp, hrenews, hrenewed⟩

/-- The invariant is kept by every step that overlooks nothing. -/
theorem StampInv.step (hstamping : Stamping prog stamp renews)
    (hs : StampInv prog stamp renews first s) (hok : overlooks renews s a = false)
    (h : step prog s a = some t) : StampInv prog stamp renews first t := by
  have hsound := hs.sound.step h
  rcases step_cases h with ⟨i, d, rfl, hpc, rfl⟩ | ⟨-, hquiet⟩
  · exact hs.publish hstamping hpc hok
  · refine ⟨hsound, ?_, ?_, fun {i d} hd => ?_, fun {i v} hv => ?_⟩
    · rw [Stamped, hquiet.log]
      exact hs.stamped
    · rw [hquiet.row]
      exact optionLe_trans hs.bounded (Option.some_le_some.mpr hquiet.clock)
    · rcases hquiet.drafts i d hd with hd | ⟨hview, hnow, -⟩
      · exact hs.drafted hd
      · rw [hnow]
        have hmem := List.mem_of_getElem? (hs.sound.viewed hview).2
        exact optionLe_trans (hs.stampOf_le_row hmem) hs.bounded
    · rw [hquiet.row, hquiet.log]
      rcases hquiet.views i v hv with hv | ⟨-, hseen, hcopy⟩
      · exact hs.since hv
      · rw [hseen, hcopy, List.drop_length]
        exact .inl ⟨fun e he => absurd he List.not_mem_nil, rfl⟩

end Stamps

end SharedRow
