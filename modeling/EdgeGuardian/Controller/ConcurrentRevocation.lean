import EdgeGuardian.Controller.CrlCompleteness

/-!
# Two revocations at the same time

A transaction that revokes certificates marks their rows, then reads the revoked rows of the
organization and the stored list, and overwrites the list with one that it has built from these. At
READ COMMITTED, which is what the controller runs at, each statement sees what was committed before
it and what its own transaction has written, a row that another transaction has written can be
written only after that one has ended, and nothing checks that a row is still as it was read. So a
list that was built while another transaction had not committed lacks the certificates of that one,
and replaces the list that has them.

A step of the model is one statement, or one row of a batch. The other rows that these transactions
write (requests, new certificates, audit entries) are neither revoked nor lists, and are left out.

Source: `controller/src/main/java/com/edgeguardian/controller/service/CrlService.java`, lines 33–68,
`service/CertificateService.java`, lines 78–134, 169–203 and 246–262,
`model/CertificateRevocationList.java`.

## Main definitions

* `Concurrent.Revocation`: what a transaction revokes, and its instances in the source.
* `Concurrent.State`, `Concurrent.step`: two transactions, statement by statement.
* `Concurrent.Published`: the stored list has the certificates of every transaction that has
  committed, and its number counts them.
* `Concurrent.Ordered`: a transaction commits only while the other one has not read.

## Main results

* `Concurrent.exec_alone`: a transaction that runs alone does what the sequential model says.
* `Concurrent.published_of_ordered`: in every ordered run, every revocation is published.
* `Concurrent.revocation_lost`: two revocations after which one of them is on no list.
-/

namespace EdgeGuardian.Controller.Concurrent

open Transition

/-! ### Revocations -/

/-- What a transaction revokes, and whose list it rebuilds. -/
structure Revocation where
  env : Env
  orgId : OrganizationId
  reason : RevokeReason
  selects : IssuedCertificate → Bool

namespace Revocation

/-- `CertificateService.revoke`. -/
def revoke (env : Env) (certificateId : ℕ) (expectedOrgId : OrganizationId) : Revocation where
  env := env
  orgId := expectedOrgId
  reason := .adminRevoked
  selects c := c.id = certificateId ∧ c.organizationId = expectedOrgId ∧ c.revoked = false

/-- `CertificateService.revokeAllActiveForDevice`. -/
def revokeAllActiveForDevice (env : Env) (deviceId : String) (orgId : OrganizationId)
    (reason : RevokeReason) : Revocation where
  env := env
  orgId := orgId
  reason := reason
  selects c := ActiveForDevice env deviceId c

/-- `CertificateService.supersedeActiveCerts`. -/
def supersedeActiveCerts (env : Env) (deviceId : String) (orgId : OrganizationId)
    (name : Option String) : Revocation where
  env := env
  orgId := orgId
  reason := .superseded
  selects c := ActiveForName env deviceId name c

/-- The revocation in `CertificateService.processRenewal`. -/
def processRenewal (env : Env) (deviceId : String) (orgId : OrganizationId) (name : Option String)
    (currentSerial : String) : Revocation where
  env := env
  orgId := orgId
  reason := .renewed
  selects c := serialText c.serialNumber = currentSerial ∧ c.revoked = false ∧
    c.deviceId = deviceId ∧ some c.name = name

end Revocation

/-! ### Transactions -/

/-- The names of the two transactions. -/
inductive TxId
  | first
  | second
deriving DecidableEq, Repr

def TxId.other : TxId → TxId
  | .first => .second
  | .second => .first

/-- Where a transaction is. -/
inductive Pc
  | ready
  /-- The rows are read, and these are still to be marked. -/
  | marking (todo : List ℕ)
  /-- `rebuild` has read the revoked rows. -/
  | certsRead (entries : List CrlEntry)
  /-- `rebuild` has read the stored list. -/
  | crlRead (entries : List CrlEntry) (existing : Option CertificateRevocationList)
  /-- The new list is written. -/
  | crlSaved (row : CertificateRevocationList)
  | committed
  /-- The transaction has revoked nothing, or was rolled back. -/
  | ended
deriving DecidableEq, Repr

/-- The transaction is between reading the revoked rows and its end. -/
def Pc.hasRead : Pc → Bool
  | .certsRead _ | .crlRead _ _ | .crlSaved _ => true
  | .ready | .marking _ | .committed | .ended => false

/-- A transaction, with the rows that it has marked. -/
structure Txn where
  pc : Pc
  marked : List ℕ
deriving DecidableEq, Repr

/-- The committed database, and the two transactions. -/
structure State where
  db : Db
  tx : TxId → Txn

/-- The statements of the transactions. -/
inductive Action
  /-- The query for the certificates to revoke. -/
  | select (i : TxId)
  /-- The update of one row by `markRevoked`. -/
  | mark (i : TxId)
  /-- The first query of `rebuild`. -/
  | readCerts (i : TxId)
  /-- The second query of `rebuild`. -/
  | readCrl (i : TxId)
  /-- The insert or update at the end of `rebuild`. -/
  | saveCrl (i : TxId)
  | commit (i : TxId)
  | rollback (i : TxId)
deriving DecidableEq, Repr

section Steps

variable (pki : PkiContext) (r : TxId → Revocation) (s : State) (i : TxId)

/-- What the transaction sees: the committed rows, and its own. -/
def State.view : Db :=
  markRevoked (r i).env (fun c => c.id ∈ (s.tx i).marked) (r i).reason s.db

/-- The numbers of the committed rows that the transaction selects. -/
def State.selected : List ℕ :=
  (s.db.certificates.rows.filter (r i).selects).map IssuedCertificate.id

/-- The state with another transaction under the name. -/
def State.put (x : Txn) : State := { s with tx := Function.update s.tx i x }

/-- The state with the transaction at another point. -/
def State.moved (pc : Pc) : State := s.put i { s.tx i with pc := pc }

/-- The state without what the transaction has written. -/
def State.dropped : State := s.put i ⟨.ended, []⟩

/-- The other transaction has written the row and has not ended. -/
def State.locked (id : ℕ) : Bool :=
  id ∈ (s.tx i.other).marked && (s.tx i.other).pc ≠ .committed

/-- The list that `rebuild` writes. -/
def crlRow (entries : List CrlEntry) (existing : Option CertificateRevocationList) :
    CertificateRevocationList where
  organizationId := (r i).orgId
  crlNumber := (existing.map CertificateRevocationList.crlNumber).getD 0 + 1
  crlDer := entries
  thisUpdate := (r i).env.now
  nextUpdate := (r i).env.now + Duration.ofHours pki.crlValidityHours
  revokedCount := entries.length

/-- Marks the next row. -/
def State.markNext (id : ℕ) (todo : List ℕ) : State :=
  s.put i ⟨.marking todo, id :: (s.tx i).marked⟩

/-- Makes the writes of the transaction visible. -/
def State.publish (row : CertificateRevocationList) : State where
  db := { s.view r i with crls := (s.view r i).crls.save row }
  tx := Function.update s.tx i { s.tx i with pc := .committed }

/-- One statement. -/
def step : Action → Option State
  | .select i =>
    match (s.tx i).pc with
    | .ready =>
      some (if s.selected r i = [] then s.dropped i else s.moved i (.marking (s.selected r i)))
    | _ => none
  | .mark i =>
    match (s.tx i).pc with
    | .marking (id :: todo) => if s.locked i id then none else some (s.markNext i id todo)
    | _ => none
  | .readCerts i =>
    match (s.tx i).pc with
    | .marking [] => some (s.moved i (.certsRead (crlEntries (r i).env (r i).orgId (s.view r i))))
    | _ => none
  | .readCrl i =>
    match (s.tx i).pc with
    | .certsRead entries => some (s.moved i (.crlRead entries (s.db.crls.find? (r i).orgId)))
    | _ => none
  | .saveCrl i =>
    match (s.tx i).pc, (s.tx i.other).pc with
    -- The other transaction has the row, or the entry of the unique index.
    | .crlRead _ _, .crlSaved _ => none
    | .crlRead entries existing, _ =>
      -- An insert where there is a row by now violates the unique index.
      if existing.isNone ∧ (s.db.crls.find? (r i).orgId).isSome then some (s.dropped i)
      else some (s.moved i (.crlSaved (crlRow pki r i entries existing)))
    | _, _ => none
  | .commit i =>
    match (s.tx i).pc with
    | .crlSaved row => some (s.publish r i row)
    | _ => none
  | .rollback i =>
    match (s.tx i).pc with
    | .committed | .ended => none
    | _ => some (s.dropped i)

end Steps

/-- No transaction has begun. -/
structure Starting (s : State) : Prop where
  ready : ∀ i, s.tx i = ⟨.ready, []⟩

/-- The number of the stored list, 0 if there is none. -/
def crlNumber (db : Db) (orgId : OrganizationId) : ℕ :=
  ((db.crls.find? orgId).map CertificateRevocationList.crlNumber).getD 0

/-- The number of transactions that have rebuilt the list and committed. -/
def rebuilds (s : State) : ℕ :=
  (if (s.tx .first).pc = .committed then 1 else 0) + if (s.tx .second).pc = .committed then 1 else 0

/-- The stored list has every certificate that a committed transaction has revoked, and its number
has grown by one for each of them. -/
structure Published (orgId : OrganizationId) (before : ℕ) (s : State) : Prop where
  listed : ∀ i, (s.tx i).pc = .committed → ∀ c ∈ s.db.certificates.rows,
    c.id ∈ (s.tx i).marked → InCrl s.db orgId c.serialNumber
  number : crlNumber s.db orgId = before + rebuilds s

/-- The certificates that a transaction selects belong to the organization whose list it rebuilds,
and it commits only while the other one is not between its reading of the revoked rows and its
end. -/
def Ordered (r : TxId → Revocation) (s : State) : Action → Prop
  | .select i => ∀ c ∈ s.db.certificates.rows, (r i).selects c → c.organizationId = (r i).orgId
  | .commit i => (s.tx i.other).pc.hasRead = false
  | _ => True

instance (r : TxId → Revocation) (s : State) : ∀ a, Decidable (Ordered r s a)
  | .select _ => inferInstanceAs (Decidable (∀ _ ∈ _, _))
  | .commit _ => inferInstanceAs (Decidable (_ = _))
  | .mark _ | .readCerts _ | .readCrl _ | .saveCrl _ | .rollback _ =>
    inferInstanceAs (Decidable True)

/-! ### What a transaction sees -/

section View

variable {r : TxId → Revocation} {s : State} {i j : TxId}

theorem TxId.other_ne (i : TxId) : i.other ≠ i := by
  cases i <;> decide

@[simp] theorem TxId.other_other (i : TxId) : i.other.other = i := by
  cases i <;> rfl

theorem TxId.eq_or_eq_other (i j : TxId) : j = i ∨ j = i.other := by
  cases i <;> cases j <;> simp [TxId.other]

@[simp] theorem State.put_self (x : Txn) : (s.put i x).tx i = x := Function.update_self ..

@[simp] theorem State.put_other (x : Txn) : (s.put i x).tx i.other = s.tx i.other :=
  Function.update_of_ne (TxId.other_ne i) ..

@[simp] theorem State.put_put (x y : Txn) : (s.put i x).put i y = s.put i y := by
  simp [State.put]

@[simp] theorem State.locked_put (x : Txn) (id : ℕ) : (s.put i x).locked i id = s.locked i id := by
  simp [State.locked]

/-- A row in the view of a transaction comes from a committed row, which it may have revoked. -/
theorem mem_view {c : IssuedCertificate} (h : c ∈ (s.view r i).certificates.rows) :
    ∃ b ∈ s.db.certificates.rows, c.id = b.id ∧ c.serialNumber = b.serialNumber ∧
      c.organizationId = b.organizationId ∧ (b.revoked → c.revoked) := by
  rcases SerialTable.mem_modify.mp h with ⟨b, hb, -, rfl⟩ | ⟨hc, -⟩
  · exact ⟨b, hb, rfl, rfl, rfl, fun _ => rfl⟩
  · exact ⟨c, hc, rfl, rfl, rfl, id⟩

/-- A committed row is in the view of every transaction, revoked if it was or if it is marked. -/
theorem exists_mem_view {b : IssuedCertificate} (hb : b ∈ s.db.certificates.rows)
    (hrevoked : b.id ∈ (s.tx i).marked ∨ b.revoked) :
    ∃ c ∈ (s.view r i).certificates.rows, c.serialNumber = b.serialNumber ∧
      c.organizationId = b.organizationId ∧ c.revoked := by
  by_cases hmarked : b.id ∈ (s.tx i).marked
  · exact ⟨_, SerialTable.mem_modify.mpr (.inl ⟨b, hb, hmarked, rfl⟩), rfl, rfl, rfl⟩
  · have hb' : b.revoked := hrevoked.resolve_left hmarked
    exact ⟨b, SerialTable.mem_modify.mpr (.inr ⟨hb, hmarked⟩), rfl, rfl, hb'⟩

end View

/-! ### One transaction alone -/

section Alone

variable {pki : PkiContext} {r : TxId → Revocation} {s : State} {i : TxId}

/-- The statements of a transaction that marks `n` rows. -/
def statements (i : TxId) (n : ℕ) : List Action :=
  .select i :: List.replicate n (.mark i) ++ [.readCerts i, .readCrl i, .saveCrl i, .commit i]

theorem markRevoked_congr {env : Env} {p q : IssuedCertificate → Prop} [DecidablePred p]
    [DecidablePred q] {reason : RevokeReason} {db : Db}
    (h : ∀ c ∈ db.certificates.rows, p c ↔ q c) :
    markRevoked env p reason db = markRevoked env q reason db := by
  have hrows : Table.modifyRows p (·.markedRevoked env reason) db.certificates.rows =
      Table.modifyRows q (·.markedRevoked env reason) db.certificates.rows :=
    List.map_congr_left fun c hc => if_congr (h c hc) rfl rfl
  simp only [markRevoked, SerialTable.modify, Table.modify, hrows]

/-- The rows are marked one after the other. -/
theorem exec_marks {todo marked : List ℕ} (hi : s.tx i = ⟨.marking todo, marked⟩)
    (hlocked : ∀ id, s.locked i id = false) :
    exec (step pki r) s (List.replicate todo.length (.mark i)) =
      some (s.put i ⟨.marking [], todo.reverse ++ marked⟩) := by
  induction todo generalizing s marked with
  | nil =>
    have hput : s.put i ⟨.marking [], marked⟩ = s := by
      rw [State.put, ← hi, Function.update_eq_self]
    exact congrArg some hput.symm
  | cons id todo ih =>
    have hnext : step pki r s (.mark i) = some (s.put i ⟨.marking todo, id :: marked⟩) := by
      simp [step, hi, hlocked, State.markNext]
    have hfree : ∀ id', (s.put i ⟨.marking todo, id :: marked⟩).locked i id' = false := by
      simpa using hlocked
    rw [List.length_cons, List.replicate_succ]
    simp only [execBy, if_true, hnext, Option.bind_some]
    refine (ih (State.put_self _) hfree).trans ?_
    simp

theorem mem_selected {c : IssuedCertificate} (hc : c ∈ s.db.certificates.rows) :
    c.id ∈ s.selected r i ↔ (r i).selects c := by
  constructor
  · intro hid
    obtain ⟨b, hb, hbid⟩ := List.mem_map.mp hid
    obtain ⟨hb, hselects⟩ := List.mem_filter.mp hb
    -- The row with the number of a selected one is that row.
    rwa [← List.inj_on_of_nodup_map s.db.certificates.nodup hb hc hbid]
  · exact fun hselects => List.mem_map_of_mem (List.mem_filter.mpr ⟨hc, hselects⟩)

/-- The view of a transaction that has marked what it has selected. -/
theorem view_selected (pc : Pc) : (s.put i ⟨pc, (s.selected r i).reverse⟩).view r i =
    markRevoked (r i).env (fun c => (r i).selects c) (r i).reason s.db := by
  refine markRevoked_congr fun c hc => ?_
  rw [State.put_self, List.mem_reverse]
  exact mem_selected hc

/-- The list is written if the other transaction does not have it and it is as it was read. -/
theorem step_saveCrl {marked : List ℕ} (entries : List CrlEntry)
    (hother : (s.tx i.other).pc.hasRead = false) :
    step pki r (s.put i ⟨.crlRead entries (s.db.crls.find? (r i).orgId), marked⟩) (.saveCrl i) =
      some (s.put i
        ⟨.crlSaved (crlRow pki r i entries (s.db.crls.find? (r i).orgId)), marked⟩) := by
  have hcond : ¬ ((s.db.crls.find? (r i).orgId).isNone ∧ (s.db.crls.find? (r i).orgId).isSome) := by
    cases s.db.crls.find? (r i).orgId <;> simp
  rcases hat : (s.tx i.other).pc with _ | _ | _ | _ | _ | _ | _
  case crlSaved =>
    rw [hat] at hother
    cases hother
  all_goals
    simp only [step, State.put_self, State.put_other, hat]
    refine (if_neg hcond).trans ?_
    simp [State.moved]

/-- A transaction that nothing disturbs leaves the database as `markRevoked` and `rebuild` do, one
after the other. -/
theorem exec_alone (hi : s.tx i = ⟨.ready, []⟩) (hlocked : ∀ id, s.locked i id = false)
    (hother : (s.tx i.other).pc.hasRead = false) (hselected : s.selected r i ≠ []) :
    ∃ t ∈ exec (step pki r) s (statements i (s.selected r i).length),
      t.db = rebuild pki (r i).env (r i).orgId
        (markRevoked (r i).env (fun c => (r i).selects c) (r i).reason s.db) := by
  set ids := s.selected r i with hids
  set entries := crlEntries (r i).env (r i).orgId
    (markRevoked (r i).env (fun c => (r i).selects c) (r i).reason s.db) with hentries
  set row := crlRow pki r i entries (s.db.crls.find? (r i).orgId) with hrow
  have hhead : exec (step pki r) s (.select i :: List.replicate ids.length (.mark i)) =
      some (s.put i ⟨.marking [], ids.reverse⟩) := by
    have hselect : step pki r s (.select i) = some (s.put i ⟨.marking ids, []⟩) := by
      simp [step, hi, ← hids, hselected, State.moved]
    have hfree : ∀ id, (s.put i ⟨.marking ids, []⟩).locked i id = false := by
      simpa using hlocked
    rw [exec, execBy, if_pos trivial, hselect]
    refine (exec_marks (State.put_self _) hfree).trans ?_
    simp
  have htail : exec (step pki r) (s.put i ⟨.marking [], ids.reverse⟩)
      [.readCerts i, .readCrl i, .saveCrl i, .commit i] =
        some ((s.put i ⟨.crlSaved row, ids.reverse⟩).publish r i row) := by
    have hreadCerts : step pki r (s.put i ⟨.marking [], ids.reverse⟩) (.readCerts i) =
        some (s.put i ⟨.certsRead entries, ids.reverse⟩) := by
      simp [step, State.moved, hids, view_selected, hentries]
    have hreadCrl : step pki r (s.put i ⟨.certsRead entries, ids.reverse⟩) (.readCrl i) =
        some (s.put i ⟨.crlRead entries (s.db.crls.find? (r i).orgId), ids.reverse⟩) := by
      simp [step, State.moved]
      rfl
    have hcommit : step pki r (s.put i ⟨.crlSaved row, ids.reverse⟩) (.commit i) =
        some ((s.put i ⟨.crlSaved row, ids.reverse⟩).publish r i row) := by
      simp [step]
    simp [exec, execBy, hreadCerts, hreadCrl, step_saveCrl entries hother, ← hrow, hcommit]
  refine ⟨(s.put i ⟨.crlSaved row, ids.reverse⟩).publish r i row, ?_, ?_⟩
  · rw [statements]
    refine execBy_append.trans ?_
    show (exec (step pki r) s (.select i :: List.replicate ids.length (.mark i))).bind _ = _
    rw [hhead]
    exact htail
  · rw [State.publish, hids, view_selected]
    rfl

end Alone

/-! ### The invariant -/

/-- The entries have every certificate that the transaction or a committed one has revoked. -/
def Covers (s : State) (i : TxId) (entries : List CrlEntry) : Prop :=
  ∀ c ∈ s.db.certificates.rows,
    (c.id ∈ (s.tx i).marked ∨
      (s.tx i.other).pc = .committed ∧ c.id ∈ (s.tx i.other).marked) →
    ∃ e ∈ entries, e.serialNumber = c.serialNumber

/-- The rows that the transaction has marked or is about to mark. -/
def Txn.taken (t : Txn) : List ℕ :=
  match t.pc with
  | .marking todo => todo ++ t.marked
  | _ => t.marked

/-- What holds at each point of a transaction. -/
def Pc.Inv (orgId : OrganizationId) (before : ℕ) (s : State) (i : TxId) : Pc → Prop
  | .ready | .marking _ | .ended => True
  | .certsRead entries => Covers s i entries
  | .crlRead entries existing =>
    Covers s i entries ∧
      (existing.map CertificateRevocationList.crlNumber).getD 0 = before + rebuilds s
  | .crlSaved row =>
    row.organizationId = orgId ∧ Covers s i row.crlDer ∧ row.crlNumber = before + rebuilds s + 1
  | .committed => ∀ c ∈ s.db.certificates.rows, c.id ∈ (s.tx i).marked → c.revoked

/-- Every committed revocation is published, what the transactions take belongs to the organization,
and each is on its way to a list with all of it. -/
structure Inv (orgId : OrganizationId) (before : ℕ) (s : State) : Prop where
  published : Published orgId before s
  aligned : ∀ i, ∀ c ∈ s.db.certificates.rows, c.id ∈ (s.tx i).taken → c.organizationId = orgId
  pc : ∀ i, (s.tx i).pc.Inv orgId before s i

section Invariant

variable {pki : PkiContext} {r : TxId → Revocation} {orgId : OrganizationId} {before : ℕ}
  {s t : State} {i : TxId} {a : Action}

theorem Starting.inv (h : Starting s) : Inv orgId (crlNumber s.db orgId) s where
  published := by
    refine ⟨fun i hi => ?_, ?_⟩
    · rw [h.ready i] at hi
      cases hi
    · simp [rebuilds, h.ready]
  aligned i c hc hid := by
    rw [h.ready i] at hid
    cases hid
  pc i := by
    rw [h.ready i]
    trivial

theorem rebuilds_put {x : Txn} (hi : (s.tx i).pc ≠ .committed) (hx : x.pc ≠ .committed) :
    rebuilds (s.put i x) = rebuilds s := by
  cases i <;> simp [rebuilds, State.put, hi, hx]

theorem rebuilds_of_committed {db : Db} {x : Txn} (hi : (s.tx i).pc ≠ .committed)
    (hx : x.pc = .committed) :
    rebuilds ⟨db, Function.update s.tx i x⟩ = rebuilds s + 1 := by
  cases i
  · simp [rebuilds, hi, hx]
    omega
  · simp [rebuilds, hi, hx]

/-- What holds at the other transaction does not depend on a transaction that has not committed. -/
theorem Pc.Inv.put_other {x : Txn} {pc : Pc} (hi : (s.tx i).pc ≠ .committed)
    (hx : x.pc ≠ .committed) (h : pc.Inv orgId before s i.other) :
    pc.Inv orgId before (s.put i x) i.other := by
  have hcovers (entries : List CrlEntry) (hc : Covers s i.other entries) :
      Covers (s.put i x) i.other entries := by
    intro c hc' htaken
    refine hc c hc' ?_
    simpa [hi, hx] using htaken
  cases pc with
  | ready | marking _ | ended => trivial
  | certsRead entries => exact hcovers _ h
  | crlRead entries existing =>
    refine ⟨hcovers _ h.1, ?_⟩
    rw [rebuilds_put hi hx]
    exact h.2
  | crlSaved row =>
    refine ⟨h.1, hcovers _ h.2.1, ?_⟩
    rw [rebuilds_put hi hx]
    exact h.2.2
  | committed =>
    intro c hc
    rw [State.put_other]
    exact h c hc

/-- A step that writes nothing which others can see. -/
theorem Inv.put {x : Txn} (h : Inv orgId before s) (hi : (s.tx i).pc ≠ .committed)
    (hx : x.pc ≠ .committed)
    (haligned : ∀ c ∈ s.db.certificates.rows, c.id ∈ x.taken → c.organizationId = orgId)
    (hpc : x.pc.Inv orgId before (s.put i x) i) : Inv orgId before (s.put i x) := by
  refine ⟨⟨fun j hj => ?_, ?_⟩, fun j => ?_, fun j => ?_⟩
  · rcases TxId.eq_or_eq_other i j with rfl | rfl
    · rw [State.put_self] at hj
      exact absurd hj hx
    · rw [State.put_other] at hj ⊢
      exact h.published.listed _ hj
  · rw [rebuilds_put hi hx]
    exact h.published.number
  · rcases TxId.eq_or_eq_other i j with rfl | rfl
    · rw [State.put_self]
      exact haligned
    · rw [State.put_other]
      exact h.aligned _
  · rcases TxId.eq_or_eq_other i j with rfl | rfl
    · rw [State.put_self]
      exact hpc
    · rw [State.put_other]
      exact (h.pc i.other).put_other hi hx

/-- The list that is read off the view of a transaction covers it and what was committed before. -/
theorem Inv.covers_view {todo : List ℕ} (h : Inv orgId before s)
    (hpc : (s.tx i).pc = .marking todo) (env : Env) :
    Covers s i (crlEntries env orgId (s.view r i)) := by
  intro c hc htaken
  have hrow : c.organizationId = orgId ∧ (c.id ∈ (s.tx i).marked ∨ c.revoked) := by
    rcases htaken with hmarked | ⟨hcommitted, hmarked⟩
    · refine ⟨h.aligned i c hc ?_, .inl hmarked⟩
      rw [Txn.taken, hpc]
      exact List.mem_append_right _ hmarked
    · have hother := h.pc i.other
      rw [hcommitted] at hother
      refine ⟨h.aligned i.other c hc ?_, .inr (hother c hc hmarked)⟩
      rw [Txn.taken, hcommitted]
      exact hmarked
  obtain ⟨b, hb, hserial, horg, hrevoked⟩ := exists_mem_view (r := r) hc hrow.2
  exact mem_crlEntries.mpr ⟨b, hb, horg.trans hrow.1, hrevoked, hserial⟩

theorem Inv.dropped (h : Inv orgId before s) (hi : (s.tx i).pc ≠ .committed) :
    Inv orgId before (s.dropped i) :=
  h.put hi (by simp) (fun _ _ hid => (nomatch hid)) trivial

/-- A step of a transaction to another point at which it has taken nothing more. -/
theorem Inv.moved {pc : Pc} (h : Inv orgId before s) (hi : (s.tx i).pc ≠ .committed)
    (hpc : pc ≠ .committed) (htaken : ({ s.tx i with pc := pc } : Txn).taken ⊆ (s.tx i).taken)
    (hinv : pc.Inv orgId before (s.moved i pc) i) : Inv orgId before (s.moved i pc) :=
  h.put hi hpc (fun c hc hid => h.aligned i c hc (htaken hid)) hinv

theorem Inv.select (h : Inv orgId before s) (horg : (r i).orgId = orgId)
    (hok : Ordered r s (.select i)) (hstep : step pki r s (.select i) = some t) :
    Inv orgId before t := by
  simp only [step] at hstep
  split at hstep
  · next hpc =>
    have hi : (s.tx i).pc ≠ .committed := by simp [hpc]
    cases hstep
    split_ifs
    · exact h.dropped hi
    · refine h.put hi (by simp) (fun c hc hid => ?_) trivial
      rcases List.mem_append.mp hid with hid | hid
      · rw [← horg]
        exact hok c hc ((mem_selected hc).mp hid)
      · refine h.aligned i c hc ?_
        rw [Txn.taken, hpc]
        exact hid
  · cases hstep

theorem Inv.mark (h : Inv orgId before s) (hstep : step pki r s (.mark i) = some t) :
    Inv orgId before t := by
  simp only [step] at hstep
  split at hstep
  · next id todo hpc =>
    split_ifs at hstep
    cases hstep
    refine h.put (by simp [hpc]) (by simp) (fun c hc hid => h.aligned i c hc ?_) trivial
    rw [Txn.taken, hpc]
    simp only [Txn.taken, List.mem_append, List.mem_cons] at hid ⊢
    tauto
  · cases hstep

theorem Inv.readCerts (h : Inv orgId before s) (horg : (r i).orgId = orgId)
    (hstep : step pki r s (.readCerts i) = some t) : Inv orgId before t := by
  simp only [step] at hstep
  split at hstep
  · next hpc =>
    cases hstep
    refine h.moved (by simp [hpc]) (by simp) ?_ ?_
    · simp [Txn.taken, hpc]
    · have hcovers : Covers s i (crlEntries (r i).env orgId (s.view r i)) := h.covers_view hpc _
      rw [horg]
      intro c hc htaken
      exact hcovers c hc (by simpa [State.moved] using htaken)
  · cases hstep

theorem Inv.readCrl (h : Inv orgId before s) (horg : (r i).orgId = orgId)
    (hstep : step pki r s (.readCrl i) = some t) : Inv orgId before t := by
  simp only [step] at hstep
  split at hstep
  · next entries hpc =>
    cases hstep
    have hi : (s.tx i).pc ≠ .committed := by simp [hpc]
    have hcovers : Covers s i entries := by
      have := h.pc i
      rwa [hpc] at this
    refine h.moved hi (by simp) (by simp [Txn.taken, hpc]) ⟨?_, ?_⟩
    · intro c hc htaken
      exact hcovers c hc (by simpa [State.moved] using htaken)
    · rw [State.moved, rebuilds_put hi (by simp), horg]
      exact h.published.number
  · cases hstep

theorem Inv.saveCrl (h : Inv orgId before s) (horg : (r i).orgId = orgId)
    (hstep : step pki r s (.saveCrl i) = some t) : Inv orgId before t := by
  simp only [step] at hstep
  split at hstep
  · cases hstep
  · next entries existing hpc _ =>
    have hi : (s.tx i).pc ≠ .committed := by simp [hpc]
    have hread := h.pc i
    rw [hpc] at hread
    split_ifs at hstep
    · cases hstep
      exact h.dropped hi
    · cases hstep
      refine h.moved hi (by simp) (by simp [Txn.taken, hpc]) ⟨horg, ?_, ?_⟩
      · intro c hc htaken
        exact hread.1 c hc (by simpa [State.moved] using htaken)
      · rw [State.moved, rebuilds_put hi (by simp)]
        show (existing.map CertificateRevocationList.crlNumber).getD 0 + 1 = _
        rw [hread.2]
  · cases hstep

theorem crlNumber_publish {row : CertificateRevocationList} (hrow : row.organizationId = orgId) :
    crlNumber (s.publish r i row).db orgId = row.crlNumber := by
  simp [crlNumber, State.publish, Table.find?_save, hrow]

theorem inCrl_publish {row : CertificateRevocationList} {serial : ℕ}
    (hrow : row.organizationId = orgId) (he : ∃ e ∈ row.crlDer, e.serialNumber = serial) :
    InCrl (s.publish r i row).db orgId serial := by
  refine ⟨row, ?_, he⟩
  simp [State.publish, Table.find?_save, hrow]

theorem publish_self (row : CertificateRevocationList) :
    (s.publish r i row).tx i = { s.tx i with pc := .committed } :=
  Function.update_self ..

theorem publish_other (row : CertificateRevocationList) :
    (s.publish r i row).tx i.other = s.tx i.other :=
  Function.update_of_ne (TxId.other_ne i) ..

/-- What a transaction has taken is revoked in the database after its commit. -/
theorem revoked_publish {row : CertificateRevocationList} {c : IssuedCertificate}
    (hc : c ∈ (s.publish r i row).db.certificates.rows) (hid : c.id ∈ (s.tx i).marked) :
    c.revoked := by
  rcases SerialTable.mem_modify.mp hc with ⟨b, -, -, rfl⟩ | ⟨-, hnot⟩
  · rfl
  · exact absurd hid hnot

/-- A transaction that has not read is not touched by the commit of the other one. -/
theorem Inv.publish_pc_other (h : Inv orgId before s) {row : CertificateRevocationList}
    (hread : (s.tx i.other).pc.hasRead = false) :
    Pc.Inv orgId before (s.publish r i row) i.other (s.tx i.other).pc := by
  have hpc := h.pc i.other
  rcases hat : (s.tx i.other).pc with _ | _ | _ | _ | _ | _ | _ <;>
    rw [hat] at hread hpc <;> try (first | trivial | cases hread)
  intro c hc hid
  rw [publish_other] at hid
  obtain ⟨b, hb, hbid, -, -, hrevoked⟩ := mem_view hc
  exact hrevoked (hpc b hb (by rwa [hbid] at hid))

/-- A commit publishes a list that has what both transactions have revoked, if the other one has
committed before this list was built or has not yet built its own. -/
theorem Inv.commit (h : Inv orgId before s) (hok : Ordered r s (.commit i))
    (hstep : step pki r s (.commit i) = some t) : Inv orgId before t := by
  simp only [step] at hstep
  split at hstep
  · next row hpc =>
    cases hstep
    have hi : (s.tx i).pc ≠ .committed := by simp [hpc]
    obtain ⟨horg, hcovers, hnumber⟩ : row.organizationId = orgId ∧ Covers s i row.crlDer ∧
        row.crlNumber = before + rebuilds s + 1 := by
      have := h.pc i
      rwa [hpc] at this
    refine ⟨⟨fun j hj c hc hid => ?_, ?_⟩, fun j c hc hid => ?_, fun j => ?_⟩
    · obtain ⟨b, hb, hbid, hserial, -⟩ := mem_view hc
      rw [hserial]
      refine inCrl_publish horg (hcovers b hb ?_)
      rw [hbid] at hid
      rcases TxId.eq_or_eq_other i j with rfl | rfl
      · rw [publish_self] at hid
        exact .inl hid
      · rw [publish_other] at hj hid
        exact .inr ⟨hj, hid⟩
    · rw [crlNumber_publish horg, hnumber, State.publish, rebuilds_of_committed hi rfl]
      omega
    · obtain ⟨b, hb, hbid, -, horg', -⟩ := mem_view hc
      rw [horg']
      rw [hbid] at hid
      refine h.aligned j b hb ?_
      rcases TxId.eq_or_eq_other i j with rfl | rfl
      · rw [publish_self] at hid
        rw [Txn.taken, hpc]
        exact hid
      · rwa [publish_other] at hid
    · rcases TxId.eq_or_eq_other i j with rfl | rfl
      · rw [publish_self]
        intro c hc hid
        rw [publish_self] at hid
        exact revoked_publish hc hid
      · rw [publish_other]
        exact h.publish_pc_other hok
  · cases hstep

theorem Inv.step (h : Inv orgId before s) (horg : ∀ i, (r i).orgId = orgId) (hok : Ordered r s a)
    (hstep : step pki r s a = some t) : Inv orgId before t := by
  cases a with
  | select i => exact h.select (horg i) hok hstep
  | mark i => exact h.mark hstep
  | readCerts i => exact h.readCerts (horg i) hstep
  | readCrl i => exact h.readCrl (horg i) hstep
  | saveCrl i => exact h.saveCrl (horg i) hstep
  | commit i => exact h.commit hok hstep
  | rollback i =>
    simp only [Concurrent.step] at hstep
    split at hstep
    · cases hstep
    · cases hstep
    · next hcommitted _ =>
      cases hstep
      exact h.dropped hcommitted

/-- **Concurrent revocations.** In every run of two revocations for one organization in which each
takes certificates of this organization, and neither commits while the other is between its reading
of the revoked rows and its end, the stored list has the certificates of every one that has
committed, and its number has grown by one for each. -/
theorem published_of_ordered (horg : ∀ i, (r i).orgId = orgId) (hs : Starting s)
    (h : Reaches (Concurrent.step pki r) (Ordered r) s t) :
    Published orgId (crlNumber s.db orgId) t := by
  have hinv : Inv orgId (crlNumber s.db orgId) t :=
    h.invariant (Inv orgId _) (fun h hok hstep => h.step horg hok hstep) hs.inv
  exact hinv.published

end Invariant

/-! ### Two administrators -/

namespace TwoAdministrators

/-- A device with two active certificates, and a list with the one that was superseded. -/
def db : Db :=
  (exec (Controller.step Reenrolment.pki) (Db.empty Reenrolment.tokens)
    [Reenrolment.enrol 1 "a", Reenrolment.request 2 1, Reenrolment.request 3 1,
      (⟨4, 4, ""⟩, .processRequest
        ⟨"d", 1, some "web", some "d", [], some "csr", .manifest, none⟩)]).getD (Db.empty .empty)

/-- Each revokes one of the two. -/
def revocations : TxId → Revocation
  | .first => .revoke ⟨10, 0, ""⟩ 2 1
  | .second => .revoke ⟨11, 0, ""⟩ 3 1

/-- Both are about to begin. -/
def start : State := ⟨db, fun _ => ⟨.ready, []⟩⟩

theorem starting_start : Starting start := ⟨fun _ => rfl⟩

theorem orgId_revocations : ∀ i, (revocations i).orgId = 1
  | .first => rfl
  | .second => rfl

/-- One after the other. -/
def serialRun : List Action := statements .first 1 ++ statements .second 1

/-- Both read before one of them commits. -/
def overlappingRun : List Action :=
  [.select .first, .select .second, .mark .first, .mark .second, .readCerts .first,
    .readCerts .second, .readCrl .first, .readCrl .second, .saveCrl .first, .commit .first,
    .saveCrl .second, .commit .second]

end TwoAdministrators

open TwoAdministrators in
/-- Two revocations one after the other are both on the list. -/
theorem published_one_after_the_other :
    ∃ t, ((∀ i, (revocations i).orgId = 1) ∧ Starting start ∧
      Reaches (step Reenrolment.pki revocations) (Ordered revocations) start t ∧
        rebuilds t = 2) ∧ Published 1 (crlNumber start.db 1) t := by
  obtain ⟨t, hreach, hrebuilds⟩ :
      ∃ t, Reaches (step Reenrolment.pki revocations) (Ordered revocations) start t ∧
        rebuilds t = 2 := exists_reaches_of_execBy serialRun (by decide +kernel)
  exact ⟨t, ⟨orgId_revocations, starting_start, hreach, hrebuilds⟩,
    published_of_ordered orgId_revocations starting_start hreach⟩

open TwoAdministrators in
/-- Of two revocations that both read before one of them commits, the first one is on no list, and
the number of the list has grown by one only. -/
theorem revocation_lost :
    ¬ ∀ (pki : PkiContext) (r : TxId → Revocation) (orgId : OrganizationId) (s t : State),
      (∀ i, (r i).orgId = orgId) →
      (∀ i, ∀ c ∈ s.db.certificates.rows, (r i).selects c → c.organizationId = orgId) →
      Starting s → Reachable (step pki r) s t → (∀ i, (t.tx i).pc = .committed) →
        Published orgId (crlNumber s.db orgId) t := by
  intro h
  have haligned : ∀ i, ∀ c ∈ start.db.certificates.rows,
      (revocations i).selects c → c.organizationId = 1 := by
    intro i
    cases i <;> decide +kernel
  obtain ⟨t, hreach, hfirst, hsecond, hnumber, c, hc, hid, hlost⟩ :
      ∃ t, Reachable (step Reenrolment.pki revocations) start t ∧
        (t.tx .first).pc = .committed ∧ (t.tx .second).pc = .committed ∧
        crlNumber t.db 1 = crlNumber start.db 1 + 1 ∧
        ∃ c ∈ t.db.certificates.rows, c.id ∈ (t.tx .first).marked ∧
          ¬ InCrl t.db 1 c.serialNumber :=
    exists_reaches_of_execBy overlappingRun (by decide +kernel)
  have hcommitted : ∀ i, (t.tx i).pc = .committed
    | .first => hfirst
    | .second => hsecond
  have hpublished := h _ _ 1 start t orgId_revocations haligned starting_start hreach hcommitted
  exact hlost (hpublished.listed .first hfirst c hc hid)

end EdgeGuardian.Controller.Concurrent
