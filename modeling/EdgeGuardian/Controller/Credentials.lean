import EdgeGuardian.Controller.Devices
import EdgeGuardian.Controller.Organizations
import EdgeGuardian.Lib.ReadCommitted

/-!
# Credentials that are used and revoked at the same time

API keys and enrolment tokens are rows with a flag `revoked`. Whoever uses one reads its row, checks
that it is valid, and writes the row back with the time or the number of its uses; whoever revokes
it reads its row and writes it back with the flag. All of them save the whole row, and no column
holds a version. A use that has read the row before a revocation commits, and is written after it,
takes the revocation back; two enrolments that have read the same count are counted as one, and may
both pass a limit that leaves room for one.

Source: `security/ApiKeyAuthenticationFilter.java`, `service/ApiKeyService.java`,
`service/EnrollmentService.java`, `model/ApiKey.java`, `model/EnrollmentToken.java` under
`controller/src/main/java/com/edgeguardian/controller/`.

## Main definitions

* `ApiKey.isValid`, `authenticate`.
* `ApiKeyTx`, `EnrollmentTokenTx`: what the transactions do with the row of a credential.
* `RevocationsFinal`: a credential stays revoked.
* `EnrolmentsCounted`: the uses of a token are its enrolments, and keep to its limit.
* `EnrollmentTokenTx.countsUp`: the commits that count right.

## Main results

* `rows_of_authenticate`, `rows_of_revokeApiKey`, `rows_of_enrollDevice`, `rows_of_revokeToken`: a
  transaction that runs alone does what the sequential model says.
* `revocations_final`: when revocations are final, in every interleaving.
* `enrolments_counted`: when enrolments are counted and limited, in every interleaving.
-/

namespace EdgeGuardian.Controller

open Transition ReadCommitted

/-! ### API keys -/

/-- `ApiKey.isValid`, at the time `now`. -/
def ApiKey.isValid (k : ApiKey) (now : Instant) : Bool :=
  !k.revoked && !k.expiresAt.any fun e => e < now

/-- The `TenantPrincipal` of an API key, which has no user. -/
structure ApiKeyPrincipal where
  organizationId : OrganizationId
  identity : String
  orgRole : OrgRole
deriving DecidableEq, Repr

/-- `apiKeyRepository.findByKeyHash`. -/
def findByKeyHash (d : Directory) (keyHash : String) : Option ApiKey :=
  d.apiKeys.rows.find? fun k => k.keyHash = keyHash

/-- `ApiKeyAuthenticationFilter.authenticate`: the principal, if the key is valid, and the directory
after. The clock is read twice. -/
def authenticate (sha256 : String → String) (now used : Instant) (rawKey : String)
    (d : Directory) : Option ApiKeyPrincipal × Directory :=
  match (findByKeyHash d (sha256 rawKey)).filter fun k => k.isValid now with
  | none => (none, d)
  | some key =>
    (some ⟨key.organizationId, "apikey:" ++ key.keyPrefix, .operator⟩,
      { d with
        apiKeys := d.apiKeys.modify (fun k => k.id = key.id) (fun k =>
          { k with lastUsedAt := some used }) fun _ => rfl })

/-- The transactions on the row of an API key. -/
inductive ApiKeyTx
  /-- `ApiKeyAuthenticationFilter.authenticate`. -/
  | authenticate (keyHash : String) (now used : Instant)
  /-- `ApiKeyService.revoke`. -/
  | revoke (keyId : ℕ) (expectedOrgId : OrganizationId)
deriving DecidableEq, Repr

/-- The transaction sets the flag `revoked`. -/
def ApiKeyTx.revokes : ApiKeyTx → Bool
  | authenticate .. => false
  | revoke .. => true

/-- The row that a transaction saves. -/
def ApiKeyTx.update : ApiKeyTx → ApiKey → Option ApiKey
  | authenticate _ now used, k =>
    if k.isValid now then some { k with lastUsedAt := some used } else none
  | revoke _ expectedOrgId, k =>
    if k.organizationId = expectedOrgId then some { k with revoked := true } else none

/-- What a transaction does to the row that it has read. -/
theorem ApiKeyTx.update_cases {tx : ApiKeyTx} {copy row : ApiKey} (h : tx.update copy = some row) :
    tx.revokes = false ∧ (∃ used, row = { copy with lastUsedAt := some used }) ∨
      tx.revokes = true ∧ row = { copy with revoked := true } := by
  cases tx with
  | authenticate keyHash now used =>
    rw [ApiKeyTx.update, Option.ite_none_right_eq_some, Option.some.injEq] at h
    exact .inl ⟨rfl, used, h.2.symm⟩
  | revoke keyId expectedOrgId =>
    rw [ApiKeyTx.update, Option.ite_none_right_eq_some, Option.some.injEq] at h
    exact .inr ⟨rfl, h.2.symm⟩

/-- What a transaction does with the row of an API key. -/
def ApiKeyTx.program (tx : ApiKeyTx) : Program ApiKey ApiKey.id where
  selects k :=
    match tx with
    | authenticate keyHash _ _ => k.keyHash = keyHash
    | revoke keyId _ => k.id = keyId
  update := tx.update
  key_update := by
    intro copy row h
    obtain ⟨-, used, rfl⟩ | ⟨-, rfl⟩ := ApiKeyTx.update_cases h <;> rfl

/-! ### Enrolment tokens -/

/-- The transactions on the row of an enrolment token. -/
inductive EnrollmentTokenTx
  /-- `EnrollmentService.enrollDevice`. -/
  | enrollDevice (tokenValue : String) (now : Instant)
  /-- `EnrollmentService.revokeToken`. -/
  | revokeToken (tokenId : ℕ) (expectedOrgId : OrganizationId)
deriving DecidableEq, Repr

/-- The transaction sets the flag `revoked`. -/
def EnrollmentTokenTx.revokes : EnrollmentTokenTx → Bool
  | enrollDevice .. => false
  | revokeToken .. => true

/-- The transaction enrols a device. -/
def EnrollmentTokenTx.enrols : EnrollmentTokenTx → Bool
  | enrollDevice .. => true
  | revokeToken .. => false

/-- The row that a transaction saves. -/
def EnrollmentTokenTx.update : EnrollmentTokenTx → EnrollmentToken → Option EnrollmentToken
  | enrollDevice _ now, t =>
    if t.isValid now then some { t with useCount := t.useCount + 1 } else none
  | revokeToken _ expectedOrgId, t =>
    if t.organizationId = expectedOrgId then some { t with revoked := true } else none

/-- What a transaction does to the row that it has read. -/
theorem EnrollmentTokenTx.update_cases {tx : EnrollmentTokenTx} {copy row : EnrollmentToken}
    (h : tx.update copy = some row) :
    tx.revokes = false ∧ tx.enrols = true ∧ (∃ now, copy.isValid now) ∧
        row = { copy with useCount := copy.useCount + 1 } ∨
      tx.revokes = true ∧ tx.enrols = false ∧ row = { copy with revoked := true } := by
  cases tx with
  | enrollDevice tokenValue now =>
    rw [EnrollmentTokenTx.update, Option.ite_none_right_eq_some, Option.some.injEq] at h
    exact .inl ⟨rfl, rfl, ⟨now, h.1⟩, h.2.symm⟩
  | revokeToken tokenId expectedOrgId =>
    rw [EnrollmentTokenTx.update, Option.ite_none_right_eq_some, Option.some.injEq] at h
    exact .inr ⟨rfl, rfl, h.2.symm⟩

/-- What a transaction does with the row of an enrolment token. -/
def EnrollmentTokenTx.program (tx : EnrollmentTokenTx) :
    Program EnrollmentToken EnrollmentToken.token where
  selects t :=
    match tx with
    | enrollDevice tokenValue _ => t.token = tokenValue
    | revokeToken tokenId _ => t.id = tokenId
  update := tx.update
  key_update := by
    intro copy row h
    obtain ⟨-, -, -, rfl⟩ | ⟨-, -, rfl⟩ := EnrollmentTokenTx.update_cases h <;> rfl

/-! ### One transaction alone -/

section Alone

variable {ι : Type*} [DecidableEq ι] {i : ι}

/-- An authentication that runs alone, if the key is valid. -/
theorem rows_of_authenticate {tx : ι → ApiKeyTx} {sha256 : String → String} {now used : Instant}
    {rawKey : String} {d : Directory} {principal : ApiKeyPrincipal}
    (htx : tx i = .authenticate (sha256 rawKey) now used)
    (h : (authenticate sha256 now used rawKey d).1 = some principal) :
    (exec (ReadCommitted.step fun i => (tx i).program) (.start d.apiKeys.toTable)
      [.read i, .write i, .commit i]).map State.rows =
      some (authenticate sha256 now used rawKey d).2.apiKeys.toTable := by
  rcases hkey : (findByKeyHash d (sha256 rawKey)).filter fun k => k.isValid now with _ | key
  · simp [authenticate, hkey] at h
  · obtain ⟨hfind, hvalid⟩ := Option.filter_eq_some_iff.mp hkey
    have hid := Table.mem_rows_iff.mp (List.mem_of_find?_eq_some hfind)
    have hselect : d.apiKeys.rows.find? (tx i).program.selects = some key := by
      rw [htx]
      exact hfind
    have hupdate : (tx i).program.update key = some { key with lastUsedAt := some used } := by
      rw [htx]
      exact if_pos hvalid
    simp only [authenticate, hkey]
    rw [rows_of_exec_alone (fun i => (tx i).program) hselect hupdate]
    rw [SerialTable.toTable_modify_eq_save hid]

/-- A revocation of an API key that runs alone. -/
theorem rows_of_revokeApiKey {tx : ι → ApiKeyTx} {keyId : ℕ} {expectedOrgId : OrganizationId}
    {d d' : Directory} (htx : tx i = .revoke keyId expectedOrgId)
    (h : (revokeApiKey keyId expectedOrgId).run d = .ok ((), d')) :
    (exec (ReadCommitted.step fun i => (tx i).program) (.start d.apiKeys.toTable)
      [.read i, .write i, .commit i]).map State.rows = some d'.apiKeys.toTable := by
  rw [revokeApiKey, Tx.run_get_bind_eq_ok, Tx.run_orElseThrow_bind_eq_ok] at h
  obtain ⟨key, hkey, h⟩ := h
  obtain ⟨hfind, horg⟩ := Option.filter_eq_some_iff.mp hkey
  obtain ⟨-, rfl⟩ := Prod.mk.inj (Except.ok.inj h)
  have hid : d.apiKeys.find? key.id = some key :=
    Table.mem_rows_iff.mp (Table.mem_of_find?_eq_some hfind)
  have hselect : d.apiKeys.rows.find? (tx i).program.selects = some key := by
    rw [htx]
    exact hfind
  have hupdate : (tx i).program.update key = some { key with revoked := true } := by
    rw [htx]
    exact if_pos (of_decide_eq_true horg)
  rw [rows_of_exec_alone (fun i => (tx i).program) hselect hupdate]
  rw [SerialTable.toTable_modify_eq_save hid]

/-- An enrolment that runs alone. -/
theorem rows_of_enrollDevice {tx : ι → EnrollmentTokenTx} {pki : PkiContext} {env : Env}
    {tokenValue deviceId : String} {facts : DeviceFacts} {db db' : Db} {r : EnrollmentResult}
    (htx : tx i = .enrollDevice tokenValue env.now)
    (h : (enrollDevice pki env tokenValue deviceId facts).run db = .ok (r, db')) :
    (exec (ReadCommitted.step fun i => (tx i).program) (.start db.enrollmentTokens)
      [.read i, .write i, .commit i]).map State.rows = some db'.enrollmentTokens := by
  obtain ⟨token, hfind, hvalid, -, -, rfl⟩ := enrollDevice_run_eq_ok.mp h
  have hselect : db.enrollmentTokens.rows.find? (tx i).program.selects = some token := by
    rw [htx]
    exact hfind
  refine rows_of_exec_alone (fun i => (tx i).program) hselect ?_
  rw [htx]
  exact if_pos hvalid

/-- A revocation of an enrolment token that runs alone. -/
theorem rows_of_revokeToken {tx : ι → EnrollmentTokenTx} {tokenId : ℕ}
    {expectedOrgId : OrganizationId} {db db' : Db} (htx : tx i = .revokeToken tokenId expectedOrgId)
    (h : (revokeToken tokenId expectedOrgId).run db = .ok ((), db')) :
    (exec (ReadCommitted.step fun i => (tx i).program) (.start db.enrollmentTokens)
      [.read i, .write i, .commit i]).map State.rows = some db'.enrollmentTokens := by
  rw [revokeToken, Tx.run_get_bind_eq_ok, Tx.run_orElseThrow_bind_eq_ok] at h
  obtain ⟨token, htoken, h⟩ := h
  obtain ⟨hfind, horg⟩ := Option.filter_eq_some_iff.mp htoken
  obtain ⟨-, rfl⟩ := Prod.mk.inj (Except.ok.inj h)
  have hselect : db.enrollmentTokens.rows.find? (tx i).program.selects = some token := by
    rw [htx]
    exact hfind
  refine rows_of_exec_alone (fun i => (tx i).program) hselect ?_
  rw [htx]
  exact if_pos (of_decide_eq_true horg)

end Alone

/-! ### Revocations -/

section Revocations

variable {ι : Type*}

/-- An API key whose revocation has committed is revoked. -/
def ApiKeyTx.RevocationsFinal (tx : ι → ApiKeyTx) (s : State ApiKey.id ι) : Prop :=
  ∀ i copy row, (tx i).revokes → s.pc i = .committed copy row →
    ∀ stored ∈ s.rows.find? row.id, stored.revoked

/-- An enrolment token whose revocation has committed is revoked. -/
def EnrollmentTokenTx.RevocationsFinal (tx : ι → EnrollmentTokenTx)
    (s : State EnrollmentToken.token ι) : Prop :=
  ∀ i copy row, (tx i).revokes → s.pc i = .committed copy row →
    ∀ stored ∈ s.rows.find? row.token, stored.revoked

/-- The step commits an authentication that has read the row of its key before the key was
revoked. -/
def ApiKeyTx.overtaken (tx : ι → ApiKeyTx) (s : State ApiKey.id ι) (a : Action ι) : Bool :=
  overtakes ApiKey.revoked (fun i => (tx i).revokes) s a

/-- The step commits an enrolment that has read the row of its token before the token was
revoked. -/
def EnrollmentTokenTx.overtaken (tx : ι → EnrollmentTokenTx) (s : State EnrollmentToken.token ι)
    (a : Action ι) : Bool :=
  overtakes EnrollmentToken.revoked (fun i => (tx i).revokes) s a

/-- A revocation sets the flag of an API key, and an authentication writes it back. -/
theorem ApiKeyTx.flag (tx : ι → ApiKeyTx) :
    Flag (fun i => (tx i).program) ApiKey.revoked fun i => (tx i).revokes := by
  refine ⟨fun {i copy row} hsets h => ?_, fun {i copy row} hkeeps h => ?_⟩
  · obtain ⟨hkeeps, -⟩ | ⟨-, rfl⟩ := ApiKeyTx.update_cases h
    · exact nomatch hkeeps.symm.trans hsets
    · rfl
  · obtain ⟨-, used, rfl⟩ | ⟨hsets, -⟩ := ApiKeyTx.update_cases h
    · rfl
    · exact nomatch hkeeps.symm.trans hsets

/-- A revocation sets the flag of an enrolment token, and an enrolment writes it back. -/
theorem EnrollmentTokenTx.flag (tx : ι → EnrollmentTokenTx) :
    Flag (fun i => (tx i).program) EnrollmentToken.revoked fun i => (tx i).revokes := by
  refine ⟨fun {i copy row} hsets h => ?_, fun {i copy row} hkeeps h => ?_⟩
  · obtain ⟨hkeeps, -⟩ | ⟨-, -, rfl⟩ := EnrollmentTokenTx.update_cases h
    · exact nomatch hkeeps.symm.trans hsets
    · rfl
  · obtain ⟨-, -, -, rfl⟩ | ⟨hsets, -⟩ := EnrollmentTokenTx.update_cases h
    · rfl
    · exact nomatch hkeeps.symm.trans hsets

end Revocations

/-- **Revocations are final.** In every interleaving of any number of authentications and
revocations of API keys, and of enrolments and revocations of enrolment tokens, in which no use
commits that has read its row before the row was revoked, a credential whose revocation has
committed is revoked in every later state; and such a commit makes a credential valid again. -/
theorem revocations_final {ι : Type*} [DecidableEq ι] :
    (∀ (tx : ι → ApiKeyTx) (s₀ s : State ApiKey.id ι), Starting s₀ →
      Reaches (ReadCommitted.step fun i => (tx i).program)
        (fun s a => ApiKeyTx.overtaken tx s a = false) s₀ s →
        ApiKeyTx.RevocationsFinal tx s ∧
          ∀ a t, ReadCommitted.step (fun i => (tx i).program) s a = some t →
            (ApiKeyTx.RevocationsFinal tx t ↔ ApiKeyTx.overtaken tx s a = false)) ∧
    ∀ (tx : ι → EnrollmentTokenTx) (s₀ s : State EnrollmentToken.token ι), Starting s₀ →
      Reaches (ReadCommitted.step fun i => (tx i).program)
        (fun s a => EnrollmentTokenTx.overtaken tx s a = false) s₀ s →
        EnrollmentTokenTx.RevocationsFinal tx s ∧
          ∀ a t, ReadCommitted.step (fun i => (tx i).program) s a = some t →
            (EnrollmentTokenTx.RevocationsFinal tx t ↔
              EnrollmentTokenTx.overtaken tx s a = false) :=
  ⟨fun tx _ _ h₀ h => flagFinal_of_reaches (ApiKeyTx.flag tx) h₀ h,
    fun tx _ _ h₀ h => flagFinal_of_reaches (EnrollmentTokenTx.flag tx) h₀ h⟩

/-! ### A use and a revocation -/

namespace Race

/-- A key of organization 1. -/
def key : ApiKey := ⟨1, 1, "hash", "egk", "ci", [], none, false, none, none⟩

/-- A token of organization 1, for one device. -/
def token : EnrollmentToken := ⟨1, 1, "egt", "site", none, some 1, 0, false⟩

/-- The key is used, and revoked. -/
def keyTx : Bool → ApiKeyTx
  | false => .authenticate "hash" 5 6
  | true => .revoke 1 1

/-- The token is used, and revoked. -/
def tokenTx : Bool → EnrollmentTokenTx
  | false => .enrollDevice "egt" 5
  | true => .revokeToken 1 1

/-- The two transactions, one after the other. -/
def oneAfterTheOther : List (Action Bool) :=
  [.read false, .write false, .commit false, .read true, .write true, .commit true]

/-- The second one, while the first one has read and not written. -/
def overlapping : List (Action Bool) :=
  [.read false, .read true, .write true, .commit true, .write false, .commit false]

end Race

open Race in
/-- A key and a token that are revoked after they were used. -/
theorem revocations_final_after_use :
    (∃ s, (Reaches (ReadCommitted.step fun i => (keyTx i).program)
          (fun s a => ApiKeyTx.overtaken keyTx s a = false) (.start (Table.empty.save key)) s ∧
        s.log = [(false, 1), (true, 1)]) ∧ ApiKeyTx.RevocationsFinal keyTx s) ∧
      ∃ s, (Reaches (ReadCommitted.step fun i => (tokenTx i).program)
          (fun s a => EnrollmentTokenTx.overtaken tokenTx s a = false)
          (.start (Table.empty.save token)) s ∧
        s.log = [(false, "egt"), (true, "egt")]) ∧
        EnrollmentTokenTx.RevocationsFinal tokenTx s := by
  obtain ⟨s, hs⟩ : ∃ s, Reaches (ReadCommitted.step fun i => (keyTx i).program)
      (fun s a => ApiKeyTx.overtaken keyTx s a = false) (.start (Table.empty.save key)) s ∧
        s.log = [(false, 1), (true, 1)] :=
    exists_reaches_of_execBy oneAfterTheOther (by decide +kernel)
  obtain ⟨t, ht⟩ : ∃ s, Reaches (ReadCommitted.step fun i => (tokenTx i).program)
      (fun s a => EnrollmentTokenTx.overtaken tokenTx s a = false)
      (.start (Table.empty.save token)) s ∧ s.log = [(false, "egt"), (true, "egt")] :=
    exists_reaches_of_execBy oneAfterTheOther (by decide +kernel)
  exact ⟨⟨s, hs, (revocations_final.1 keyTx _ s (starting_start _) hs.1).1⟩,
    t, ht, (revocations_final.2 tokenTx _ t (starting_start _) ht.1).1⟩

open Race in
/-- A key and a token that were used while they were revoked are valid again. -/
theorem revocations_taken_back :
    (¬ ∀ s, Reachable (ReadCommitted.step fun i => (keyTx i).program)
        (.start (Table.empty.save key)) s →
      ApiKeyTx.RevocationsFinal keyTx s) ∧
    ¬ ∀ s, Reachable (ReadCommitted.step fun i => (tokenTx i).program)
        (.start (Table.empty.save token)) s →
      EnrollmentTokenTx.RevocationsFinal tokenTx s := by
  constructor
  · intro hall
    obtain ⟨s, hreach, hpc, hrow⟩ : ∃ s, Reachable (ReadCommitted.step fun i => (keyTx i).program)
        (.start (Table.empty.save key)) s ∧
          s.pc true = .committed key { key with revoked := true } ∧
          s.rows.find? 1 = some { key with lastUsedAt := some 6 } :=
      exists_reaches_of_execBy overlapping (by decide +kernel)
    exact nomatch hall s hreach true _ _ rfl hpc _ hrow
  · intro hall
    obtain ⟨s, hreach, hpc, hrow⟩ : ∃ s, Reachable (ReadCommitted.step fun i => (tokenTx i).program)
        (.start (Table.empty.save token)) s ∧
          s.pc true = .committed token { token with revoked := true } ∧
          s.rows.find? "egt" = some { token with useCount := 1 } :=
      exists_reaches_of_execBy overlapping (by decide +kernel)
    exact nomatch hall s hreach true _ _ rfl hpc _ hrow

/-! ### Enrolments -/

section Enrolments

variable {ι : Type*}

/-- The number of enrolments with a token that have succeeded. -/
def EnrollmentTokenTx.successes (tx : ι → EnrollmentTokenTx) (s : State EnrollmentToken.token ι)
    (tokenValue : String) : ℕ :=
  s.log.countP fun e => (tx e.1).enrols && decide (e.2 = tokenValue)

/-- The uses of every token are those before and its enrolments that have succeeded, and these do
not take it over its limit. -/
def EnrolmentsCounted (tx : ι → EnrollmentTokenTx) (s₀ s : State EnrollmentToken.token ι) : Prop :=
  ∀ tokenValue, ∀ t₀ ∈ s₀.rows.find? tokenValue, ∃ t ∈ s.rows.find? tokenValue,
    t.maxUses = t₀.maxUses ∧
    t.useCount.toInt = t₀.useCount.toInt + EnrollmentTokenTx.successes tx s tokenValue ∧
    ∀ m ∈ t.maxUses, 0 < EnrollmentTokenTx.successes tx s tokenValue →
      t₀.useCount.toInt + EnrollmentTokenTx.successes tx s tokenValue ≤ m.toInt

/-- The step commits only over the number of uses that its transaction has read, and an enrolment
only if there is a larger `int` than that. -/
def EnrollmentTokenTx.countsUp (tx : ι → EnrollmentTokenTx) (s : State EnrollmentToken.token ι)
    (a : Action ι) : Bool :=
  current (fun t => t.useCount.toInt) Int32.maxValue.toInt (fun i => (tx i).enrols) s a

/-- An enrolment counts the uses of its token up, if there are less than its limit. After the
largest `int` comes the smallest one. -/
theorem EnrollmentTokenTx.counter (tx : ι → EnrollmentTokenTx) :
    Counter (fun i => (tx i).program) (fun t => t.useCount.toInt)
      (fun t => t.maxUses.map Int32.toInt) Int32.maxValue.toInt fun i => (tx i).enrols := by
  have hcases : ∀ {i copy row}, (tx i).enrols → (tx i).program.update copy = some row →
      (∃ now, copy.isValid now) ∧
        row.useCount.toInt = (copy.useCount.toInt + 1).bmod (2 ^ 32) := by
    intro i copy row hcounts h
    obtain ⟨-, -, hvalid, rfl⟩ | ⟨-, hkeeps, -⟩ := EnrollmentTokenTx.update_cases h
    · exact ⟨hvalid, Int32.toInt_add _ _⟩
    · exact nomatch hkeeps.symm.trans hcounts
  have hmax : Int32.maxValue.toInt = 2147483647 := rfl
  refine ⟨fun {i copy row} hcounts h hbelow => ?_, fun {i copy row} hcounts h htop stored => ?_,
    fun {i copy row} hcounts h m hm => ?_, fun {i copy row} hkeeps h => ?_,
    fun {i copy row} h => ?_⟩
  · have hleast := Int32.le_toInt copy.useCount
    rw [(hcases hcounts h).2]
    exact Int.bmod_eq_of_le (by omega) (by omega)
  · have hgreatest := Int32.toInt_lt copy.useCount
    have hleast := Int32.le_toInt stored.useCount
    have hlast : copy.useCount.toInt = 2147483647 := by omega
    rw [(hcases hcounts h).2, hlast]
    intro hwrapped
    have hsmallest : (2147483647 + 1 : ℤ).bmod (2 ^ 32) = -2147483648 := by decide
    omega
  · obtain ⟨limit, hlimit, rfl⟩ := Option.map_eq_some_iff.mp hm
    obtain ⟨now, hvalid⟩ := (hcases hcounts h).1
    simp only [EnrollmentToken.isValid, hlimit, Option.any_some, Bool.and_eq_true,
      Bool.not_eq_true', decide_eq_false_iff_not, Int32.not_le] at hvalid
    exact Int32.lt_iff_toInt_lt.mp hvalid.2
  · obtain ⟨-, hcounts, -⟩ | ⟨-, -, rfl⟩ := EnrollmentTokenTx.update_cases h
    · exact nomatch hkeeps.symm.trans hcounts
    · rfl
  · obtain ⟨-, -, -, rfl⟩ | ⟨-, -, rfl⟩ := EnrollmentTokenTx.update_cases h <;> rfl

/-- The uses and the limits are the values of the columns. -/
theorem counted_iff_enrolmentsCounted {tx : ι → EnrollmentTokenTx}
    {s₀ s : State EnrollmentToken.token ι} :
    Counted (fun t => t.useCount.toInt) (fun t => t.maxUses.map Int32.toInt)
      (fun i => (tx i).enrols) s₀ s ↔ EnrolmentsCounted tx s₀ s := by
  have hinj : Function.Injective Int32.toInt := fun _ _ => Int32.toInt_inj.mp
  simp only [Counted, EnrolmentsCounted, (Option.map_injective hinj).eq_iff, Option.mem_def,
    Option.map_eq_some_iff, forall_exists_index, and_imp, forall_apply_eq_imp_iff₂]
  rfl

end Enrolments

/-- **Enrolments are counted.** In every interleaving of any number of enrolments and revocations in
which a transaction commits only over the number of uses that it has read, and no enrolment counts
the largest `int` up, the stored number of uses of every token has grown by one for each enrolment
that has succeeded, these do not take it over its limit, and no transaction succeeds twice; and
another commit is not counted. -/
theorem enrolments_counted {ι : Type*} [DecidableEq ι] {tx : ι → EnrollmentTokenTx}
    {s₀ s : State EnrollmentToken.token ι} (h₀ : Starting s₀)
    (h : Reaches (ReadCommitted.step fun i => (tx i).program)
      (fun s a => EnrollmentTokenTx.countsUp tx s a = true) s₀ s) :
    EnrolmentsCounted tx s₀ s ∧ (s.log.map Prod.fst).Nodup ∧
      ∀ a t, ReadCommitted.step (fun i => (tx i).program) s a = some t →
        (EnrolmentsCounted tx s₀ t ↔ EnrollmentTokenTx.countsUp tx s a = true) := by
  obtain ⟨hcounted, hexact⟩ := counted_of_reaches (EnrollmentTokenTx.counter tx) h₀ h
  refine ⟨counted_iff_enrolmentsCounted.mp hcounted, nodup_log_of_reaches h₀ h, fun a t hstep => ?_⟩
  exact counted_iff_enrolmentsCounted.symm.trans (hexact a t hstep)

/-! ### Two enrolments -/

namespace Race

/-- Two devices are enrolled with the token for one device. -/
def twoEnrolments : Bool → EnrollmentTokenTx := fun _ => .enrollDevice "egt" 5

end Race

open Race in
/-- The second of two enrolments one after the other finds the token used up. -/
theorem enrolments_counted_one_after_the_other :
    ∃ s, (Reaches (ReadCommitted.step fun i => (twoEnrolments i).program)
          (fun s a => EnrollmentTokenTx.countsUp twoEnrolments s a = true)
          (.start (Table.empty.save token)) s ∧
        s.pc true = .ended ∧ EnrollmentTokenTx.successes twoEnrolments s "egt" = 1) ∧
      EnrolmentsCounted twoEnrolments (.start (Table.empty.save token)) s := by
  obtain ⟨s, hs⟩ : ∃ s, Reaches (ReadCommitted.step fun i => (twoEnrolments i).program)
      (fun s a => EnrollmentTokenTx.countsUp twoEnrolments s a = true)
      (.start (Table.empty.save token)) s ∧
        s.pc true = .ended ∧ EnrollmentTokenTx.successes twoEnrolments s "egt" = 1 :=
    exists_reaches_of_execBy [.read false, .write false, .commit false, .read true]
      (by decide +kernel)
  exact ⟨s, hs, (enrolments_counted (starting_start _) hs.1).1⟩

open Race in
/-- Two enrolments that have both read the token before one of them commits succeed both, and are
counted as one. -/
theorem two_enrolments_counted_as_one :
    ¬ ∀ s, Reachable (ReadCommitted.step fun i => (twoEnrolments i).program)
        (.start (Table.empty.save token)) s →
      EnrolmentsCounted twoEnrolments (.start (Table.empty.save token)) s := by
  intro hall
  obtain ⟨s, hreach, hsuccesses, hrow⟩ :
      ∃ s, Reachable (ReadCommitted.step fun i => (twoEnrolments i).program)
        (.start (Table.empty.save token)) s ∧
        EnrollmentTokenTx.successes twoEnrolments s "egt" = 2 ∧
        s.rows.find? "egt" = some { token with useCount := 1 } :=
    exists_reaches_of_execBy overlapping (by decide +kernel)
  obtain ⟨t, ht, hlimit, -, hbound⟩ := hall s hreach "egt" token (by decide +kernel)
  rw [hsuccesses] at hbound
  exact absurd (hbound 1 hlimit (by decide)) (by decide)

end EdgeGuardian.Controller
