import EdgeGuardian.Controller.VerifiedEmail

/-!
# Invitations that nobody can take

Invitations are stored under the trimmed e-mail in lower case, and are taken when a user registers.
Users are stored with the e-mail as the identity provider sends it, and this is the e-mail under
which an invitation looks for a registered user. An invitation for the e-mail of a user in another
spelling therefore waits for a registration that has already taken place, as does one for an e-mail
that a registered user changes to.

Source: `controller/src/main/java/com/edgeguardian/controller/service/OrganizationService.java`,
`UserService.java`, `controller/src/main/resources/db/migration/V7__invitations.sql`.

## Main definitions

* `NoStranded`: no invitation is pending for the normalized e-mail of a user.
* `Strands`: the call leaves an invitation that nobody can take.

## Main results

* `mem_invitations_of_resolve`: a registration takes all invitations of its e-mail.
* `noStranded_of_reaches`: there is no such invitation along the runs without such calls, and every
  such call makes one.
-/

namespace EdgeGuardian.Controller

open Transition

/-! ### Pending e-mails -/

/-- There is an invitation for the e-mail. -/
def PendingEmail (d : Directory) (email : String) : Prop :=
  ∃ i ∈ d.invitations.rows, i.email = email

instance (d : Directory) (email : String) : Decidable (PendingEmail d email) :=
  inferInstanceAs (Decidable (∃ _ ∈ _, _))

section Pending

variable {toLowerCase : String → String} {d d' : Directory} {email : String}

theorem pendingEmail_of_deleteInvitation {id : ℕ} (h : PendingEmail (d.deleteInvitation id) email) :
    PendingEmail d email := by
  obtain ⟨i, hi, he⟩ := h
  exact ⟨i, (SerialTable.mem_delete.mp hi).1, he⟩

/-- A change of the role keeps the e-mail of an invitation. -/
theorem pendingEmail_setInvitation {id : ℕ} {role : OrgRole} {invitedByUserId : Option UserId} :
    PendingEmail (d.setInvitation id role invitedByUserId) email ↔ PendingEmail d email := by
  constructor
  · rintro ⟨i, hi, he⟩
    rcases SerialTable.mem_modify.mp hi with ⟨b, hb, -, rfl⟩ | ⟨hi, -⟩
    · exact ⟨b, hb, he⟩
    · exact ⟨i, hi, he⟩
  · rintro ⟨i, hi, he⟩
    by_cases hid : i.id = id
    · exact ⟨_, SerialTable.mem_modify.mpr (.inl ⟨i, hi, hid, rfl⟩), he⟩
    · exact ⟨i, SerialTable.mem_modify.mpr (.inr ⟨hi, hid⟩), he⟩

theorem pendingEmail_insertInvitation {orgId : OrganizationId} {newEmail : String} {role : OrgRole}
    {invitedByUserId : Option UserId} :
    PendingEmail (d.insertInvitation orgId newEmail role invitedByUserId) email ↔
      PendingEmail d email ∨ email = newEmail := by
  constructor
  · rintro ⟨i, hi, he⟩
    rcases mem_insertInvitation.mp hi with hi | rfl
    · exact .inl ⟨i, hi, he⟩
    · exact .inr he.symm
  · rintro (⟨i, hi, he⟩ | rfl)
    · exact ⟨i, mem_insertInvitation.mpr (.inl hi), he⟩
    · exact ⟨_, mem_insertInvitation.mpr (.inr rfl), rfl⟩

/-- One turn of `resolvePendingInvitations` removes its invitation and no other. -/
theorem mem_invitations_of_turn {userId : UserId} {inv i : OrganizationInvitation}
    (h : (resolveInvitation userId inv).run d = .ok ((), d')) (hi : i ∈ d'.invitations.rows) :
    i ∈ d.invitations.rows ∧ i.id ≠ inv.id := by
  rcases resolveInvitation_cases h with rfl | ⟨-, -, -, rfl⟩ <;> exact SerialTable.mem_delete.mp hi

/-- The turns of `resolvePendingInvitations` remove every invitation that has a turn. -/
theorem mem_invitations_of_turns {userId : UserId} {l : List OrganizationInvitation}
    {i : OrganizationInvitation} (h : (l.forM (resolveInvitation userId)).run d = .ok ((), d'))
    (hi : i ∈ d'.invitations.rows) : i ∈ d.invitations.rows ∧ ∀ inv ∈ l, i.id ≠ inv.id := by
  induction l generalizing d with
  | nil =>
    obtain ⟨-, rfl⟩ := Prod.mk.inj (Tx.run_pure_eq_ok.mp h)
    exact ⟨hi, fun _ hinv => nomatch hinv⟩
  | cons inv l ih =>
    rw [List.forM_eq_forM, List.forM_cons, Tx.run_bind_eq_ok] at h
    obtain ⟨_, u, hturn, hturns⟩ := h
    obtain ⟨hu, hrest⟩ := ih hturns
    obtain ⟨hd, hne⟩ := mem_invitations_of_turn hturn hu
    exact ⟨hd, List.forall_mem_cons.mpr ⟨hne, hrest⟩⟩

/-- A registration takes all invitations of its e-mail. -/
theorem mem_invitations_of_resolve {user : User} {i : OrganizationInvitation}
    (h : (resolvePendingInvitations toLowerCase user).run d = .ok ((), d'))
    (hi : i ∈ d'.invitations.rows) : i ∈ d.invitations.rows ∧
      (i.email ≠ "" → i.email ≠ normalizeEmail toLowerCase (some user.email)) := by
  rcases resolvePendingInvitations_cases h with ⟨hempty, rfl⟩ | hturns
  · exact ⟨hi, fun hne => by rwa [hempty]⟩
  · obtain ⟨hd, hother⟩ := mem_invitations_of_turns hturns hi
    refine ⟨hd, fun _ heq => ?_⟩
    exact hother i (List.mem_filter.mpr ⟨hd, decide_eq_true heq⟩) rfl

end Pending

/-! ### Stranded invitations -/

/-- No invitation is pending for the normalized e-mail of a user. -/
def NoStranded (toLowerCase : String → String) (d : Directory) : Prop :=
  ∀ i ∈ d.invitations.rows, ∀ u ∈ d.users.rows,
    i.email ≠ normalizeEmail toLowerCase (some u.email)

/-- A sign-in has a verified e-mail. -/
def DirectoryCall.Verified : DirectoryCall → Prop
  | .syncFromJwt jwt => jwt.emailVerified = true
  | _ => True

instance : DecidablePred DirectoryCall.Verified
  | .syncFromJwt jwt => inferInstanceAs (Decidable (jwt.emailVerified = true))
  | .create .. | .addMember .. | .updateMemberRole .. | .removeMemberById .. | .inviteMember ..
  | .resolvePendingInvitations .. | .revokeInvitation .. | .delete .. => isTrue trivial

/-- The call leaves an invitation that nobody can take: an invitation is saved for the e-mail of a
user in another spelling, or the e-mail of a known subject changes to one that is pending. -/
def Strands (toLowerCase : String → String) (d : Directory) : DirectoryCall → Prop
  | .inviteMember orgId rawEmail role invitedByUserId =>
    (role ≠ .owner ∧ normalizeEmail toLowerCase rawEmail ≠ "" ∧
      (d.organizations.find? orgId).isSome ∧
      ∀ u ∈ invitedByUserId, (d.users.find? u).isSome) ∧
    findUserByEmail d (normalizeEmail toLowerCase rawEmail) = none ∧
    ∃ u ∈ d.users.rows,
      normalizeEmail toLowerCase (some u.email) = normalizeEmail toLowerCase rawEmail
  | .syncFromJwt jwt =>
    ∃ user ∈ jwt.subject.bind (findByKeycloakId d), UniqueUser d (user.withProfile jwt) ∧
      PendingEmail d (normalizeEmail toLowerCase (some (user.withProfile jwt).email))
  | _ => False

instance (toLowerCase : String → String) (d : Directory) : DecidablePred (Strands toLowerCase d)
  | .inviteMember .. => inferInstanceAs (Decidable ((_ ∧ _ ∧ _ ∧ _) ∧ _ ∧ _))
  | .syncFromJwt jwt =>
    match h : jwt.subject.bind (findByKeycloakId d) with
    | none => isFalse fun ⟨_, huser, _⟩ => nomatch h.symm.trans huser
    | some user => decidable_of_iff (UniqueUser d (user.withProfile jwt) ∧
        PendingEmail d (normalizeEmail toLowerCase (some (user.withProfile jwt).email)))
        ⟨fun hp => ⟨user, h, hp⟩, fun ⟨_, huser, hp⟩ => by cases h.symm.trans huser; exact hp⟩
  | .create .. | .addMember .. | .updateMemberRole .. | .removeMemberById ..
  | .resolvePendingInvitations .. | .revokeInvitation .. | .delete .. => isFalse id

/-- The invariant: no invitation is stranded, and none is for a blank e-mail. -/
structure Unstranded (toLowerCase : String → String) (d : Directory) : Prop where
  notBlank : ∀ email, PendingEmail d email → email ≠ ""
  notPending : ∀ u ∈ d.users.rows, ¬ PendingEmail d (normalizeEmail toLowerCase (some u.email))

section Stranded

variable {toLowerCase : String → String} {d d' : Directory}

theorem noStranded_iff : NoStranded toLowerCase d ↔
    ∀ u ∈ d.users.rows, ¬ PendingEmail d (normalizeEmail toLowerCase (some u.email)) := by
  constructor
  · rintro h u hu ⟨i, hi, he⟩
    exact h i hi u hu he
  · intro h i hi u hu he
    exact h u hu ⟨i, hi, he⟩

/-- Where the users stay and no other e-mail becomes pending, the invariant stays. -/
theorem Unstranded.of_pending (hd : Unstranded toLowerCase d) (husers : d'.users = d.users)
    (hpending : ∀ email, PendingEmail d' email → PendingEmail d email) :
    Unstranded toLowerCase d' := by
  refine ⟨fun email he => hd.notBlank email (hpending email he), fun u hu he => ?_⟩
  rw [husers] at hu
  exact hd.notPending u hu (hpending _ he)

/-- A new invitation that is not stranded. -/
theorem Unstranded.insertInvitation {orgId : OrganizationId} {email : String} {role : OrgRole}
    {invitedByUserId : Option UserId} (hd : Unstranded toLowerCase d) (hemail : email ≠ "")
    (hnew : ∀ u ∈ d.users.rows, normalizeEmail toLowerCase (some u.email) ≠ email) :
    Unstranded toLowerCase (d.insertInvitation orgId email role invitedByUserId) := by
  refine ⟨fun e he => ?_, fun u hu he => ?_⟩
  · rcases pendingEmail_insertInvitation.mp he with he | rfl
    · exact hd.notBlank e he
    · exact hemail
  · rcases pendingEmail_insertInvitation.mp he with he | he
    · exact hd.notPending u hu he
    · exact hnew u hu he

/-- A user whose new e-mail is not pending is written. -/
theorem Unstranded.updateProfile {old user : User} {jwt : Jwt} (hd : Unstranded toLowerCase d)
    (hnew : UniqueUser d (old.withProfile jwt) →
      ¬ PendingEmail d (normalizeEmail toLowerCase (some (old.withProfile jwt).email)))
    (h : (updateProfile old jwt).run d = .ok (user, d')) : Unstranded toLowerCase d' := by
  obtain ⟨rfl, ⟨rfl, -⟩ | ⟨hunique, rfl⟩⟩ := updateProfile_cases h
  · exact hd
  · refine ⟨hd.notBlank, fun u hu he => ?_⟩
    rcases mem_setUser hu with rfl | ⟨hu, -⟩
    · exact hnew hunique he
    · exact hd.notPending u hu he

theorem Unstranded.synced {jwt : Jwt} {user : User} (hd : Unstranded toLowerCase d)
    (hverified : jwt.emailVerified = true) (hnot : ¬ Strands toLowerCase d (.syncFromJwt jwt))
    (h : Synced toLowerCase jwt d user d') : Unstranded toLowerCase d' := by
  cases h with
  | @bySubject known _ _ hfind hupdate =>
    exact hd.updateProfile (fun hunique he => hnot ⟨known, hfind, hunique, he⟩) hupdate
  | @byEmail subject existing _ _ _ _ hfind hupdate =>
    -- The e-mail of the token is the one that the user has.
    obtain ⟨email, hjwt, hexisting⟩ := Option.bind_eq_some_iff.mp hfind
    obtain ⟨hrow, hsame⟩ := findUserByEmail_eq_some hexisting
    refine hd.updateProfile (fun _ he => ?_) hupdate
    rw [User.withProfile, hjwt, Option.getD_some, ← hsame] at he
    exact hd.notPending existing (Table.mem_of_find?_eq_some hrow) he
  | @registered name slug description subject email _ _ _ _ _ _ hresolved =>
    rw [if_pos hverified] at hresolved
    have hmem : ∀ i ∈ d'.invitations.rows, i ∈ d.invitations.rows ∧
        (i.email ≠ "" → i.email ≠ normalizeEmail toLowerCase (some email)) := by
      intro i hi
      have hkept := mem_invitations_of_resolve hresolved hi
      exact hkept
    have husers : d'.users =
        (d.insertUser subject email (some (jwt.name.getD email)) jwt.picture).users := by
      have hsame := users_of_resolvePendingInvitations hresolved
      exact hsame
    refine ⟨?_, ?_⟩
    · rintro e ⟨i, hi, he⟩
      exact hd.notBlank e ⟨i, (hmem i hi).1, he⟩
    · rintro u hu ⟨i, hi, he⟩
      obtain ⟨hi, hother⟩ := hmem i hi
      rw [husers] at hu
      rcases mem_insertUser.mp hu with hu | rfl
      · exact hd.notPending u hu ⟨i, hi, he⟩
      · exact hother (hd.notBlank _ ⟨i, hi, rfl⟩) he

theorem Unstranded.committed {call : DirectoryCall} (hd : Unstranded toLowerCase d)
    (hverified : call.Verified) (hnot : ¬ Strands toLowerCase d call)
    (h : Committed toLowerCase d call d') : Unstranded toLowerCase d' := by
  cases h with
  | synced h => exact hd.synced hverified hnot h
  | created | joined | roleSet | removed | joinedByInvitation =>
    exact hd.of_pending rfl fun _ he => he
  | invitedAgain => exact hd.of_pending rfl fun _ he => pendingEmail_setInvitation.mp he
  | invited hrole hemail hnone hkeys =>
    refine hd.insertInvitation hemail fun u hu he => ?_
    exact hnot ⟨⟨hrole, hemail, hkeys⟩, hnone, u, hu, he⟩
  | resolved h =>
    refine hd.of_pending (users_of_resolvePendingInvitations h) ?_
    rintro email ⟨i, hi, he⟩
    exact ⟨i, (mem_invitations_of_resolve h hi).1, he⟩
  | uninvited => exact hd.of_pending rfl fun _ he => pendingEmail_of_deleteInvitation he
  | dissolved =>
    refine hd.of_pending rfl ?_
    rintro email ⟨i, hi, he⟩
    exact ⟨i, (SerialTable.mem_delete.mp hi).1, he⟩

theorem Unstranded.step {call : DirectoryCall} (hd : Unstranded toLowerCase d)
    (hverified : call.Verified) (hnot : ¬ Strands toLowerCase d call)
    (h : directoryStep toLowerCase d call = some d') : Unstranded toLowerCase d' := by
  rcases directoryStep_cases h with rfl | hcommitted
  · exact hd
  · exact hd.committed hverified hnot hcommitted

/-! ### Calls that strand an invitation -/

theorem exists_saveInvitation {orgId : OrganizationId} {invitedByUserId : Option UserId}
    (email : String) (role : OrgRole) (horg : (d.organizations.find? orgId).isSome)
    (hinviter : ∀ u ∈ invitedByUserId, (d.users.find? u).isSome) :
    ∃ inv d', (saveInvitation orgId email role invitedByUserId).run d = .ok (inv, d') ∧
      d'.users = d.users ∧ PendingEmail d' email := by
  simp only [saveInvitation, Tx.run_get_bind_eq_ok, Tx.run_require_bind_eq_ok]
  rcases hfind : findInvitation d orgId email with _ | old
  · refine ⟨_, d.insertInvitation orgId email role invitedByUserId, ⟨⟨horg, hinviter⟩, rfl⟩, rfl,
      ?_⟩
    exact pendingEmail_insertInvitation.mpr (.inr rfl)
  · have hold : old ∈ d.invitations.rows ∧ old.email = email := by
      rw [findInvitation] at hfind
      have hkey := List.find?_some hfind
      simp only [decide_eq_true_eq] at hkey
      exact ⟨List.mem_of_find?_eq_some hfind, hkey.2⟩
    refine ⟨_, d.setInvitation old.id role invitedByUserId, ⟨⟨horg, hinviter⟩, rfl⟩, rfl, ?_⟩
    exact pendingEmail_setInvitation.mpr ⟨old, hold⟩

/-- Such a call is committed, and strands an invitation. -/
theorem exists_stranded_of_strands {call : DirectoryCall} (h : Strands toLowerCase d call) :
    ∃ d', (call.perform toLowerCase).run d = .ok ((), d') ∧ ¬ NoStranded toLowerCase d' := by
  cases call with
  | inviteMember orgId rawEmail role invitedByUserId =>
    obtain ⟨⟨hrole, hemail, horg, hinviter⟩, hnone, u, hu, hsame⟩ := h
    obtain ⟨inv, d', hsave, husers, hpending⟩ := exists_saveInvitation
      (normalizeEmail toLowerCase rawEmail) role horg hinviter
    refine ⟨d', Tx.run_bind_eq_ok.mpr ⟨⟨none, none, some inv⟩, d', ?_, rfl⟩, fun hd => ?_⟩
    · simp only [inviteMember, rejectOwnerRole, Tx.run_require_bind_eq_ok, Tx.run_get_bind_eq_ok,
        hnone]
      exact ⟨hrole, hemail, Tx.run_bind_eq_ok.mpr ⟨inv, d', hsave, rfl⟩⟩
    · rw [← husers] at hu
      refine noStranded_iff.mp hd u hu ?_
      rw [hsame]
      exact hpending
  | syncFromJwt jwt =>
    obtain ⟨user, hfind, hunique, i, hi, he⟩ := h
    obtain ⟨d', hupdate⟩ := exists_updateProfile hunique
    have hsync : (syncFromJwt toLowerCase jwt).run d = .ok (user.withProfile jwt, d') := by
      rw [syncFromJwt, Tx.run_get_bind_eq_ok, Option.mem_def.mp hfind]
      exact hupdate
    refine ⟨d', Tx.run_bind_eq_ok.mpr ⟨_, d', hsync, rfl⟩, fun hd => ?_⟩
    obtain ⟨-, hinvitations, -⟩ := updateProfile_frame hupdate
    have huser : user.withProfile jwt ∈ d'.users.rows := by
      obtain ⟨-, ⟨rfl, hrow⟩ | ⟨-, rfl⟩⟩ := updateProfile_cases hupdate
      · exact Table.mem_of_find?_eq_some hrow
      · obtain ⟨subject, -, hknown⟩ := Option.bind_eq_some_iff.mp hfind
        have hrow := Table.mem_of_find?_eq_some (findByKeycloakId_eq_some hknown).1
        exact SerialTable.mem_modify.mpr (.inl ⟨user, hrow, rfl, rfl⟩)
    rw [← hinvitations] at hi
    exact hd i hi _ huser he
  | create | addMember | updateMemberRole | removeMemberById | resolvePendingInvitations
  | revokeInvitation | delete => exact h.elim

theorem not_noStranded_of_strands {call : DirectoryCall} (h : Strands toLowerCase d call)
    (hstep : directoryStep toLowerCase d call = some d') : ¬ NoStranded toLowerCase d' := by
  obtain ⟨t, hrun, hstranded⟩ := exists_stranded_of_strands h
  rw [directoryStep, Tx.commit_of_run_eq_ok hrun, Option.some.injEq] at hstep
  rw [← hstep]
  exact hstranded

end Stranded

/-- **No stranded invitation.** In every run from a directory without invitations whose sign-ins
have verified e-mails and whose calls all strand no invitation, no state has a pending invitation
for the normalized e-mail of a user; and a call that does strand one makes such a state. -/
theorem noStranded_of_reaches {toLowerCase : String → String} {d₀ d : Directory}
    (hempty : d₀.invitations.rows = [])
    (h : Reaches (directoryStep toLowerCase)
      (fun d call => call.Verified ∧ ¬ Strands toLowerCase d call) d₀ d) :
    NoStranded toLowerCase d ∧ ∀ call d', call.Verified →
      directoryStep toLowerCase d call = some d' →
        (NoStranded toLowerCase d' ↔ ¬ Strands toLowerCase d call) := by
  have hnone : ∀ email, ¬ PendingEmail d₀ email := by
    rintro email ⟨i, hi, -⟩
    rw [hempty] at hi
    exact nomatch hi
  have hd : Unstranded toLowerCase d :=
    h.invariant (Unstranded toLowerCase) (fun hu hok hstep => hu.step hok.1 hok.2 hstep)
      ⟨fun email he => absurd he (hnone email), fun _ _ => hnone _⟩
  refine ⟨noStranded_iff.mpr hd.notPending, fun call d' hverified hstep => ⟨?_, fun hnot => ?_⟩⟩
  · intro hsafe hstrands
    exact not_noStranded_of_strands hstrands hstep hsafe
  · exact noStranded_iff.mpr (hd.step hverified hnot hstep).notPending

/-! ### Two spellings of an e-mail -/

namespace Spelling

/-- Ada registers, invites the e-mail of Bob, and Bob registers with the given spelling of it. -/
def inviteThenRegister (email : String) : List DirectoryCall :=
  [Founding.signIn "ada" "ada@x.org", .inviteMember 1 (some "bob@x.org") .viewer (some 1),
    Founding.signIn "bob" email]

/-- Ada and Bob register, Bob with capitals, and Ada invites him. -/
def registerThenInvite : List DirectoryCall :=
  [Founding.signIn "ada" "ada@x.org", Founding.signIn "bob" "Bob@X.org",
    .inviteMember 1 (some "Bob@X.org") .viewer (some 1)]

end Spelling

open Spelling in
/-- Bob takes the invitation when he registers, in any spelling. -/
theorem noStranded_after_registration :
    ∃ d, (Reaches (directoryStep asciiLowerCase)
        (fun d call => call.Verified ∧ ¬ Strands asciiLowerCase d call) .empty d ∧
        d.users.rows.length = 2 ∧ d.members.rows.length = 3) ∧
      NoStranded asciiLowerCase d := by
  obtain ⟨d, hreach, hmembers⟩ : ∃ d, Reaches (directoryStep asciiLowerCase)
      (fun d call => call.Verified ∧ ¬ Strands asciiLowerCase d call) .empty d ∧
        d.users.rows.length = 2 ∧ d.members.rows.length = 3 :=
    exists_reaches_of_execBy (inviteThenRegister " Bob@X.org") (by decide +kernel)
  exact ⟨d, ⟨hreach, hmembers⟩, (noStranded_of_reaches rfl hreach).1⟩

open Spelling in
/-- Bob is registered, and the invitation of his e-mail stays pending. -/
theorem bob_is_stranded : ¬ ∀ d, Reaches (directoryStep asciiLowerCase)
    (fun _ call => call.Verified) .empty d → NoStranded asciiLowerCase d := by
  intro hall
  obtain ⟨d, hreach, i, hi, u, hu, he⟩ : ∃ d, Reaches (directoryStep asciiLowerCase)
      (fun _ call => call.Verified) .empty d ∧ ∃ i ∈ d.invitations.rows, ∃ u ∈ d.users.rows,
        i.email = normalizeEmail asciiLowerCase (some u.email) :=
    exists_reaches_of_execBy registerThenInvite (by decide +kernel)
  exact hall d hreach i hi u hu he

end EdgeGuardian.Controller
