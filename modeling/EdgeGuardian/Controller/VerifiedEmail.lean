import EdgeGuardian.Controller.Ownership

/-!
# Sign-ins with an e-mail that is not verified

A user who registers gets the memberships of pending invitations only if the e-mail is verified. A
user who is found by the e-mail of the token is bound to its subject whether or not the e-mail is
verified. A sign-in without a verified e-mail therefore returns the user of somebody else exactly
when the subject is unknown and the e-mail is that of a user.

Source: `controller/src/main/java/com/edgeguardian/controller/service/UserService.java`,
`OrganizationService.java`, `controller/src/main/resources/db/migration/V1__core.sql`.

## Main definitions

* `UniqueUsers`: subjects and e-mails belong to one user each.
* `TrustsVerifiedOnly`: without a verified e-mail, a sign-in returns no user of another subject and
  resolves no invitation.
* `RebindsUnverified`: the sign-in binds a user to another subject by an e-mail that is not
  verified.

## Main results

* `users_of_committed`, `users_of_synced`: what calls do to the users.
* `trustsVerifiedOnly_iff`: when sign-ins trust verified e-mails only, in every run.
-/

namespace EdgeGuardian.Controller

open Transition

/-! ### Writes to the users -/

section Users

variable {toLowerCase : String → String} {d d' : Directory}

theorem users_of_resolvePendingInvitations {user : User}
    (h : (resolvePendingInvitations toLowerCase user).run d = .ok ((), d')) :
    d'.users = d.users := by
  rcases resolvePendingInvitations_cases h with ⟨-, rfl⟩ | h
  · rfl
  · refine Tx.rel_of_run_forM (R := fun d d' => d'.users = d.users) (fun _ => rfl) ?_
      (fun inv _ _ _ hturn => ?_) h
    · intro _ _ _ h h'
      exact Eq.trans h' h
    · rcases resolveInvitation_cases hturn with rfl | ⟨-, -, -, rfl⟩ <;> rfl

/-- Users are written by sign-ins only. -/
theorem users_of_committed {call : DirectoryCall} (h : Committed toLowerCase d call d') :
    d'.users = d.users ∨ ∃ jwt user, Synced toLowerCase jwt d user d' := by
  cases h with
  | synced h => exact .inr ⟨_, _, h⟩
  | resolved h => exact .inl (users_of_resolvePendingInvitations h)
  | created | joined | roleSet | removed => exact .inl rfl
  | joinedByInvitation | invitedAgain | invited | uninvited | dissolved => exact .inl rfl

theorem mem_setUser {user u : User} (hu : u ∈ (d.setUser user).users.rows) :
    u = user ∨ u ∈ d.users.rows ∧ u.id ≠ user.id := by
  rcases SerialTable.mem_modify.mp hu with ⟨b, -, hid, rfl⟩ | hu
  · exact .inl (by rw [hid])
  · exact .inr hu

theorem mem_insertUser {subject email : String} {displayName avatarUrl : Option String} {u : User} :
    u ∈ (d.insertUser subject email displayName avatarUrl).users.rows ↔
      u ∈ d.users.rows ∨ u = ⟨d.users.next, subject, email, displayName, avatarUrl⟩ :=
  SerialTable.mem_insert fun _ => rfl

/-- What a committed sign-in does to the users: nothing, or the user who is returned is written, and
breaks no constraint. -/
theorem users_of_synced {jwt : Jwt} {user : User} (h : Synced toLowerCase jwt d user d') :
    d'.users = d.users ∨ UniqueUser d user ∧
      ∀ u ∈ d'.users.rows, u = user ∨ u ∈ d.users.rows ∧ u.id ≠ user.id := by
  have hupdated : ∀ {old : User}, (updateProfile old jwt).run d = .ok (user, d') →
      d'.users = d.users ∨ UniqueUser d user ∧
        ∀ u ∈ d'.users.rows, u = user ∨ u ∈ d.users.rows ∧ u.id ≠ user.id := by
    intro old hupdate
    obtain ⟨rfl, ⟨rfl, -⟩ | ⟨hunique, rfl⟩⟩ := updateProfile_cases hupdate
    · exact .inl rfl
    · exact .inr ⟨hunique, fun u hu => mem_setUser hu⟩
  cases h with
  | bySubject _ hupdate => exact hupdated hupdate
  | byEmail _ _ _ hupdate => exact hupdated hupdate
  | @registered name slug description subject email _ _ _ _ _ hunique hresolved =>
    have husers : d'.users =
        (d.insertUser subject email (some (jwt.name.getD email)) jwt.picture).users := by
      dsimp only at hresolved
      split_ifs at hresolved
      · have hsame := users_of_resolvePendingInvitations hresolved
        exact hsame
      · rw [hresolved]
        rfl
    refine .inr ⟨hunique, fun u hu => ?_⟩
    rw [husers] at hu
    rcases mem_insertUser.mp hu with hu | rfl
    · exact .inr ⟨hu, Nat.ne_of_lt (d.users.id_lt u hu)⟩
    · exact .inl rfl

end Users

/-! ### Unique users -/

/-- The constraints of the schema hold of all users. -/
def UniqueUsers (d : Directory) : Prop := ∀ u ∈ d.users.rows, UniqueUser d u

instance (d : Directory) : Decidable (UniqueUsers d) := inferInstanceAs (Decidable (∀ _ ∈ _, _))

section UniqueUsers

variable {toLowerCase : String → String} {d d' : Directory}

theorem UniqueUsers.of_users_eq (hd : UniqueUsers d) (h : d'.users = d.users) : UniqueUsers d' := by
  unfold UniqueUsers UniqueUser
  rw [h]
  exact hd

theorem UniqueUsers.synced {jwt : Jwt} {user : User} (hd : UniqueUsers d)
    (h : Synced toLowerCase jwt d user d') : UniqueUsers d' := by
  rcases users_of_synced h with heq | ⟨hunique, hmem⟩
  · exact hd.of_users_eq heq
  · intro u hu v hv hne
    rcases hmem u hu with rfl | ⟨hu, -⟩ <;> rcases hmem v hv with rfl | ⟨hv, -⟩
    · exact absurd rfl hne
    · exact hunique v hv hne
    · obtain ⟨hsubject, hemail⟩ := hunique u hu (Ne.symm hne)
      exact ⟨Ne.symm hsubject, Ne.symm hemail⟩
    · exact hd u hu v hv hne

theorem UniqueUsers.step {call : DirectoryCall} (hd : UniqueUsers d)
    (h : directoryStep toLowerCase d call = some d') : UniqueUsers d' := by
  rcases directoryStep_cases h with rfl | hcommitted
  · exact hd
  · rcases users_of_committed hcommitted with husers | ⟨jwt, user, hsync⟩
    · exact hd.of_users_eq husers
    · exact hd.synced hsync

/-- The users stay unique along every run. -/
theorem UniqueUsers.reaches {ok : Directory → DirectoryCall → Prop} (hd : UniqueUsers d)
    (h : Reaches (directoryStep toLowerCase) ok d d') : UniqueUsers d' :=
  h.invariant UniqueUsers (fun hu _ hstep => hu.step hstep) hd

/-- The user of a subject is a user with this subject. -/
theorem findByKeycloakId_eq_some {keycloakId : String} {user : User}
    (h : findByKeycloakId d keycloakId = some user) :
    d.users.find? user.id = some user ∧ user.keycloakId = keycloakId := by
  rw [findByKeycloakId] at h
  exact ⟨Table.mem_rows_iff.mp (List.mem_of_find?_eq_some h), by simpa using List.find?_some h⟩

/-- The user of an e-mail is a user with this e-mail. -/
theorem findUserByEmail_eq_some {email : String} {user : User}
    (h : findUserByEmail d email = some user) :
    d.users.find? user.id = some user ∧ user.email = email := by
  rw [findUserByEmail] at h
  exact ⟨Table.mem_rows_iff.mp (List.mem_of_find?_eq_some h), by simpa using List.find?_some h⟩

end UniqueUsers

/-! ### Trust in e-mails -/

/-- A sign-in without a verified e-mail returns no user who was bound to another subject, and makes
the user who is returned a member of no organization by an invitation: invitations stay pending, and
the user joins none of the organizations that somebody is invited to. -/
def TrustsVerifiedOnly (toLowerCase : String → String) (d : Directory) (jwt : Jwt) : Prop :=
  ∀ user d', (syncFromJwt toLowerCase jwt).run d = .ok (user, d') → jwt.emailVerified = false →
    (∀ u, d.users.find? user.id = some u → jwt.subject = some u.keycloakId) ∧
    ∀ i ∈ d.invitations.rows, i ∈ d'.invitations.rows ∧
      ∀ m ∈ d'.members.rows, m.userId = user.id → m.organizationId = i.organizationId →
        m ∈ d.members.rows

/-- The subject is unknown, and the e-mail is that of a user and is not verified. -/
def RebindsUnverified (d : Directory) (jwt : Jwt) : Prop :=
  jwt.emailVerified = false ∧ jwt.subject ≠ none ∧
    jwt.subject.bind (findByKeycloakId d) = none ∧ (jwt.email.bind (findUserByEmail d)).isSome

instance (d : Directory) (jwt : Jwt) : Decidable (RebindsUnverified d jwt) :=
  inferInstanceAs (Decidable (_ ∧ _ ∧ _ ∧ _))

section Trust

variable {toLowerCase : String → String} {d d' : Directory} {jwt : Jwt} {user : User}

/-- The profile of the user of a subject is updated without a look at the invitations. -/
theorem updateProfile_frame {old : User} (h : (updateProfile old jwt).run d = .ok (user, d')) :
    user.id = old.id ∧ d'.invitations = d.invitations ∧ d'.members = d.members := by
  obtain ⟨rfl, ⟨rfl, -⟩ | ⟨-, rfl⟩⟩ := updateProfile_cases h
  · exact ⟨rfl, rfl, rfl⟩
  · exact ⟨rfl, rfl, rfl⟩

/-- The organization that a user gets at the registration is one that nobody was invited to. -/
theorem Directory.Sound.mem_members_of_found {i : OrganizationInvitation} {m : OrganizationMember}
    {ownerUserId : UserId} (hd : d.Sound) (hi : i ∈ d.invitations.rows)
    (hm : m ∈ d.members.rows ∨ m = ⟨d.members.next, d.organizations.next, ownerUserId, .owner⟩)
    (horg : m.organizationId = i.organizationId) : m ∈ d.members.rows := by
  rcases hm with hm | rfl
  · exact hm
  · obtain ⟨o, ho⟩ := Option.isSome_iff_exists.mp (hd.invitationOrganization i hi)
    have hid : o.id = i.organizationId := Table.key_of_find?_eq_some ho
    have hlt : o.id < d.organizations.next :=
      d.organizations.id_lt o (Table.mem_of_find?_eq_some ho)
    rw [hid, ← horg] at hlt
    exact absurd hlt (Nat.lt_irrefl _)

theorem trusts_of_not_rebinds (hd : d.Sound) (h : ¬ RebindsUnverified d jwt) :
    TrustsVerifiedOnly toLowerCase d jwt := by
  intro user d' hsync hunverified
  cases syncFromJwt_cases hsync with
  | @bySubject known _ _ hfind hupdate =>
    obtain ⟨hid, hinvitations, hmembers⟩ := updateProfile_frame hupdate
    obtain ⟨subject, hsubject, hknown⟩ := Option.bind_eq_some_iff.mp hfind
    obtain ⟨hrow, hkeycloak⟩ := findByKeycloakId_eq_some hknown
    refine ⟨fun u hu => ?_, fun i hi => ⟨?_, fun m hm _ _ => ?_⟩⟩
    · rw [hid, hrow] at hu
      rw [← Option.some.inj hu, hkeycloak]
      exact hsubject
    · rw [hinvitations]
      exact hi
    · rw [← hmembers]
      exact hm
  | byEmail hsubject hnone hfind hupdate =>
    refine absurd ⟨hunverified, ?_, hnone, ?_⟩ h
    · rw [hsubject]
      exact Option.some_ne_none _
    · rw [hfind]
      rfl
  | @registered name slug description subject email _ _ _ _ _ _ hresolved =>
    rw [if_neg (by rw [hunverified]; decide)] at hresolved
    subst hresolved
    refine ⟨fun u hu => ?_, fun i hi => ⟨hi, fun m hm _ horg => ?_⟩⟩
    · exact nomatch (d.users.find?_next.symm.trans hu)
    · exact hd.mem_members_of_found hi ((SerialTable.mem_insert fun _ => rfl).mp hm) horg

/-- The user of the e-mail is bound to the unknown subject, and returned. -/
theorem exists_rebound (hd : UniqueUsers d) (h : RebindsUnverified d jwt) :
    ∃ existing user d', (syncFromJwt toLowerCase jwt).run d = .ok (user, d') ∧
      d.users.find? user.id = some existing ∧ jwt.subject ≠ some existing.keycloakId := by
  obtain ⟨-, hsome, hnone, hemail⟩ := h
  obtain ⟨subject, hsubject⟩ := Option.ne_none_iff_exists'.mp hsome
  obtain ⟨existing, hfind⟩ := Option.isSome_iff_exists.mp hemail
  obtain ⟨email, hjwt, hexisting⟩ := Option.bind_eq_some_iff.mp hfind
  obtain ⟨hrow, hsame⟩ := findUserByEmail_eq_some hexisting
  have hunknown : ∀ u ∈ d.users.rows, u.keycloakId ≠ subject := by
    rw [hsubject] at hnone
    intro u hu
    simpa using List.find?_eq_none.mp hnone u hu
  -- The e-mail stays that of the user, so that no constraint is broken.
  have hunique :
      UniqueUser d (({ existing with keycloakId := subject } : User).withProfile jwt) := by
    intro u hu hne
    refine ⟨hunknown u hu, ?_⟩
    have hother := (hd existing (Table.mem_of_find?_eq_some hrow) u hu hne).2
    rw [User.withProfile, hjwt, Option.getD_some, ← hsame]
    exact hother
  obtain ⟨d', hupdate⟩ := exists_updateProfile hunique
  refine ⟨existing, ({ existing with keycloakId := subject } : User).withProfile jwt, d', ?_, hrow,
    ?_⟩
  · rw [syncFromJwt, Tx.run_get_bind_eq_ok, hnone, hfind, hsubject]
    exact hupdate
  · rw [hsubject]
    intro heq
    exact hunknown existing (Table.mem_of_find?_eq_some hrow) (Option.some.inj heq).symm

theorem not_trusts_of_rebinds (hd : UniqueUsers d) (h : RebindsUnverified d jwt) :
    ¬ TrustsVerifiedOnly toLowerCase d jwt := by
  intro htrusts
  obtain ⟨existing, user, d', hsync, hrow, hother⟩ := exists_rebound hd h
  exact hother ((htrusts user d' hsync h.1).1 existing hrow)

end Trust

/-- **Trust in verified e-mails.** In every state that a run of calls reaches from a well-formed
directory, a sign-in trusts verified e-mails only if and only if it does not bind the user of an
e-mail that is not verified to an unknown subject. -/
theorem trustsVerifiedOnly_iff {toLowerCase : String → String} {d₀ d : Directory}
    (hsound : d₀.Sound) (hunique : UniqueUsers d₀)
    (h : Reachable (directoryStep toLowerCase) d₀ d) (jwt : Jwt) :
    TrustsVerifiedOnly toLowerCase d jwt ↔ ¬ RebindsUnverified d jwt :=
  ⟨fun htrusts hrebinds => not_trusts_of_rebinds (hunique.reaches h) hrebinds htrusts,
    trusts_of_not_rebinds (hsound.reaches h).1⟩

/-! ### Sign-ins with the e-mail of somebody else -/

namespace Impostor

/-- Ada registers, and an e-mail is invited to her organization. -/
def calls : List DirectoryCall :=
  [Founding.signIn "ada" "ada@x.org", .inviteMember 1 (some "eve@x.org") .admin (some 1)]

/-- The token of Eve, with an e-mail that is not verified. -/
def token (email : String) : Jwt := ⟨some "eve", some email, none, none, false⟩

end Impostor

open Impostor in
/-- Eve registers with an e-mail that is invited, and joins nothing. -/
theorem trusts_when_eve_registers :
    ∃ d, (Reachable (directoryStep asciiLowerCase) .empty d ∧ d.invitations.rows.length = 1 ∧
        ¬ RebindsUnverified d (token "eve@x.org")) ∧
      TrustsVerifiedOnly asciiLowerCase d (token "eve@x.org") := by
  obtain ⟨d, hreach, hlength, hnot⟩ : ∃ d, Reachable (directoryStep asciiLowerCase) .empty d ∧
      d.invitations.rows.length = 1 ∧ ¬ RebindsUnverified d (token "eve@x.org") :=
    exists_reaches_of_execBy calls (by decide +kernel)
  refine ⟨d, ⟨hreach, hlength, hnot⟩, ?_⟩
  exact (trustsVerifiedOnly_iff (Directory.sound_of_rows_eq_nil rfl rfl) (by decide) hreach
    _).mpr hnot

open Impostor in
/-- Eve signs in with the e-mail of Ada, which she has not verified, and is Ada. -/
theorem eve_is_ada : ¬ ∀ d jwt, Reachable (directoryStep asciiLowerCase) .empty d →
    TrustsVerifiedOnly asciiLowerCase d jwt := by
  intro hall
  obtain ⟨d, hreach, hrebinds⟩ : ∃ d, Reachable (directoryStep asciiLowerCase) .empty d ∧
      RebindsUnverified d (token "ada@x.org") :=
    exists_reaches_of_execBy calls (by decide +kernel)
  have hunique : UniqueUsers d := UniqueUsers.reaches (by decide) hreach
  exact not_trusts_of_rebinds hunique hrebinds (hall d _ hreach)

end EdgeGuardian.Controller
