import EdgeGuardian.Controller.Users

/-!
# The owner of an organization

An organization has one owner, the user who created it, as long as it exists. Memberships are
written by four calls and removed by two, and roles arrive directly or through invitations that are
resolved later; none of them gives or takes away the role of the owner. All that the calls do to
the directory is a sequence of a few writes, and the invariants are kept by each of these.

Source: `controller/src/main/java/com/edgeguardian/controller/service/OrganizationService.java`,
`UserService.java`.

## Main definitions

* `DirectoryWrite`, `DirectoryWrites`: the writes that calls consist of.
* `Directory.Sound`: keys, memberships and invitations are well formed.
* `OwnedBy`: the organization has one owner, the given user.

## Main results

* `writes_of_committed`: a committed call is a sequence of writes.
* `owner_is_creator`: the owner of an organization along every run.
-/

namespace EdgeGuardian.Controller

open Transition

/-! ### Writes -/

/-- The writes that the calls consist of: an organization is founded with its owner, other members
join, get other roles and leave, invitations come and go, organizations are dissolved, and users
change or are added. -/
inductive DirectoryWrite : Directory → Directory → Prop
  | found {d : Directory} (name slug : String) (description : Option String) {ownerUserId : UserId}
      (howner : (d.users.find? ownerUserId).isSome) :
      DirectoryWrite d (d.found name slug description ownerUserId)
  | join {d : Directory} {orgId : OrganizationId} {userId : UserId} {role : OrgRole}
      (horg : (d.organizations.find? orgId).isSome) (huser : (d.users.find? userId).isSome)
      (hnew : NotMember d orgId userId) (hrole : role ≠ .owner) :
      DirectoryWrite d (d.insertMember orgId userId role)
  | setRole {d : Directory} {member : OrganizationMember} {role : OrgRole}
      (hmember : d.members.find? member.id = some member) (hold : member.orgRole ≠ .owner)
      (hrole : role ≠ .owner) :
      DirectoryWrite d { d with
        members := d.members.modify (fun m => m.id = member.id) (fun m =>
          { m with orgRole := role }) fun _ => rfl }
  | leave {d : Directory} {member : OrganizationMember}
      (hmember : d.members.find? member.id = some member) (hold : member.orgRole ≠ .owner) :
      DirectoryWrite d { d with members := d.members.delete fun m => m.id = member.id }
  | invite {d : Directory} {orgId : OrganizationId} (email : String) {role : OrgRole}
      (invitedByUserId : Option UserId) (horg : (d.organizations.find? orgId).isSome)
      (hrole : role ≠ .owner) :
      DirectoryWrite d (d.insertInvitation orgId email role invitedByUserId)
  | inviteAgain {d : Directory} (id : ℕ) {role : OrgRole} (invitedByUserId : Option UserId)
      (hrole : role ≠ .owner) : DirectoryWrite d (d.setInvitation id role invitedByUserId)
  | uninvite {d : Directory} (id : ℕ) : DirectoryWrite d (d.deleteInvitation id)
  | dissolve {d : Directory} (orgId : OrganizationId) :
      DirectoryWrite d (deleteOrganization orgId d)
  | users {d : Directory} {users : SerialTable User User.id}
      (h : ∀ id, (d.users.find? id).isSome → (users.find? id).isSome) :
      DirectoryWrite d { d with users := users }

/-- A sequence of writes. -/
abbrev DirectoryWrites : Directory → Directory → Prop := Relation.ReflTransGen DirectoryWrite

section Writes

variable {toLowerCase : String → String} {d d' : Directory}

theorem writes_of_resolveInvitation {userId : UserId} {inv : OrganizationInvitation}
    (hrole : inv.orgRole ≠ .owner) (h : (resolveInvitation userId inv).run d = .ok ((), d')) :
    DirectoryWrites d d' := by
  rcases resolveInvitation_cases h with rfl | ⟨hnew, horg, huser, rfl⟩
  · exact .single (.uninvite inv.id)
  · exact .tail (.single (.join horg huser hnew hrole)) (.uninvite inv.id)

theorem writes_of_resolvePendingInvitations {user : User}
    (hd : ∀ i ∈ d.invitations.rows, i.orgRole ≠ .owner)
    (h : (resolvePendingInvitations toLowerCase user).run d = .ok ((), d')) :
    DirectoryWrites d d' := by
  rcases resolvePendingInvitations_cases h with ⟨-, rfl⟩ | h
  · exact .refl
  · refine Tx.rel_of_run_forM (fun _ => .refl) .trans (fun inv hinv _ _ hturn => ?_) h
    exact writes_of_resolveInvitation (hd inv (List.mem_of_mem_filter hinv)) hturn

/-- A row is found under its number after rows were changed. -/
theorem isSome_find?_setUser {user : User} {id : UserId} (h : (d.users.find? id).isSome) :
    ((d.setUser user).users.find? id).isSome := by
  have hfind : (d.setUser user).users.find? id = _ :=
    d.users.find?_modify (fun u => u.id = user.id) (fun u => { user with id := u.id })
      (fun _ => rfl) id
  rw [hfind, Option.isSome_map]
  exact h

theorem writes_of_updateProfile {user user' : User} {jwt : Jwt}
    (h : (updateProfile user jwt).run d = .ok (user', d')) : DirectoryWrites d d' := by
  obtain ⟨-, ⟨rfl, -⟩ | ⟨-, rfl⟩⟩ := updateProfile_cases h
  · exact .refl
  · exact .single (.users fun id hid => isSome_find?_setUser hid)

theorem writes_of_insertUser (subject email : String) (displayName avatarUrl : Option String) :
    DirectoryWrite d (d.insertUser subject email displayName avatarUrl) := by
  refine .users fun id hid => ?_
  rw [SerialTable.find?_insert]
  split_ifs
  · rfl
  · exact hid

theorem writes_of_synced {jwt : Jwt} {user : User}
    (hd : ∀ i ∈ d.invitations.rows, i.orgRole ≠ .owner) (h : Synced toLowerCase jwt d user d') :
    DirectoryWrites d d' := by
  cases h with
  | bySubject _ hupdate => exact writes_of_updateProfile hupdate
  | byEmail _ _ _ hupdate => exact writes_of_updateProfile hupdate
  | @registered name slug description subject email _ _ _ _ _ _ hresolved =>
    have huser : ((d.insertUser subject email (some (jwt.name.getD email)) jwt.picture).users.find?
        d.users.next).isSome := by
      have hfind := d.users.find?_insert
        (⟨·, subject, email, some (jwt.name.getD email), jwt.picture⟩) (fun _ => rfl) d.users.next
      rw [if_pos rfl] at hfind
      exact Option.isSome_iff_exists.mpr ⟨_, hfind⟩
    have hfirst : DirectoryWrites d ((d.insertUser subject email (some (jwt.name.getD email))
        jwt.picture).found name slug description d.users.next) :=
      .tail (.single (writes_of_insertUser subject email _ _)) (.found name slug description huser)
    by_cases hverified : jwt.emailVerified
    · rw [if_pos hverified] at hresolved
      exact hfirst.trans (writes_of_resolvePendingInvitations hd hresolved)
    · rw [if_neg hverified] at hresolved
      rw [hresolved]
      exact hfirst

/-- A committed call is a sequence of writes, as long as no invitation is for an owner. -/
theorem writes_of_committed {call : DirectoryCall}
    (hd : ∀ i ∈ d.invitations.rows, i.orgRole ≠ .owner) (h : Committed toLowerCase d call d') :
    DirectoryWrites d d' := by
  cases h with
  | synced h => exact writes_of_synced hd h
  | created huser => exact .single (.found _ _ _ huser)
  | joined hrole hnew horg huser => exact .single (.join horg huser hnew hrole)
  | roleSet hfind hold hrole => exact .single (.setRole hfind hold hrole)
  | removed hfind hold => exact .single (.leave hfind hold)
  | joinedByInvitation hrole _ hnew horg huser => exact .single (.join horg huser hnew hrole)
  | invitedAgain id hrole _ => exact .single (.inviteAgain id _ hrole)
  | invited hrole _ _ hkeys => exact .single (.invite _ _ hkeys.1 hrole)
  | resolved h => exact writes_of_resolvePendingInvitations hd h
  | uninvited => exact .single (.uninvite _)
  | dissolved => exact .single (.dissolve _)

end Writes

/-! ### Well-formed directories -/

/-- Members and invitations are those of organizations and users that there are, no user is twice a
member of an organization, and nobody is invited as an owner. -/
structure Directory.Sound (d : Directory) : Prop where
  memberOrganization : ∀ m ∈ d.members.rows, (d.organizations.find? m.organizationId).isSome
  memberUser : ∀ m ∈ d.members.rows, (d.users.find? m.userId).isSome
  invitationOrganization :
    ∀ i ∈ d.invitations.rows, (d.organizations.find? i.organizationId).isSome
  unique : ∀ m ∈ d.members.rows, ∀ m' ∈ d.members.rows,
    m.organizationId = m'.organizationId → m.userId = m'.userId → m = m'
  noOwnerInvited : ∀ i ∈ d.invitations.rows, i.orgRole ≠ .owner

section Sound

variable {d d' : Directory}

theorem Directory.sound_of_rows_eq_nil (hmembers : d.members.rows = [])
    (hinvitations : d.invitations.rows = []) : d.Sound := by
  refine ⟨?_, ?_, ?_, ?_, ?_⟩ <;> simp [hmembers, hinvitations]

theorem Directory.Sound.insertMember {orgId : OrganizationId} {userId : UserId} (hd : d.Sound)
    (role : OrgRole) (horg : (d.organizations.find? orgId).isSome)
    (huser : (d.users.find? userId).isSome) (hnew : NotMember d orgId userId) :
    (d.insertMember orgId userId role).Sound := by
  refine ⟨fun m hm => ?_, fun m hm => ?_, hd.invitationOrganization, ?_, hd.noOwnerInvited⟩
  · rcases mem_insertMember.mp hm with hm | rfl
    · exact hd.memberOrganization m hm
    · exact horg
  · rcases mem_insertMember.mp hm with hm | rfl
    · exact hd.memberUser m hm
    · exact huser
  · intro m hm m' hm' hsame huser'
    rcases mem_insertMember.mp hm with hm | rfl <;> rcases mem_insertMember.mp hm' with hm' | rfl
    · exact hd.unique m hm m' hm' hsame huser'
    · exact absurd ⟨hsame, huser'⟩ (hnew m hm)
    · exact absurd ⟨hsame.symm, huser'.symm⟩ (hnew m' hm')
    · rfl

/-- The next number of an organization is in no row. -/
theorem Directory.Sound.organizationId_lt {m : OrganizationMember} (hd : d.Sound)
    (hm : m ∈ d.members.rows) : m.organizationId < d.organizations.next := by
  obtain ⟨o, ho⟩ := Option.isSome_iff_exists.mp (hd.memberOrganization m hm)
  have hid : o.id = m.organizationId := Table.key_of_find?_eq_some ho
  rw [← hid]
  exact d.organizations.id_lt o (Table.mem_of_find?_eq_some ho)

theorem isSome_find?_insertOrganization {name slug : String} {description : Option String}
    {id : OrganizationId} : ((d.organizations.insert (⟨·, name, slug, description⟩)
      fun _ => rfl).find? id).isSome ↔
        id = d.organizations.next ∨ (d.organizations.find? id).isSome := by
  rw [SerialTable.find?_insert]
  split_ifs with hid <;> simp [hid]

theorem Directory.Sound.found {ownerUserId : UserId} (hd : d.Sound) (name slug : String)
    (description : Option String) (howner : (d.users.find? ownerUserId).isSome) :
    (d.found name slug description ownerUserId).Sound := by
  have hfounded : Directory.Sound { d with
      organizations := d.organizations.insert (⟨·, name, slug, description⟩) fun _ => rfl } :=
    { hd with
      memberOrganization := fun m hm =>
        isSome_find?_insertOrganization.mpr (.inr (hd.memberOrganization m hm))
      invitationOrganization := fun i hi =>
        isSome_find?_insertOrganization.mpr (.inr (hd.invitationOrganization i hi)) }
  refine hfounded.insertMember .owner (isSome_find?_insertOrganization.mpr (.inl rfl)) howner ?_
  rintro m hm ⟨horg, -⟩
  exact absurd horg (Nat.ne_of_lt (hd.organizationId_lt hm))

theorem Directory.Sound.dissolve (hd : d.Sound) (orgId : OrganizationId) :
    (deleteOrganization orgId d).Sound := by
  have hkept : ∀ id, id ≠ orgId → (d.organizations.find? id).isSome →
      ((deleteOrganization orgId d).organizations.find? id).isSome := by
    intro id hid hsome
    have hfind : (deleteOrganization orgId d).organizations.find? id = _ :=
      Table.find?_delete d.organizations.toTable id orgId
    rw [hfind, if_neg hid]
    exact hsome
  have hmem : ∀ m, m ∈ (deleteOrganization orgId d).members.rows ↔
      m ∈ d.members.rows ∧ ¬ m.organizationId = orgId := fun _ => SerialTable.mem_delete
  have hmem' : ∀ i, i ∈ (deleteOrganization orgId d).invitations.rows ↔
      i ∈ d.invitations.rows ∧ ¬ i.organizationId = orgId := fun _ => SerialTable.mem_delete
  refine ⟨fun m hm => ?_, fun m hm => ?_, fun i hi => ?_, fun m hm m' hm' => ?_, fun i hi => ?_⟩
  · obtain ⟨hm, hother⟩ := (hmem m).mp hm
    exact hkept _ hother (hd.memberOrganization m hm)
  · exact hd.memberUser m ((hmem m).mp hm).1
  · obtain ⟨hi, hother⟩ := (hmem' i).mp hi
    exact hkept _ hother (hd.invitationOrganization i hi)
  · exact hd.unique m ((hmem m).mp hm).1 m' ((hmem m').mp hm').1
  · exact hd.noOwnerInvited i ((hmem' i).mp hi).1

/-- A change of the role of members keeps who is a member of what. -/
theorem mem_setRole {memberId : ℕ} {role : OrgRole} {m : OrganizationMember} :
    m ∈ (d.members.modify (fun m => m.id = memberId) (fun m => { m with orgRole := role })
        fun _ => rfl).rows ↔
      (∃ b ∈ d.members.rows, b.id = memberId ∧ { b with orgRole := role } = m) ∨
        (m ∈ d.members.rows ∧ ¬ m.id = memberId) :=
  SerialTable.mem_modify

/-- What became of a member whose role may have changed. -/
theorem exists_mem_of_mem_setRole {memberId : ℕ} {role : OrgRole} {m : OrganizationMember}
    (hm : m ∈ (d.members.modify (fun m => m.id = memberId) (fun m => { m with orgRole := role })
        fun _ => rfl).rows) :
    ∃ b ∈ d.members.rows, b.id = m.id ∧ b.organizationId = m.organizationId ∧
      b.userId = m.userId := by
  rcases mem_setRole.mp hm with ⟨b, hb, -, rfl⟩ | ⟨hm, -⟩
  · exact ⟨b, hb, rfl, rfl, rfl⟩
  · exact ⟨m, hm, rfl, rfl, rfl⟩

theorem Directory.Sound.setRole (hd : d.Sound) (memberId : ℕ) (role : OrgRole) :
    Directory.Sound { d with
      members := d.members.modify (fun m => m.id = memberId) (fun m => { m with orgRole := role })
        fun _ => rfl } := by
  refine ⟨fun m hm => ?_, fun m hm => ?_, hd.invitationOrganization,
    fun m hm m' hm' horg huser => ?_, hd.noOwnerInvited⟩
  · obtain ⟨b, hb, -, horg, -⟩ := exists_mem_of_mem_setRole hm
    rw [← horg]
    exact hd.memberOrganization b hb
  · obtain ⟨b, hb, -, -, huser⟩ := exists_mem_of_mem_setRole hm
    rw [← huser]
    exact hd.memberUser b hb
  · obtain ⟨b, hb, hid, horgb, huserb⟩ := exists_mem_of_mem_setRole hm
    obtain ⟨b', hb', hid', horgb', huserb'⟩ := exists_mem_of_mem_setRole hm'
    have hbb : b = b' := hd.unique b hb b' hb' (by rw [horgb, horg, horgb'])
      (by rw [huserb, huser, huserb'])
    refine List.inj_on_of_nodup_map (Table.nodup _) hm hm' ?_
    rw [← hid, ← hid', hbb]

theorem Directory.Sound.write (hd : d.Sound) (h : DirectoryWrite d d') : d'.Sound := by
  cases h with
  | found name slug description howner => exact hd.found name slug description howner
  | @join orgId userId role horg huser hnew => exact hd.insertMember role horg huser hnew
  | setRole => exact hd.setRole _ _
  | @leave member =>
    have hsub : ∀ m ∈ (d.members.delete fun m => m.id = member.id).rows, m ∈ d.members.rows :=
      fun _ hm => (SerialTable.mem_delete.mp hm).1
    exact {
      memberOrganization := fun m hm => hd.memberOrganization m (hsub m hm)
      memberUser := fun m hm => hd.memberUser m (hsub m hm)
      invitationOrganization := hd.invitationOrganization
      unique := fun m hm m' hm' => hd.unique m (hsub m hm) m' (hsub m' hm')
      noOwnerInvited := hd.noOwnerInvited }
  | @invite orgId email role invitedByUserId horg hrole =>
    refine { hd with invitationOrganization := fun i hi => ?_, noOwnerInvited := fun i hi => ?_ }
    · rcases mem_insertInvitation.mp hi with hi | rfl
      · exact hd.invitationOrganization i hi
      · exact horg
    · rcases mem_insertInvitation.mp hi with hi | rfl
      · exact hd.noOwnerInvited i hi
      · exact hrole
  | @inviteAgain id role invitedByUserId hrole =>
    refine { hd with invitationOrganization := fun i hi => ?_, noOwnerInvited := fun i hi => ?_ }
    · rcases SerialTable.mem_modify.mp hi with ⟨b, hb, -, rfl⟩ | ⟨hi, -⟩
      · exact hd.invitationOrganization b hb
      · exact hd.invitationOrganization i hi
    · rcases SerialTable.mem_modify.mp hi with ⟨b, hb, -, rfl⟩ | ⟨hi, -⟩
      · exact hrole
      · exact hd.noOwnerInvited i hi
  | uninvite id =>
    exact { hd with
      invitationOrganization := fun i hi =>
        hd.invitationOrganization i (SerialTable.mem_delete.mp hi).1
      noOwnerInvited := fun i hi => hd.noOwnerInvited i (SerialTable.mem_delete.mp hi).1 }
  | dissolve orgId => exact hd.dissolve orgId
  | users husers => exact { hd with memberUser := fun m hm => husers _ (hd.memberUser m hm) }

theorem Directory.Sound.step {toLowerCase : String → String} {call : DirectoryCall} (hd : d.Sound)
    (h : directoryStep toLowerCase d call = some d') : d'.Sound ∧ DirectoryWrites d d' := by
  have hwrites : DirectoryWrites d d' := by
    rcases directoryStep_cases h with rfl | hcommitted
    · exact .refl
    · exact writes_of_committed hd.noOwnerInvited hcommitted
  refine ⟨?_, hwrites⟩
  clear h
  induction hwrites with
  | refl => exact hd
  | tail _ hwrite ih => exact ih.write hwrite

/-- Every run from a well-formed directory is a sequence of writes. -/
theorem Directory.Sound.reaches {toLowerCase : String → String}
    {ok : Directory → DirectoryCall → Prop} (hd : d.Sound)
    (h : Reaches (directoryStep toLowerCase) ok d d') : d'.Sound ∧ DirectoryWrites d d' := by
  refine h.invariant (fun u => u.Sound ∧ DirectoryWrites d u) (fun hu _ hstep => ?_) ⟨hd, .refl⟩
  obtain ⟨hsound, hwrites⟩ := hu.1.step hstep
  exact ⟨hsound, hu.2.trans hwrites⟩

end Sound

/-! ### Owners -/

/-- The row of an owner of the organization. -/
def OwnerRow (d : Directory) (orgId : OrganizationId) (m : OrganizationMember) : Prop :=
  m ∈ d.members.rows ∧ m.organizationId = orgId ∧ m.orgRole = .owner

/-- The organization has exactly one owner, the given user. -/
def OwnedBy (d : Directory) (orgId : OrganizationId) (userId : UserId) : Prop :=
  ∃ m, OwnerRow d orgId m ∧ m.userId = userId ∧ ∀ m', OwnerRow d orgId m' → m' = m

section Owners

variable {d d' : Directory} {orgId : OrganizationId}

/-- Numbers of organizations are not used again: one that there is after a write was there. -/
theorem isSome_organization_of_write (h : DirectoryWrite d d')
    (hlt : orgId < d.organizations.next) : orgId < d'.organizations.next ∧
      ((d'.organizations.find? orgId).isSome → (d.organizations.find? orgId).isSome) := by
  cases h with
  | found name slug description =>
    refine ⟨Nat.lt_succ_of_lt hlt, fun hsome => ?_⟩
    exact (isSome_find?_insertOrganization.mp hsome).resolve_left (Nat.ne_of_lt hlt)
  | dissolve deleted =>
    refine ⟨hlt, fun hsome => ?_⟩
    have hfind : (deleteOrganization deleted d).organizations.find? orgId = _ :=
      Table.find?_delete d.organizations.toTable orgId deleted
    rw [hfind] at hsome
    split_ifs at hsome
    · exact nomatch hsome
    · exact hsome
  | join | setRole | leave | invite | inviteAgain | uninvite | users => exact ⟨hlt, id⟩

/-- A write changes no owner of an organization that there is afterwards. -/
theorem ownerRow_iff_of_write {m : OrganizationMember} (h : DirectoryWrite d d')
    (hlt : orgId < d.organizations.next) (hexists : (d'.organizations.find? orgId).isSome) :
    OwnerRow d' orgId m ↔ OwnerRow d orgId m := by
  cases h with
  | @found name slug description ownerUserId =>
    refine and_congr_left fun howner => mem_found.trans (or_iff_left ?_)
    rintro rfl
    exact absurd howner.1.symm (Nat.ne_of_lt hlt)
  | @join orgId' userId role _ _ _ hrole =>
    refine and_congr_left fun howner => mem_insertMember.trans (or_iff_left ?_)
    rintro rfl
    exact hrole howner.2
  | @setRole member role hmember hold hrole =>
    refine and_congr_left fun howner => mem_setRole.trans ⟨?_, fun hm => .inr ⟨hm, fun hid => ?_⟩⟩
    · rintro (⟨b, -, -, rfl⟩ | ⟨hm, -⟩)
      · exact absurd howner.2 hrole
      · exact hm
    · have hfind := Table.mem_rows_iff.mp hm
      rw [hid, hmember] at hfind
      cases hfind
      exact hold howner.2
  | @leave member hmember hold =>
    refine and_congr_left fun howner => SerialTable.mem_delete.trans ⟨And.left, fun hm => ?_⟩
    refine ⟨hm, fun hid => ?_⟩
    have hfind := Table.mem_rows_iff.mp hm
    rw [hid, hmember] at hfind
    cases hfind
    exact hold howner.2
  | dissolve deleted =>
    have hfind : (deleteOrganization deleted d).organizations.find? orgId = _ :=
      Table.find?_delete d.organizations.toTable orgId deleted
    have hother : orgId ≠ deleted := by
      rintro rfl
      rw [hfind, if_pos rfl] at hexists
      exact nomatch hexists
    refine and_congr_left fun howner => SerialTable.mem_delete.trans (and_iff_left ?_)
    rw [howner.1]
    exact hother
  | invite | inviteAgain | uninvite | users => exact Iff.rfl

/-- An organization keeps its owner through every sequence of writes, as long as there is one. -/
theorem ownedBy_of_writes {userId : UserId} (h : DirectoryWrites d d')
    (hlt : orgId < d.organizations.next) (howned : OwnedBy d orgId userId)
    (hexists : (d'.organizations.find? orgId).isSome) : OwnedBy d' orgId userId := by
  have hrun : orgId < d'.organizations.next ∧
      ((d'.organizations.find? orgId).isSome → OwnedBy d' orgId userId) := by
    clear hexists
    induction h with
    | refl => exact ⟨hlt, fun _ => howned⟩
    | tail _ hwrite ih =>
      obtain ⟨hlt', hback⟩ := isSome_organization_of_write hwrite ih.1
      refine ⟨hlt', fun hexists => ?_⟩
      obtain ⟨m, hm, huser, hunique⟩ := ih.2 (hback hexists)
      have hiff : ∀ m', _ ↔ _ := fun m' => ownerRow_iff_of_write (m := m') hwrite ih.1 hexists
      exact ⟨m, (hiff m).mpr hm, huser, fun m' hm' => hunique m' ((hiff m').mp hm')⟩
  exact hrun.2 hexists

theorem Directory.Sound.ownedBy_found {ownerUserId : UserId} (hd : d.Sound) (name slug : String)
    (description : Option String) :
    OwnedBy (d.found name slug description ownerUserId) d.organizations.next ownerUserId := by
  refine ⟨⟨d.members.next, d.organizations.next, ownerUserId, .owner⟩,
    ⟨mem_found.mpr (.inr rfl), rfl, rfl⟩, rfl, ?_⟩
  rintro m ⟨hm, horg, -⟩
  rcases mem_found.mp hm with hm | hm
  · exact absurd horg (Nat.ne_of_lt (hd.organizationId_lt hm))
  · exact hm

end Owners

/-- **The owner is the creator.** In every state that a run of calls reaches from a directory
without members and invitations, no user is twice a member of an organization and nobody is invited
as an owner; and an organization that is created there has, in every later state in which there is
one, exactly one owner, the user who created it. -/
theorem owner_is_creator {toLowerCase : String → String} {d₀ d : Directory}
    (hmembers : d₀.members.rows = []) (hinvitations : d₀.invitations.rows = [])
    (h : Reachable (directoryStep toLowerCase) d₀ d) :
    (∀ m ∈ d.members.rows, ∀ m' ∈ d.members.rows,
      m.organizationId = m'.organizationId → m.userId = m'.userId → m = m') ∧
    (∀ i ∈ d.invitations.rows, i.orgRole ≠ .owner) ∧
    ∀ (name slug : String) (description : Option String) (ownerUserId : UserId)
      (org : Organization) (d₁ d₂ : Directory),
      (createOrganization name slug description ownerUserId).run d = .ok (org, d₁) →
      Reachable (directoryStep toLowerCase) d₁ d₂ → (d₂.organizations.find? org.id).isSome →
        OwnedBy d₂ org.id ownerUserId := by
  have hd : d.Sound := ((Directory.sound_of_rows_eq_nil hmembers hinvitations).reaches h).1
  refine ⟨hd.unique, hd.noOwnerInvited, ?_⟩
  intro name slug description ownerUserId org d₁ d₂ hcreate hreach hexists
  obtain ⟨huser, rfl, rfl⟩ := createOrganization_cases hcreate
  have hsound := hd.found name slug description huser
  refine ownedBy_of_writes (hsound.reaches hreach).2 ?_ (hd.ownedBy_found name slug description)
    hexists
  exact Nat.lt_succ_self _

/-! ### An organization and its members -/

namespace Founding

/-- A sign-in with a verified e-mail. -/
def signIn (subject email : String) : DirectoryCall :=
  .syncFromJwt ⟨some subject, some email, none, none, true⟩

/-- Ada and Bob register. -/
def before : List DirectoryCall := [signIn "ada" "ada@x.org", signIn "bob" "bob@x.org"]

/-- Bob is invited to the organization 3, gets another role, and tries to remove the owner. -/
def after : List DirectoryCall :=
  [.inviteMember 3 (some " Bob@X.org") .viewer (some 1), .updateMemberRole 4 3 .admin,
    .removeMemberById 3 3]

/-- Ada creates an organization, which has two members in the end. -/
def CreatedWithTwoMembers (d : Directory) : Prop :=
  match (createOrganization "Lab" "lab" none 1).run d with
  | .ok (org, d₁) => ∃ d₂ ∈ exec (directoryStep asciiLowerCase) d₁ after,
      (d₂.organizations.find? org.id).isSome ∧
        (d₂.members.rows.filter fun m => m.organizationId = org.id).length = 2
  | .error _ => False

instance (d : Directory) : Decidable (CreatedWithTwoMembers d) :=
  match h : (createOrganization "Lab" "lab" none 1).run d with
  | .ok (org, d₁) =>
    decidable_of_iff (∃ d₂ ∈ exec (directoryStep asciiLowerCase) d₁ after,
      (d₂.organizations.find? org.id).isSome ∧
        (d₂.members.rows.filter fun m => m.organizationId = org.id).length = 2)
      (by rw [CreatedWithTwoMembers, h])
  | .error _ => .isFalse (by simp [CreatedWithTwoMembers, h])

end Founding

open Founding in
/-- Ada owns the organization that she created, after Bob has joined it. -/
theorem owner_is_creator_after_invitation :
    ∃ (d d₁ d₂ : Directory) (org : Organization),
      (Reachable (directoryStep asciiLowerCase) .empty d ∧
        (createOrganization "Lab" "lab" none 1).run d = .ok (org, d₁) ∧
        Reachable (directoryStep asciiLowerCase) d₁ d₂ ∧
        (d₂.members.rows.filter fun m => m.organizationId = org.id).length = 2) ∧
      OwnedBy d₂ org.id 1 := by
  obtain ⟨d, hreach, hcreated⟩ : ∃ d, Reachable (directoryStep asciiLowerCase) .empty d ∧
      CreatedWithTwoMembers d := exists_reaches_of_execBy before (by decide +kernel)
  rw [CreatedWithTwoMembers] at hcreated
  rcases hrun : (createOrganization "Lab" "lab" none 1).run d with e | ⟨org, d₁⟩ <;>
    rw [hrun] at hcreated
  · exact hcreated.elim
  · obtain ⟨d₂, hexec, hexists, htwo⟩ := hcreated
    have hafter := reaches_of_execBy hexec
    exact ⟨d, d₁, d₂, org, ⟨hreach, hrun, hafter, htwo⟩,
      (owner_is_creator rfl rfl hreach).2.2 _ _ _ _ org d₁ d₂ hrun hafter hexists⟩

end EdgeGuardian.Controller
