import EdgeGuardian.Controller.Ownership
import EdgeGuardian.Ui.ApiCalls

/-!
# The organization that a page shows

The pages let a user who is a member of several organizations choose one of them, and keep the
choice in the storage of the browser. No call of the API carries it: a request acts in the first of
the user's memberships, as the database returns them. What a page shows and where it acts are thus
the same only for a user who has never chosen another organization.

The order of the memberships and the memberships themselves stay as they are in a run here, and the
run is that of one tab: the tabs of a browser share the storage, so that a choice in a second tab
would be found in it while the first tab still shows its own.

Source: `ui/lib/hooks/use-organization.ts`, `ui/components/org-switcher.tsx`,
`controller/src/main/java/com/edgeguardian/controller/api/MeController.java`,
`security/JwtTenantConverter.java`.

## Main definitions

* `me`: the organizations of the answer to `GET /me`.
* `Provider`, `Event`, `run`: the provider of the pages, and what happens to it.
* `switched`: the choice that the storage holds.

## Main results

* `currentOrg_run`: which organization a page shows.
* `acts_in_shown_iff`: when a call acts in the organization that the page shows.
-/

namespace EdgeGuardian.Ui

open Controller Controller.Http

/-! ### The memberships of a user -/

/-- `OrgMembershipDto`. -/
structure OrgMembershipDto where
  id : OrganizationId
  name : String
  slug : String
  role : OrgRole
deriving DecidableEq, Repr

/-- `MeController.me`: the organizations of a user. -/
def me (x : Exchange) (d : Directory) (userId : UserId) : List OrgMembershipDto :=
  let memberships := x.arrange (d.members.rows.filter fun m => m.userId = userId)
  let orgIds := memberships.map OrganizationMember.organizationId
  let orgs := d.organizations.rows.filter fun org => orgIds.contains org.id
  memberships.filterMap fun m =>
    (orgs.find? fun org => org.id = m.organizationId).map fun org =>
      ⟨org.id, org.name, org.slug, m.orgRole⟩

/-- The token signs a user in who has these memberships, in the order of the database. -/
structure MembershipsOf (ctx : SecurityContext) (x : Exchange) (r : Records) (token : String)
    (user : User) (d : Directory) (ms : List OrganizationMember) : Prop where
  signedIn : ∃ jwt, ctx.decode x.now token = some jwt ∧
    (syncFromJwt ctx.toLowerCase jwt).run r.directory = .ok (user, d)
  memberships : x.arrange (d.members.rows.filter fun m => m.userId = user.id) = ms
  sound : d.Sound

section Me

variable {ctx : SecurityContext} {x : Exchange} {r : Records} {token : String} {user : User}
  {d : Directory} {ms : List OrganizationMember}

/-- The organizations of a user are those of the memberships, in the same order. -/
theorem map_id_me (h : MembershipsOf ctx x r token user d ms) :
    (me x d user.id).map OrgMembershipDto.id = ms.map OrganizationMember.organizationId := by
  have hmem : ∀ m ∈ ms, m ∈ d.members.rows := by
    intro m hm
    rw [← h.memberships] at hm
    exact List.mem_of_mem_filter ((x.perm _).mem_iff.mp hm)
  have hfound : ∀ m ∈ ms, ∃ org, (d.organizations.rows.filter fun org =>
      (ms.map OrganizationMember.organizationId).contains org.id).find?
        (fun org => org.id = m.organizationId) = some org ∧ org.id = m.organizationId := by
    intro m hm
    obtain ⟨org, horg⟩ := Option.isSome_iff_exists.mp (h.sound.memberOrganization m (hmem m hm))
    have hkey : org.id = m.organizationId := Table.key_of_find?_eq_some horg
    have hsome : ((d.organizations.rows.filter fun org =>
        (ms.map OrganizationMember.organizationId).contains org.id).find?
          fun org => org.id = m.organizationId).isSome := by
      rw [List.find?_isSome]
      refine ⟨org, List.mem_filter.mpr ⟨Table.mem_of_find?_eq_some horg, ?_⟩, by simpa using hkey⟩
      rw [hkey]
      simpa using ⟨m, hm, rfl⟩
    obtain ⟨org', horg'⟩ := Option.isSome_iff_exists.mp hsome
    exact ⟨org', horg', by simpa using List.find?_some horg'⟩
  rw [me, h.memberships, List.map_filterMap]
  generalize List.filter _ d.organizations.rows = orgs at hfound
  clear hmem h
  induction ms with
  | nil => rfl
  | cons m ms ih =>
    obtain ⟨org, horg, hid⟩ := hfound m List.mem_cons_self
    rw [List.filterMap_cons, horg, List.map_cons, ← hid]
    exact congrArg _ (ih fun m' hm' => hfound m' (List.mem_cons_of_mem _ hm'))

end Me

/-! ### The provider -/

/-- `OrganizationProvider` of the only tab, and its item in the storage of the browser. -/
structure Provider where
  me : Option (List OrgMembershipDto)
  orgId : Option OrganizationId
  stored : Option OrganizationId
deriving DecidableEq, Repr

/-- What happens to the provider. -/
inductive Event
  /-- The answer of `getMe`. -/
  | loaded (organizations : List OrgMembershipDto)
  /-- `useEffect`. -/
  | effect
  /-- `setOrgId`. -/
  | setOrgId (id : OrganizationId)
  /-- The page is loaded again. -/
  | reload
deriving DecidableEq, Repr

namespace Provider

/-- The first page. -/
def initial (stored : Option OrganizationId) : Provider := ⟨none, none, stored⟩

/-- `useEffect`. The number 0 counts as missing. -/
def effect (s : Provider) : Provider :=
  match s.me with
  | none => s
  | some organizations =>
    if s.orgId.getD 0 = 0 then
      let found := s.stored.bind fun storedId => organizations.find? fun o => o.id = storedId
      { s with
        orgId :=
          match found with
          | some o => some o.id
          | none => organizations.head?.map OrgMembershipDto.id }
    else s

def after (s : Provider) : Event → Provider
  | .loaded organizations => { s with me := some organizations }
  | .effect => s.effect
  | .setOrgId id => { s with orgId := some id, stored := some id }
  | .reload => { s with me := none, orgId := none }

def run (stored : Option OrganizationId) (events : List Event) : Provider :=
  events.foldl after (initial stored)

/-- `currentOrg`. -/
def currentOrg (s : Provider) : Option OrgMembershipDto :=
  s.me.bind fun organizations => organizations.find? fun o => some o.id = s.orgId

end Provider

/-- The choice after an event. -/
def Event.choice (choice : Option OrganizationId) : Event → Option OrganizationId
  | .setOrgId id => some id
  | _ => choice

/-- The choice that the storage holds after some events. -/
def switched (stored : Option OrganizationId) (events : List Event) : Option OrganizationId :=
  events.foldl Event.choice stored

/-- The events of a user with these memberships: the answers are those of the API, and the choice is
among them. -/
def Event.Within (ctx : SecurityContext) (token : String) (ms : List OrganizationMember) :
    Event → Prop
  | .loaded organizations => ∃ x r user d, MembershipsOf ctx x r token user d ms ∧
      organizations = Ui.me x d user.id
  | .setOrgId id => id ∈ ms.map OrganizationMember.organizationId
  | _ => True

/-! ### What a page shows -/

/-- The organization of a page without an organization: the choice, if it is among the memberships,
or the first of them. -/
def chosen (orgIds : List OrganizationId) (stored : Option OrganizationId) :
    Option OrganizationId :=
  (stored.filter (· ∈ orgIds)).or orgIds.head?

section Run

variable {ctx : SecurityContext} {token : String} {ms : List OrganizationMember}
  {stored : Option OrganizationId} {events : List Event}

theorem chosen_of_mem {orgIds : List OrganizationId} {id : OrganizationId} (h : id ∈ orgIds) :
    chosen orgIds (some id) = some id := by
  simp [chosen, h]

/-- What the provider holds: the memberships or nothing, and the choice of the storage. -/
structure Provider.Inv (orgIds : List OrganizationId) (choice : Option OrganizationId)
    (s : Provider) : Prop where
  me : ∀ organizations ∈ s.me, organizations.map OrgMembershipDto.id = orgIds
  orgId : s.orgId = none ∨ s.orgId = chosen orgIds choice
  stored : s.stored = choice

theorem effect_orgId {organizations : List OrgMembershipDto} {choice : Option OrganizationId} :
    (match choice.bind fun storedId => organizations.find? fun o => o.id = storedId with
      | some o => some o.id
      | none => organizations.head?.map OrgMembershipDto.id) =
      chosen (organizations.map OrgMembershipDto.id) choice := by
  rcases choice with _ | id
  · simp [chosen]
  · rw [Option.bind_some]
    rcases hfound : organizations.find? fun o => o.id = id with _ | o
    · have hnot : id ∉ organizations.map OrgMembershipDto.id := by
        simpa [List.find?_eq_none] using hfound
      rw [hfound, chosen, Option.filter_some, if_neg (by simpa using hnot), Option.none_or,
        List.head?_map]
    · have ho : o.id = id := by simpa using List.find?_some hfound
      have hmem : id ∈ organizations.map OrgMembershipDto.id :=
        List.mem_map.mpr ⟨o, List.mem_of_find?_eq_some hfound, ho⟩
      rw [hfound, chosen_of_mem hmem]
      exact congrArg some ho

/-- **What an event does** to the provider of a user with these memberships. -/
theorem Provider.Inv.after {choice : Option OrganizationId} {s : Provider} {event : Event}
    (h : s.Inv (ms.map OrganizationMember.organizationId) choice)
    (hevent : event.Within ctx token ms) :
    (s.after event).Inv (ms.map OrganizationMember.organizationId) (event.choice choice) := by
  cases event with
  | loaded organizations =>
    obtain ⟨x, r, user, d, hms, rfl⟩ := hevent
    refine ⟨?_, h.orgId, h.stored⟩
    rintro _ ⟨⟩
    exact map_id_me hms
  | effect =>
    show (s.effect).Inv _ _
    rw [Provider.effect]
    rcases hme : s.me with _ | organizations
    · exact h
    · dsimp only
      split_ifs
      · refine ⟨fun _ ho => h.me _ (hme ▸ ho), .inr ?_, h.stored⟩
        rw [← h.me organizations hme, ← effect_orgId, h.stored]
        rfl
      · exact h
  | setOrgId id => exact ⟨h.me, .inr (chosen_of_mem hevent).symm, rfl⟩
  | reload => exact ⟨nofun, .inl rfl, h.stored⟩

theorem Provider.inv_run (hevents : ∀ event ∈ events, event.Within ctx token ms) :
    (Provider.run stored events).Inv (ms.map OrganizationMember.organizationId)
      (switched stored events) := by
  induction events using List.reverseRecOn with
  | nil => exact ⟨nofun, .inl rfl, rfl⟩
  | append_singleton events event ih =>
    have hrun := ih fun ev hev => hevents ev (List.mem_append_left _ hev)
    rw [Provider.run, switched, List.foldl_append, List.foldl_append]
    exact hrun.after (hevents event (List.mem_append_right _ (List.mem_singleton_self event)))

/-- **Which organization a page shows**: the choice of the storage, or the first membership where
that is none of them. -/
theorem currentOrg_run {shown : OrgMembershipDto}
    (hevents : ∀ event ∈ events, event.Within ctx token ms)
    (hshown : (Provider.run stored events).currentOrg = some shown) :
    some shown.id = chosen (ms.map OrganizationMember.organizationId) (switched stored events) := by
  have hinv : (Provider.run stored events).Inv (ms.map OrganizationMember.organizationId)
      (switched stored events) := Provider.inv_run hevents
  obtain ⟨organizations, -, hfound⟩ := Option.bind_eq_some_iff.mp hshown
  have hid : some shown.id = (Provider.run stored events).orgId := by
    simpa using List.find?_some hfound
  rcases hinv.orgId with horg | horg
  · rw [horg] at hid
    cases hid
  · rw [hid, horg]

variable {x : Exchange} {r : Records} {user : User} {d : Directory} {c : ApiCall} {e : Endpoint}
  {role : OrgRole} {userId : Option UserId} {orgId : OrganizationId}

/-- A call acts in the first of the memberships. -/
theorem head?_of_handledFor (hms : MembershipsOf ctx x r token user d ms) (hc : c.Plain)
    (hne : c ≠ .getDevice "count") (he : c.endpoint = some e) (hrole : e.minRole = some role)
    (h : HandledFor ctx x (c.request token) r e userId orgId) :
    (ms.map OrganizationMember.organizationId).head? = some orgId := by
  obtain ⟨-, m, ⟨jwt, user', d', hdecode, hsync, hfirst⟩, -, rfl, -⟩ :=
    (signedIn_handled_iff hc hne he hrole).mp h
  obtain ⟨jwt', hdecode', hsync'⟩ := hms.signedIn
  obtain rfl : jwt = jwt' := Option.some.inj (hdecode.symm.trans hdecode')
  obtain ⟨rfl, rfl⟩ : user' = user ∧ d' = d := by
    simpa using Except.ok.inj (hsync.symm.trans hsync')
  rw [← hms.memberships, List.head?_map, hfirst]
  rfl

/-- **Where a call acts, and what the page shows.** A call that is handled acts in the organization
that the page shows exactly if the choice of the storage is that organization, or none of the
memberships; whatever was chosen, it acts in the first membership. -/
theorem acts_in_shown_iff {shown : OrgMembershipDto}
    (hevents : ∀ event ∈ events, event.Within ctx token ms)
    (hshown : (Provider.run stored events).currentOrg = some shown)
    (hms : MembershipsOf ctx x r token user d ms) (hc : c.Plain) (hne : c ≠ .getDevice "count")
    (he : c.endpoint = some e) (hrole : e.minRole = some role)
    (h : HandledFor ctx x (c.request token) r e userId orgId) :
    (ms.map OrganizationMember.organizationId).head? = some orgId ∧
      (shown.id = orgId ↔
        ∀ id ∈ switched stored events, id ∈ ms.map OrganizationMember.organizationId →
          id = orgId) := by
  have hfirst := head?_of_handledFor hms hc hne he hrole h
  have hchosen := currentOrg_run hevents hshown
  refine ⟨hfirst, ?_⟩
  rw [chosen, hfirst] at hchosen
  rcases hswitched : switched stored events with _ | id
  · rw [hswitched] at hchosen
    exact ⟨fun _ => nofun, fun _ => Option.some.inj hchosen⟩
  · rw [hswitched, Option.filter_some] at hchosen
    by_cases hmem : id ∈ ms.map OrganizationMember.organizationId
    · rw [if_pos (decide_eq_true hmem)] at hchosen
      obtain rfl : shown.id = id := Option.some.inj hchosen
      constructor
      · rintro hid _ ⟨⟩ -
        exact hid
      · intro hid
        exact hid _ rfl hmem
    · rw [if_neg (by simpa using hmem)] at hchosen
      refine iff_of_true (Option.some.inj hchosen) ?_
      rintro _ ⟨⟩ hmem'
      exact absurd hmem' hmem

end Run

/-! ### A user with two organizations -/

/-- Alice is an administrator of one organization and a viewer of another. -/
def twoOrganizations : Directory where
  organizations :=
    ⟨⟨[⟨1, "Acme", "acme", none⟩, ⟨2, "Beta", "beta", none⟩], by decide⟩, 3, by decide⟩
  users := staffed.users
  members := ⟨⟨[⟨1, 1, 1, .admin⟩, ⟨2, 2, 1, .viewer⟩], by decide⟩, 3, by decide⟩
  invitations := .empty
  apiKeys := .empty

def twoRecords : Records := ⟨.empty .empty, twoOrganizations⟩

def memberships : List OrganizationMember := [⟨1, 1, 1, .admin⟩, ⟨2, 2, 1, .viewer⟩]

theorem membershipsOf_alice :
    MembershipsOf plainContext inOrder twoRecords "token" alice twoOrganizations memberships where
  signedIn := ⟨aliceJwt, rfl, rfl⟩
  memberships := rfl
  sound := ⟨by decide, by decide, by decide, by decide, by decide⟩

/-- Alice chooses the second organization, and deletes a device. -/
def secondChosen : List Event :=
  [.loaded (me inOrder twoOrganizations 1), .effect, .setOrgId 2]

/-- The page shows the second organization, and the call acts in the first. -/
theorem acts_in_first :
    (Provider.run none secondChosen).currentOrg = some ⟨2, "Beta", "beta", .viewer⟩ ∧
      HandledFor plainContext inOrder ((ApiCall.deleteDevice "rpi-001").request "token") twoRecords
        .removeDevice (some 1) 1 ∧
      ¬ (2 = 1 ∧ ∀ id ∈ switched none secondChosen,
        id ∈ memberships.map OrganizationMember.organizationId → id = 1) := by
  have hplain : (ApiCall.deleteDevice "rpi-001").Plain :=
    ⟨by decide, ⟨by decide, by decide⟩, by decide +kernel⟩
  have hne : ApiCall.deleteDevice "rpi-001" ≠ .getDevice "count" := nofun
  have hshown : (Provider.run none secondChosen).currentOrg = some ⟨2, "Beta", "beta", .viewer⟩ :=
    by decide
  have hevents : ∀ event ∈ secondChosen, event.Within plainContext "token" memberships := by
    have hloaded : Event.Within plainContext "token" memberships
        (.loaded (me inOrder twoOrganizations 1)) :=
      ⟨inOrder, twoRecords, alice, twoOrganizations, membershipsOf_alice, rfl⟩
    have hsecond : 2 ∈ memberships.map OrganizationMember.organizationId := by decide
    simp only [secondChosen, List.forall_mem_cons]
    exact ⟨hloaded, trivial, hsecond, nofun⟩
  have hhandled : HandledFor plainContext inOrder ((ApiCall.deleteDevice "rpi-001").request "token")
      twoRecords .removeDevice (some 1) 1 := by
    refine (signedIn_handled_iff hplain hne rfl rfl).mpr
      ⟨rfl, ⟨1, 1, 1, .admin⟩, ?_, rfl, rfl, le_rfl⟩
    exact ⟨aliceJwt, alice, twoOrganizations, rfl, rfl, rfl⟩
  obtain ⟨-, hiff⟩ :=
    acts_in_shown_iff hevents hshown membershipsOf_alice hplain hne rfl rfl hhandled
  exact ⟨hshown, hhandled, fun h => absurd (hiff.mpr h.2) (by decide)⟩

end EdgeGuardian.Ui
