import EdgeGuardian.Controller.Certificates
import EdgeGuardian.Lib.GoNetip

/-!
# Subject alternative names on both sides

An alternative name of a certificate is an IP address or the name of a host. The agent puts the
names of a manifest into its certification request, and the controller puts the same names into the
certificate that it signs. The agent asks `net.ParseIP` whether a name is an address; the controller
takes for an address what looks like four numbers between dots, and then fails on one that is none.

Source: `agent/plugins/certificate/csr.go` (`CreateCSR`),
`controller/src/main/java/com/edgeguardian/controller/service/CertificateAuthorityService.java`
(`buildLeaf`).

## Main definitions

* `Sans.createCSR`: the names in the certification request of the agent.
* `Sans.Agree`: both sides take every name for the same, and what the agent can request can be
  signed.
* `Sans.Unambiguous`: the names for which they do.

## Main results

* `Sans.isSome_parseIP_eq_matchesIpv4_iff`: both sides take a name for the same if and only if it is
  unambiguous.
* `Sans.agree_iff`: the two sides agree on a list of names if and only if each of them is
  unambiguous.
-/

namespace EdgeGuardian.Sans

open Controller GoNetip

/-! ### The certification request -/

/-- The names of `x509.CertificateRequest`. -/
structure CsrTemplate where
  ipAddresses : List (List UInt8)
  dnsNames : List String
deriving DecidableEq, Repr

/-- The body of the loop of `CreateCSR`. -/
def CsrTemplate.add (template : CsrTemplate) (san : String) : CsrTemplate :=
  match parseIP san.toList with
  | some ip => { template with ipAddresses := template.ipAddresses ++ [ip] }
  | none => { template with dnsNames := template.dnsNames ++ [san] }

/-- `isIA5String` of `crypto/x509`. -/
def isIA5String (s : String) : Bool := s.toList.all fun c => c.toNat ≤ 127

/-- `CreateCSR`, as far as the names are concerned: `x509.CreateCertificateRequest` fails on a name
of a host that is not in ASCII. -/
def createCSR (sans : List String) : Option CsrTemplate :=
  let template := sans.foldl CsrTemplate.add ⟨[], []⟩
  if template.dnsNames.all isIA5String then some template else none

/-! ### Names that mean the same -/

/-- Every name is taken for an address by both sides or by none, and the controller signs a request
for names that the agent can make. -/
def Agree (pki : PkiContext) (sans : List String) : Prop :=
  (∀ san ∈ sans, (parseIP san.toList).isSome = matchesIpv4 san) ∧
    ((createCSR sans).isSome → ∀ env orgId csrPem, (pki.parseCsr csrPem).isSome →
      (signCsr pki env orgId csrPem sans).isSome)

/-- Not an IPv6 address; and if there are four numbers between dots, then they are at most 255 and
have no zero in front of them. -/
def Unambiguous (san : String) : Prop :=
  (∀ ip, parseAddr san.toList ≠ some (.v6 ip [])) ∧
    (matchesIpv4 san → ∀ p ∈ san.toList.splitOn '.',
      (p.head? = some '0' → p = ['0']) ∧ decimalFrom 0 p ≤ 255)

/-- The library of the controller accepts IPv4 addresses. -/
def AcceptsIpv4 (pki : PkiContext) : Prop :=
  ∀ san : String, (parseIPv4 san.toList).isSome → pki.acceptsIpAddress san

variable {pki : PkiContext} {san : String} {sans : List String}

theorem matchesIpv4_iff : matchesIpv4 san ↔
    (san.toList.splitOn '.').length = 4 ∧
      ∀ p ∈ san.toList.splitOn '.', p ≠ [] ∧ ∀ c ∈ p, c.isDigit := by
  simp [matchesIpv4]

/-- The agent takes less for an IPv4 address than the controller. -/
theorem isSome_parseIPv4_iff_matchesIpv4 : (parseIPv4 san.toList).isSome ↔
    matchesIpv4 san ∧ ∀ p ∈ san.toList.splitOn '.',
      (p.head? = some '0' → p = ['0']) ∧ decimalFrom 0 p ≤ 255 := by
  rw [isSome_parseIPv4_iff, matchesIpv4_iff]
  constructor
  · rintro ⟨hlen, hoctets⟩
    exact ⟨⟨hlen, fun p hp => ⟨(hoctets p hp).1, (hoctets p hp).2.1⟩⟩,
      fun p hp => (hoctets p hp).2.2⟩
  · rintro ⟨⟨hlen, hdigits⟩, hvalues⟩
    exact ⟨hlen, fun p hp => ⟨(hdigits p hp).1, (hdigits p hp).2, hvalues p hp⟩⟩

/-- Four numbers between dots are read with the parser for IPv4 addresses. -/
theorem parseAddr_of_matchesIpv4 (h : matchesIpv4 san) :
    parseAddr san.toList = (parseIPv4 san.toList).map .v4 := by
  obtain ⟨hlen, hdigits⟩ := matchesIpv4_iff.mp h
  refine parseAddr_of_dots ?_ fun c hc => ?_
  · by_contra hdot
    rw [List.splitOn_eq_singleton hdot] at hlen
    cases hlen
  · exact (mem_pieces hc).imp_right fun ⟨p, hp, hcp⟩ => (hdigits p hp).2 c hcp

/-- **Both sides take a name for the same** if and only if it is unambiguous. -/
theorem isSome_parseIP_eq_matchesIpv4_iff :
    (parseIP san.toList).isSome = matchesIpv4 san ↔ Unambiguous san := by
  rw [Bool.eq_iff_iff, isSome_parseIP_iff, Unambiguous]
  by_cases hmatch : matchesIpv4 san
  · rw [parseAddr_of_matchesIpv4 hmatch]
    have hv4 : (∃ fields, (parseIPv4 san.toList).map Addr.v4 = some (.v4 fields)) ↔
        (parseIPv4 san.toList).isSome := by
      rcases parseIPv4 san.toList with _ | fields <;> simp
    have hv6 : ∀ ip, (parseIPv4 san.toList).map Addr.v4 ≠ some (.v6 ip []) := by
      intro ip h
      obtain ⟨_, -, heq⟩ := Option.map_eq_some_iff.mp h
      cases heq
    rw [hv4, isSome_parseIPv4_iff_matchesIpv4]
    simp [hmatch, hv6]
  · have hv4 : ¬ ∃ fields, parseAddr san.toList = some (.v4 fields) := by
      rintro ⟨fields, h⟩
      exact hmatch (isSome_parseIPv4_iff_matchesIpv4.mp (isSome_parseIPv4_of_parseAddr h)).1
    simp [hmatch, hv4]

/-! ### Lists of names -/

/-- The names that the agent takes for addresses are signed as such. -/
theorem generalName_of_unambiguous (hpki : AcceptsIpv4 pki) (h : Unambiguous san) :
    generalName pki san =
      some (if matchesIpv4 san then .ipAddress san else .dnsName san) := by
  rw [generalName]
  by_cases hmatch : matchesIpv4 san
  · have hquad : (parseIPv4 san.toList).isSome :=
      isSome_parseIPv4_iff_matchesIpv4.mpr ⟨hmatch, h.2 hmatch⟩
    rw [if_pos hmatch, if_pos hmatch, if_pos (hpki san hquad)]
  · rw [if_neg hmatch, if_neg hmatch]

theorem mapM_generalName (hpki : AcceptsIpv4 pki) (h : ∀ san ∈ sans, Unambiguous san) :
    sans.mapM (generalName pki) =
      some (sans.map fun san => if matchesIpv4 san then .ipAddress san else .dnsName san) := by
  induction sans with
  | nil => rfl
  | cons san sans ih =>
    obtain ⟨hsan, hsans⟩ := List.forall_mem_cons.mp h
    rw [List.mapM_cons, generalName_of_unambiguous hpki hsan, ih hsans]
    rfl

/-- **Both sides agree on a list of names** if and only if each of them is unambiguous. -/
theorem agree_iff (pki : PkiContext) (hpki : AcceptsIpv4 pki) (sans : List String) :
    Agree pki sans ↔ ∀ san ∈ sans, Unambiguous san := by
  constructor
  · intro h san hsan
    exact isSome_parseIP_eq_matchesIpv4_iff.mp (h.1 san hsan)
  · intro h
    refine ⟨fun san hsan => isSome_parseIP_eq_matchesIpv4_iff.mpr (h san hsan), ?_⟩
    intro _ env orgId csrPem hcsr
    obtain ⟨csr, hcsr⟩ := Option.isSome_iff_exists.mp hcsr
    rw [signCsr, hcsr, mapM_generalName hpki h]
    rfl

namespace Sample

/-- What `isValidIPv4` of the library accepts of texts with four numbers between dots: a zero in
front of a number does not matter to it. -/
def isValidIPv4 (san : String) : Bool :=
  (san.toList.splitOn '.').all fun p => decimalFrom 0 p ≤ 255

/-- A certificate authority with this library. -/
def authority : PkiContext where
  parseCsr _ := some ⟨[("CN", "d1")], 0⟩
  acceptsIpAddress := isValidIPv4
  sha256 := id
  certValidityDays := 365
  crlValidityHours := 24
  crlUrlFor _ := ""

theorem acceptsIpv4_authority : AcceptsIpv4 authority := by
  intro san h
  obtain ⟨-, hvalues⟩ := isSome_parseIPv4_iff_matchesIpv4.mp h
  exact List.all_eq_true.mpr fun p hp => decide_eq_true (hvalues p hp).2

/-- A host and an IPv4 address. -/
theorem agree_host_and_address : Agree authority ["sensor.local", "10.0.0.7"] := by
  refine (agree_iff authority acceptsIpv4_authority _).mpr fun san hsan => ?_
  apply isSome_parseIP_eq_matchesIpv4_iff.mp
  revert san
  decide +kernel

/-- An IPv6 address is signed as the name of a host, and numbers above 255 or with a zero in front
of them are not signed or signed as an address. -/
theorem not_agree :
    ¬ Agree authority ["::1"] ∧ ¬ Agree authority ["01.2.3.4"] ∧
      (createCSR ["999.1.1.1"]).isSome ∧
      (∀ env orgId, signCsr authority env orgId "" ["999.1.1.1"] = none) ∧
      ¬ Agree authority ["999.1.1.1"] := by
  have hparse : (parseIP "::1".toList).isSome ≠ matchesIpv4 "::1" ∧
      (parseIP "01.2.3.4".toList).isSome ≠ matchesIpv4 "01.2.3.4" ∧
      (parseIP "999.1.1.1".toList).isSome ≠ matchesIpv4 "999.1.1.1" := by
    decide +kernel
  have hnames : ["999.1.1.1"].mapM (generalName authority) = none := by decide +kernel
  refine ⟨fun h => hparse.1 (h.1 _ (List.mem_singleton_self _)),
    fun h => hparse.2.1 (h.1 _ (List.mem_singleton_self _)), by decide +kernel, ?_,
    fun h => hparse.2.2 (h.1 _ (List.mem_singleton_self _))⟩
  intro env orgId
  rw [signCsr, hnames]
  rfl

end Sample

end EdgeGuardian.Sans
