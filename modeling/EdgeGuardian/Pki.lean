import Mathlib.Data.Nat.Notation

/-!
# Keys, requests and certificates

What the agent and the controller exchange: a certification request names a subject and a public
key, and a certificate binds them to a serial number and a validity period. PEM and DER are
encodings of these; the model works on what is encoded. A key pair is named by one number, so that
a request or a certificate belongs to a private key iff it has its number.

## Main definitions

* `X500Name`, `X500Name.commonName`.
* `CertificationRequest`, `X509Certificate`, `CertPem`.
-/

namespace EdgeGuardian

/-- A point in time, in milliseconds. -/
abbrev Instant := ℕ

/-- The number of milliseconds of `n` hours. -/
def Duration.ofHours (n : ℕ) : ℕ := n * 3600000

/-- The number of milliseconds of `n` days. -/
def Duration.ofDays (n : ℕ) : ℕ := n * 86400000

/-- A key pair. -/
abbrev KeyPair := ℕ

/-- A distinguished name, as its attribute types and values in order. -/
abbrev X500Name := List (String × String)

/-- The value of the first common-name attribute. -/
def X500Name.commonName (n : X500Name) : Option String :=
  (n.find? fun a => a.1 == "CN").map Prod.snd

/-- A PKCS #10 request. -/
structure CertificationRequest where
  subject : X500Name
  publicKey : KeyPair
deriving DecidableEq, Repr

/-- A subject alternative name. -/
inductive GeneralName
  | ipAddress (name : String)
  | dnsName (name : String)
deriving DecidableEq, Repr

/-- A leaf certificate. -/
structure X509Certificate where
  /-- The organization whose CA is the issuer. -/
  issuer : ℕ
  serial : ℕ
  notBefore : Instant
  notAfter : Instant
  subject : X500Name
  publicKey : KeyPair
  sans : List GeneralName
  crlUrl : String
deriving DecidableEq, Repr

/-- The serial number in hexadecimal, as Go and Java both write it. -/
def X509Certificate.serialHex (c : X509Certificate) : String :=
  String.ofList (Nat.toDigits 16 c.serial)

/-- What a PEM file holds: a certificate, or bytes that are none. -/
inductive CertPem
  | certificate (c : X509Certificate)
  | malformed (bytes : List UInt8)
deriving DecidableEq, Repr

/-- `ParseCertificatePEM`. -/
def CertPem.parse : CertPem → Option X509Certificate
  | certificate c => some c
  | malformed _ => none

end EdgeGuardian
