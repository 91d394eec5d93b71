import EdgeGuardian.Pki
import Mathlib.Data.Option.Basic

/-!
# The identity of the agent on disk

The agent keeps its private key, its certificate and the certificate of the CA in three files, and
stashes the key of a renewal in a fourth. Every write replaces a file as a whole or leaves it as it
is. `Load` does not compare the key with the certificate; the TLS library does, when the client for
the broker is built.

Source: `agent/internal/bootstrap/identity.go`, `files.go`, `agent/plugins/certificate/csr.go`
(`WriteAtomic`), `agent/internal/comms/tls_config.go`.

## Main definitions

* `IdentityFiles`: the four files.
* `load`: the identity that is read back.
* `buildTls`: the key pair that the MQTT client is built with.
-/

namespace EdgeGuardian.Agent.Bootstrap

/-- The files `identity.key`, `identity.crt`, `ca.crt` and `identity.key.new`. -/
structure IdentityFiles where
  key : Option KeyPair
  cert : Option CertPem
  ca : Option CertPem
  newKey : Option KeyPair
deriving DecidableEq, Repr

/-- The key at `identity.key` is the one for which the certificate at `identity.crt` was issued. -/
def IdentityFiles.Paired (files : IdentityFiles) : Prop :=
  ∃ c, files.cert = some (.certificate c) ∧ files.key = some c.publicKey

/-- The error of `os.Stat` for a file that is missing. -/
def missing (path : String) : String := "stat " ++ path ++ ": no such file or directory"

/-- `Manager.Load`: no identity without a certificate file, and an error where a file is missing or
cannot be read. What the parser says of a certificate is left out. -/
def load (files : IdentityFiles) : Except String (Option X509Certificate) :=
  match files.cert with
  | none => .ok none
  | some pem =>
    match pem.parse with
    | none => .error "parse identity.crt"
    | some c =>
      if files.key.isNone then
        .error ("identity cert present but private key missing at identity.key: " ++
          missing "identity.key")
      else if files.ca.isNone then
        .error ("identity cert present but CA cert missing at ca.crt: " ++ missing "ca.crt")
      else .ok (some c)

theorem load_eq_ok_some {files : IdentityFiles} {c : X509Certificate} :
    load files = .ok (some c) ↔
      files.cert = some (.certificate c) ∧ files.key.isSome ∧ files.ca.isSome := by
  rw [load]
  rcases files.cert with _ | pem
  · simp
  · rcases pem with c' | bytes
    · rcases files.key with _ | k
      · simp [CertPem.parse]
      · rcases files.ca with _ | ca
        · simp [CertPem.parse]
        · simp [CertPem.parse]
    · simp [CertPem.parse]

/-- `TLSConfig.Build`: the certificate that the client presents. `tls.LoadX509KeyPair` refuses a key
that is not the one of the certificate. -/
def buildTls (files : IdentityFiles) : Option X509Certificate := do
  let _ ← files.ca.bind CertPem.parse
  let c ← files.cert.bind CertPem.parse
  let k ← files.key
  guard (c.publicKey = k)
  return c

theorem buildTls_eq_some {files : IdentityFiles} {c : X509Certificate}
    (h : buildTls files = some c) :
    files.cert = some (.certificate c) ∧ files.key = some c.publicKey := by
  simp only [buildTls, Option.bind_eq_bind, Option.bind_eq_some_iff, Option.pure_def,
    Option.guard_eq_some', Option.some.injEq] at h
  obtain ⟨_, _, _, ⟨pem, hpem, hparse⟩, k, hk, -, hmatch, rfl⟩ := h
  rcases pem with c' | bytes
  · cases hparse
    exact ⟨hpem, by rw [hk, hmatch]⟩
  · cases hparse

end EdgeGuardian.Agent.Bootstrap
