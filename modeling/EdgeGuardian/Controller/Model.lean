import EdgeGuardian.Lib.Table
import EdgeGuardian.Lib.Transaction
import EdgeGuardian.Pki
import EdgeGuardian.Json

/-!
# The data model of the controller

The entities of the controller and its database. A table is keyed by the column by which the code
looks its rows up, which is unique in the schema; rows with a generated `id` are numbered by a
sequence. Columns that no modelled function reads or writes are left out.

A service method is a transaction `Tx Db ServiceError`: where it throws, nothing is written.

Source: `controller/src/main/java/com/edgeguardian/controller/model`,
`controller/src/main/resources/db/migration/V1__core.sql`, `V3__commands.sql`, `V4__pki.sql`,
`V5__telemetry.sql`.

## Main definitions

* `Device`, `DeviceToken`, `DeviceManifestEntity`, `EnrollmentToken`, `CertificateRequest`,
  `IssuedCertificate`, `CertificateRevocationList`, `DeviceTelemetry`, `DeviceTelemetryHourly`,
  `DeviceCommand`, `CommandExecution`, `AuditLog`: the entities.
* `Db`: the database.
* `ServiceError`, `Service`: the exceptions and the transactional methods.
* `hasText`, `isBlank`: the string tests of the Java library.
* `FitsText`, `FitsVarchar`, `FitsJsonb`, `FitsTimestamp`: what the columns of the schema hold.
-/

namespace EdgeGuardian.Controller

/-! ### Strings of the Java library -/

/-- `Character.isWhitespace`. -/
def isWhitespace (c : Char) : Bool :=
  let n := c.toNat
  (9 ≤ n && n ≤ 13) || (0x1C ≤ n && n ≤ 0x20) || n == 0x1680 ||
    (0x2000 ≤ n && n ≤ 0x200A && n != 0x2007) || n == 0x2028 || n == 0x2029 || n == 0x205F ||
    n == 0x3000

/-- `String.isBlank`. -/
def isBlank (s : String) : Bool := s.toList.all isWhitespace

/-- `StringUtils.hasText`, with `none` for `null`. -/
def hasText (s : Option String) : Bool := s.any fun s => !isBlank s

/-! ### Columns -/

/-- A column of type `TEXT` holds the text: PostgreSQL stores no character U+0000. -/
def FitsText (s : String) : Prop := ∀ c ∈ s.toList, c.toNat ≠ 0

instance : DecidablePred FitsText := fun s => List.decidableBAll _ s.toList

/-- A column of type `VARCHAR(n)` holds the text. One that is too long by blanks at its end alone,
which PostgreSQL would cut, is taken for too long as well. -/
def FitsVarchar (n : ℕ) (s : String) : Prop := s.length ≤ n ∧ FitsText s

instance (n : ℕ) : DecidablePred (FitsVarchar n) := fun _ => inferInstanceAs (Decidable (_ ∧ _))

/-- A column of type `JSONB` holds the value. -/
def FitsJsonb (json : Json) : Prop := ∀ s ∈ json.texts, FitsText s

instance : DecidablePred FitsJsonb := fun _ => inferInstanceAs (Decidable (∀ _ ∈ _, _))

/-- A column of type `TIMESTAMPTZ` holds the time, which is before the year 294277. -/
def FitsTimestamp (t : Instant) : Prop := t < 9224318016000000

instance : DecidablePred FitsTimestamp := fun _ => inferInstanceAs (Decidable (_ < _))

/-! ### Entities -/

abbrev OrganizationId := ℕ

abbrev UserId := ℕ

/-- `Device.DeviceState`. -/
inductive DeviceState
  | online
  | degraded
  | offline
  | suspended
deriving DecidableEq, Repr

/-- `Device`. -/
structure Device where
  deviceId : String
  organizationId : OrganizationId
  hostname : Option String
  architecture : Option String
  os : Option String
  agentVersion : Option String
  state : DeviceState
  labels : List (String × String)
  registeredAt : Instant
  lastHeartbeat : Option Instant
  autoUpdate : Option Bool
deriving DecidableEq, Repr

/-- `DeviceToken`. -/
structure DeviceToken where
  deviceId : String
  tokenHash : String
  tokenPrefix : String
  issuedAt : Instant
  revoked : Bool
deriving DecidableEq, Repr

/-- `DeviceManifestEntity`. The version is a `long` in Java, which would wrap at the 2^63rd save of a
manifest; here it does not wrap. -/
structure DeviceManifestEntity where
  deviceId : String
  organizationId : OrganizationId
  apiVersion : String
  kind : String
  metadata : List (String × Json)
  spec : List (String × Json)
  version : ℕ
deriving DecidableEq, Repr

/-- `EnrollmentToken`. -/
structure EnrollmentToken where
  id : ℕ
  organizationId : OrganizationId
  token : String
  name : String
  expiresAt : Option Instant
  maxUses : Option Int32
  useCount : Int32
  revoked : Bool
deriving DecidableEq, Repr

/-- `EnrollmentToken.isValid`, at the time `now`. -/
def EnrollmentToken.isValid (t : EnrollmentToken) (now : Instant) : Bool :=
  !t.revoked && !t.expiresAt.any (fun e => e < now) && !t.maxUses.any (fun m => m ≤ t.useCount)

/-- `CertRequestType`. -/
inductive CertRequestType
  | initial
  | renewal
  | manifest
deriving DecidableEq, Repr

/-- `CertRequestType.name`. -/
def CertRequestType.name : CertRequestType → String
  | initial => "INITIAL"
  | renewal => "RENEWAL"
  | manifest => "MANIFEST"

/-- `CertRequestState`. -/
inductive CertRequestState
  | pending
  | approved
  | rejected
  | blocked
deriving DecidableEq, Repr

/-- `CertRequestState.toString`. -/
def CertRequestState.name : CertRequestState → String
  | pending => "PENDING"
  | approved => "APPROVED"
  | rejected => "REJECTED"
  | blocked => "BLOCKED"

/-- `CertificateRequest`. -/
structure CertificateRequest where
  id : ℕ
  deviceId : String
  organizationId : OrganizationId
  name : String
  commonName : String
  sans : List String
  csrPem : String
  type : CertRequestType
  currentSerial : Option String
  state : CertRequestState
  rejectReason : Option String
  reviewedBy : Option UserId
  reviewedAt : Option Instant
  createdAt : Instant
deriving DecidableEq, Repr

/-- `RevokeReason`. -/
inductive RevokeReason
  | renewed
  | adminRevoked
  | compromised
  | expired
  | deviceDeleted
  | superseded
deriving DecidableEq, Repr

/-- `RevokeReason.name`. -/
def RevokeReason.name : RevokeReason → String
  | renewed => "RENEWED"
  | adminRevoked => "ADMIN_REVOKED"
  | compromised => "COMPROMISED"
  | expired => "EXPIRED"
  | deviceDeleted => "DEVICE_DELETED"
  | superseded => "SUPERSEDED"

/-- `IssuedCertificate`. The column `serial_number` holds the number in hexadecimal. -/
structure IssuedCertificate where
  id : ℕ
  requestId : Option ℕ
  deviceId : String
  organizationId : OrganizationId
  name : String
  commonName : String
  serialNumber : ℕ
  certPem : X509Certificate
  notBefore : Instant
  notAfter : Instant
  replacedBy : Option ℕ
  revoked : Bool
  revokedAt : Option Instant
  revokeReason : Option RevokeReason
  createdAt : Instant
deriving DecidableEq, Repr

/-- `BigInteger.toString(16)`. -/
def serialText (serial : ℕ) : String := String.ofList (Nat.toDigits 16 serial)

/-- `CrlEntry`. -/
structure CrlEntry where
  serialNumber : ℕ
  revokedAt : Instant
  reasonCode : ℕ
deriving DecidableEq, Repr

/-- `CertificateRevocationList`; `crlDer` is the signed list of its entries. -/
structure CertificateRevocationList where
  organizationId : OrganizationId
  crlNumber : ℕ
  crlDer : List CrlEntry
  thisUpdate : Instant
  nextUpdate : Instant
  revokedCount : ℕ
deriving DecidableEq, Repr

/-- `DeviceStatus`; the `double` is given by its bits. -/
structure DeviceStatus where
  cpuUsagePercent : UInt64
  memoryUsedBytes : ℤ
  memoryTotalBytes : ℤ
  diskUsedBytes : ℤ
  diskTotalBytes : ℤ
  uptimeSeconds : ℤ
  lastReconcile : Option Instant
  reconcileStatus : String
deriving DecidableEq, Repr

/-- `DeviceTelemetry`. -/
structure DeviceTelemetry where
  time : Instant
  deviceId : String
  organizationId : OrganizationId
  status : DeviceStatus
deriving DecidableEq, Repr

/-- `DeviceTelemetryId`, the primary key of `device_telemetry`. -/
def DeviceTelemetry.id (t : DeviceTelemetry) : Instant × String := (t.time, t.deviceId)

/-- `time_bucket('1 hour', time)`. -/
def timeBucket (time : Instant) : Instant := time - time % Duration.ofHours 1

/-- A row of `device_telemetry_hourly`, with the rows of `device_telemetry` that it was made of.
Those are dropped after 30 days, and the row stays. -/
structure DeviceTelemetryHourly where
  bucket : Instant
  deviceId : String
  samples : List DeviceTelemetry
  nonempty : samples ≠ []
  grouped : ∀ t ∈ samples, t.deviceId = deviceId ∧ timeBucket t.time = bucket
deriving DecidableEq

/-- The columns by which the view groups. -/
def DeviceTelemetryHourly.id (h : DeviceTelemetryHourly) : Instant × String :=
  (h.bucket, h.deviceId)

/-- The states of a `DeviceCommand`. -/
inductive CommandState
  | pending
  | sent
  | running
  | completed
  | failed
  | timeout
deriving DecidableEq, Repr

/-- `DeviceCommand`. -/
structure DeviceCommand where
  id : ℕ
  commandId : String
  deviceId : String
  organizationId : OrganizationId
  type : String
  params : List (String × Option String)
  script : Option (List (String × Json))
  hooks : Option (List (String × Json))
  timeoutSeconds : ℤ
  state : CommandState
  createdBy : Option UserId
  createdAt : Instant
  sentAt : Option Instant
deriving Repr

/-- `CommandExecution`. -/
structure CommandExecution where
  id : ℕ
  commandId : String
  deviceId : String
  phase : String
  status : String
  exitCode : ℤ
  stdout : Option String
  stderr : Option String
  errorMessage : Option String
  durationMs : ℤ
  receivedAt : Instant
deriving DecidableEq, Repr

/-- `AuditLog`. -/
structure AuditLog where
  organizationId : Option OrganizationId
  userId : Option UserId
  action : String
  resourceType : String
  resourceId : String
  details : List (String × Json)
  createdAt : Instant
deriving Repr

/-! ### The database -/

/-- The tables of the controller. -/
structure Db where
  devices : Table Device Device.deviceId
  deviceTokens : Table DeviceToken DeviceToken.deviceId
  manifests : Table DeviceManifestEntity DeviceManifestEntity.deviceId
  enrollmentTokens : Table EnrollmentToken EnrollmentToken.token
  requests : SerialTable CertificateRequest CertificateRequest.id
  certificates : SerialTable IssuedCertificate IssuedCertificate.id
  crls : Table CertificateRevocationList CertificateRevocationList.organizationId
  telemetry : Table DeviceTelemetry DeviceTelemetry.id
  /-- What the refresh policy of the continuous aggregate has materialized. -/
  hourly : Table DeviceTelemetryHourly DeviceTelemetryHourly.id
  commands : SerialTable DeviceCommand DeviceCommand.id
  executions : SerialTable CommandExecution CommandExecution.id
  auditLog : List AuditLog

/-- A database with enrolment tokens and no other rows. -/
def Db.empty (enrollmentTokens : Table EnrollmentToken EnrollmentToken.token) : Db where
  devices := .empty
  deviceTokens := .empty
  manifests := .empty
  enrollmentTokens := enrollmentTokens
  requests := .empty
  certificates := .empty
  crls := .empty
  telemetry := .empty
  hourly := .empty
  commands := .empty
  executions := .empty
  auditLog := []

/-- The exceptions that leave a service method. -/
inductive ServiceError
  /-- `ResponseStatusException`. -/
  | status (code : ℕ) (reason : String)
  /-- `IllegalStateException`. -/
  | illegalState (message : String)
  /-- `IllegalArgumentException`. -/
  | illegalArgument (message : String)
  /-- `DataIntegrityViolationException`: a constraint of the schema refuses the row. -/
  | dataIntegrity
  /-- `JsonProcessingException`: a message body is not what is expected. -/
  | json
deriving DecidableEq, Repr

/-- A transactional service method. -/
abbrev Service := Tx Db ServiceError

/-- What a transaction takes from outside: the clock and the random numbers. -/
structure Env where
  /-- `Instant.now()`. -/
  now : Instant
  /-- `PkiConstants.newSerial()`. -/
  serial : ℕ
  /-- `generateDeviceToken()`. -/
  deviceToken : String
deriving DecidableEq, Repr, Inhabited

/-- The configuration of the certificate authority and the libraries that it calls. -/
structure PkiContext where
  /-- `PemCodec.parseCsr`: `none` where it throws or finds no request. -/
  parseCsr : String → Option CertificationRequest
  /-- `new GeneralName(GeneralName.iPAddress, san)` accepts the text. -/
  acceptsIpAddress : String → Bool
  /-- `TokenHasher.sha256`. -/
  sha256 : String → String
  /-- `CaProperties.certValidityDays`. -/
  certValidityDays : ℕ
  /-- `PkiProperties.crlValidityHours`. -/
  crlValidityHours : ℕ
  /-- `PkiProperties.crlUrlFor`. -/
  crlUrlFor : OrganizationId → String

/-- A certificate authority that reads no request. -/
instance : Inhabited PkiContext where
  default :=
    { parseCsr := fun _ => none
      acceptsIpAddress := fun _ => false
      sha256 := id
      certValidityDays := 365
      crlValidityHours := 24
      crlUrlFor := fun _ => "" }

/-- The configuration of the listeners and the libraries that they call. -/
structure Context extends PkiContext where
  /-- `Instant.parse`. -/
  parseInstant : String → Option Instant
  /-- `CertificateAuthorityService.getCaCertPem`. -/
  caCertPem : OrganizationId → String
  /-- `BrokerCaProvider.getPem`. -/
  brokerPem : String
  /-- `Exception.getMessage`. -/
  getMessage : ServiceError → String

/-- Listeners on libraries that read nothing. -/
instance : Inhabited Context where
  default :=
    { toPkiContext := default
      parseInstant := fun _ => none
      caCertPem := fun _ => ""
      brokerPem := ""
      getMessage := fun _ => "" }

/-- `AuditService.log`. -/
def log (env : Env) (orgId : OrganizationId) (userId : Option UserId)
    (action resourceType resourceId : String) (details : List (String × Json)) (db : Db) : Db :=
  { db with
    auditLog := db.auditLog ++
      [⟨orgId, userId, action, resourceType, resourceId, details, env.now⟩] }

end EdgeGuardian.Controller
