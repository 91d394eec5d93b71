import EdgeGuardian.Lib.GoJson

/-!
# The manifest as the agent reads it

The agent decodes the desired state into structs whose fields are texts, also where the text is
that of a number or a truth value: the mode of a file, whether a service is enabled. Each struct has
its type, which decides what is accepted, and the storing of a JSON object in it.

Source: `agent/internal/model/manifest.go`, lines 8–69, `agent/internal/comms/mqtt_client.go`,
lines 477–496.

## Main definitions

* `FileResource`, `ServiceResource`, `CertificateResource`, `HealthCheckSpec`, `ManifestSpec`,
  `ManifestMetadata`, `DeviceManifest`.
* `unmarshalManifest`: the manifest that `handleDesiredState` decodes.
-/

namespace EdgeGuardian.Agent.Model

open GoJson

/-! ### Files, services and certificates -/

/-- `FileResource`. -/
structure FileResource where
  path : String
  content : String
  mode : String
  owner : String
deriving DecidableEq, Repr

namespace FileResource

def fields : List (String × GoType) :=
  [("path", .string), ("content", .string), ("mode", .string), ("owner", .string)]

def zero : FileResource := ⟨"", "", "", ""⟩

def store (json : Json) (old : FileResource) : FileResource :=
  let field (name : String) := storeField (fields.map Prod.fst) name storeString (membersOf json)
  { path := field "path" old.path
    content := field "content" old.content
    mode := field "mode" old.mode
    owner := field "owner" old.owner }

end FileResource

/-- `ServiceResource`. -/
structure ServiceResource where
  name : String
  enabled : String
  state : String
deriving DecidableEq, Repr

namespace ServiceResource

def fields : List (String × GoType) :=
  [("name", .string), ("enabled", .string), ("state", .string)]

def zero : ServiceResource := ⟨"", "", ""⟩

def store (json : Json) (old : ServiceResource) : ServiceResource :=
  let field (name : String) := storeField (fields.map Prod.fst) name storeString (membersOf json)
  { name := field "name" old.name
    enabled := field "enabled" old.enabled
    state := field "state" old.state }

end ServiceResource

/-- `CertificateResource`. -/
structure CertificateResource where
  name : String
  commonName : String
  sans : GoSlice String
  certPath : String
  keyPath : String
  keyAlgo : String
deriving DecidableEq, Repr

namespace CertificateResource

def fields : List (String × GoType) :=
  [("name", .string), ("commonName", .string), ("sans", .slice .string), ("certPath", .string),
    ("keyPath", .string), ("keyAlgo", .string)]

def zero : CertificateResource := ⟨"", "", .empty, "", "", ""⟩

def store (json : Json) (old : CertificateResource) : CertificateResource :=
  let field (name : String) := storeField (fields.map Prod.fst) name storeString (membersOf json)
  { name := field "name" old.name
    commonName := field "commonName" old.commonName
    sans := storeField (fields.map Prod.fst) "sans" (storeSlice "" storeString) (membersOf json)
      old.sans
    certPath := field "certPath" old.certPath
    keyPath := field "keyPath" old.keyPath
    keyAlgo := field "keyAlgo" old.keyAlgo }

end CertificateResource

/-! ### Health checks -/

/-- `HealthCheck`. -/
structure HealthCheck where
  name : String
  type : String
  target : String
  timeoutSeconds : ℤ
deriving DecidableEq, Repr

namespace HealthCheck

def fields : List (String × GoType) :=
  [("name", .string), ("type", .string), ("target", .string), ("timeoutSeconds", .int 32)]

def zero : HealthCheck := ⟨"", "", "", 0⟩

def store (json : Json) (old : HealthCheck) : HealthCheck :=
  let field (name : String) := storeField (fields.map Prod.fst) name storeString (membersOf json)
  { name := field "name" old.name
    type := field "type" old.type
    target := field "target" old.target
    timeoutSeconds := storeField (fields.map Prod.fst) "timeoutSeconds" storeInt (membersOf json)
      old.timeoutSeconds }

end HealthCheck

/-- `HealthCheckSpec`. -/
structure HealthCheckSpec where
  intervalSeconds : ℤ
  checks : GoSlice HealthCheck
deriving DecidableEq, Repr

namespace HealthCheckSpec

def fields : List (String × GoType) :=
  [("intervalSeconds", .int 32), ("checks", .slice (.struct HealthCheck.fields))]

def zero : HealthCheckSpec := ⟨0, .empty⟩

def store (json : Json) (old : HealthCheckSpec) : HealthCheckSpec where
  intervalSeconds := storeField (fields.map Prod.fst) "intervalSeconds" storeInt (membersOf json)
    old.intervalSeconds
  checks := storeField (fields.map Prod.fst) "checks"
    (storeSlice HealthCheck.zero HealthCheck.store) (membersOf json) old.checks

end HealthCheckSpec

/-! ### The manifest -/

/-- `ManifestSpec`. -/
structure ManifestSpec where
  files : GoSlice FileResource
  services : GoSlice ServiceResource
  certificates : GoSlice CertificateResource
  health : Option HealthCheckSpec
deriving DecidableEq, Repr

namespace ManifestSpec

def fields : List (String × GoType) :=
  [("files", .slice (.struct FileResource.fields)),
    ("services", .slice (.struct ServiceResource.fields)),
    ("certificates", .slice (.struct CertificateResource.fields)),
    ("health", .pointer (.struct HealthCheckSpec.fields))]

def zero : ManifestSpec := ⟨.empty, .empty, .empty, none⟩

def store (json : Json) (old : ManifestSpec) : ManifestSpec :=
  let names := fields.map Prod.fst
  { files := storeField names "files" (storeSlice FileResource.zero FileResource.store)
      (membersOf json) old.files
    services := storeField names "services" (storeSlice ServiceResource.zero ServiceResource.store)
      (membersOf json) old.services
    certificates := storeField names "certificates"
      (storeSlice CertificateResource.zero CertificateResource.store) (membersOf json)
      old.certificates
    health := storeField names "health" (storePointer HealthCheckSpec.zero HealthCheckSpec.store)
      (membersOf json) old.health }

end ManifestSpec

/-- `ManifestMetadata`. -/
structure ManifestMetadata where
  name : String
  labels : List (String × String)
  annotations : List (String × String)
deriving DecidableEq, Repr

namespace ManifestMetadata

def fields : List (String × GoType) :=
  [("name", .string), ("labels", .map .string), ("annotations", .map .string)]

def zero : ManifestMetadata := ⟨"", [], []⟩

def store (json : Json) (old : ManifestMetadata) : ManifestMetadata :=
  let names := fields.map Prod.fst
  { name := storeField names "name" storeString (membersOf json) old.name
    labels := storeField names "labels" (storeMap "" storeString) (membersOf json) old.labels
    annotations := storeField names "annotations" (storeMap "" storeString) (membersOf json)
      old.annotations }

end ManifestMetadata

/-- `DeviceManifest`. -/
structure DeviceManifest where
  apiVersion : String
  kind : String
  metadata : ManifestMetadata
  spec : ManifestSpec
  version : ℤ
deriving DecidableEq, Repr

namespace DeviceManifest

def fields : List (String × GoType) :=
  [("apiVersion", .string), ("kind", .string), ("metadata", .struct ManifestMetadata.fields),
    ("spec", .struct ManifestSpec.fields), ("version", .int 64)]

def zero : DeviceManifest := ⟨"", "", .zero, .zero, 0⟩

def store (json : Json) (old : DeviceManifest) : DeviceManifest :=
  let names := fields.map Prod.fst
  { apiVersion := storeField names "apiVersion" storeString (membersOf json) old.apiVersion
    kind := storeField names "kind" storeString (membersOf json) old.kind
    metadata := storeField names "metadata" ManifestMetadata.store (membersOf json) old.metadata
    spec := storeField names "spec" ManifestSpec.store (membersOf json) old.spec
    version := storeField names "version" storeInt (membersOf json) old.version }

end DeviceManifest

/-- `json.Unmarshal` into a `DeviceManifest`, as `handleDesiredState` does; `none` is an error. -/
def unmarshalManifest (body : Json) : Option DeviceManifest :=
  if (GoType.struct DeviceManifest.fields).accepts body then
    some (DeviceManifest.store body DeviceManifest.zero)
  else none

end EdgeGuardian.Agent.Model
