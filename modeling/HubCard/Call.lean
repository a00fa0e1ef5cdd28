import HubCard.Id

/-!
Calls that the card makes to the dashboard, and how the dashboard may refuse them. A call that is
accepted has been taken for delivery, no more; what comes of it shows in a later update.
-/

namespace HubCard

inductive Call where
  /-- Presses a key on an activity or a device. -/
  | sendCommand (entity : String) (commandId device : Id)
  /-- Switches the activity. -/
  | selectOption (entity option : String)
  deriving Repr, DecidableEq

namespace Call

def domain : Call → String
  | .sendCommand .. => "remote"
  | .selectOption .. => "select"

def service : Call → String
  | .sendCommand .. => "send_command"
  | .selectOption .. => "select_option"

/-- Domain and service, as the dashboard names them. -/
def name (c : Call) : String :=
  c.domain ++ "." ++ c.service

/-- What is sent along. -/
def data : Call → Json
  | .sendCommand entity commandId device =>
    .obj [("command", .int commandId), ("device", .int device), ("entity_id", .str entity)]
  | .selectOption entity option => .obj [("entity_id", .str entity), ("option", .str option)]

/-- The call as a record of its own, under the name of its service. -/
def toJson : Call → Json
  | .sendCommand entity commandId device =>
    .obj
      [("call", .str "send_command"), ("command_id", .int commandId), ("device", .int device),
        ("entity_id", .str entity)]
  | .selectOption entity option =>
    .obj [("call", .str "select_option"), ("entity_id", .str entity), ("option", .str option)]

end Call

inductive CallError where
  | rejected (service reason : String)
  | unavailable (reason : String)
  deriving Repr, DecidableEq

namespace CallError

def message : CallError → String
  | .rejected service reason => service ++ " rejected: " ++ reason
  | .unavailable reason => "service unavailable: " ++ reason

/-- The message where errors of several sources meet. -/
def fullMessage (e : CallError) : String :=
  "service: " ++ e.message

end CallError

end HubCard
