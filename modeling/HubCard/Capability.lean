import HubCard.Id

/-!
Capabilities: which commands a hub can take at the moment, and which activity or device owns them.
Hubs list them as bare ids or as records under various field names. Where a list yields nothing
usable, every command counts as usable.
-/

namespace HubCard

structure Capability where
  commandId : Id
  targetId : Option Id
  deriving Repr, DecidableEq

namespace Capability

/-- The fields that may hold the id of the command, the first one first. -/
def commandFields : List String :=
  ["command_id", "command", "button_id", "button", "id", "code"]

/-- The fields that may hold the id of the owner, the first one first. -/
def targetFields : List String :=
  ["activity_id", "device_id", "activity", "device", "target"]

/-- A value that says something: neither null nor a blank text. -/
def isPopulated : Json → Bool
  | .null => false
  | .str s => !Text.isBlankText s
  | _ => true

/-- The value of the first field that is populated. -/
def firstPopulated (members : Dict Json) (fields : List String) : Option Json :=
  fields.findSome? fun field => (members.get? field).filter isPopulated

def ofMembers? (members : Dict Json) : Option Capability :=
  ((firstPopulated members commandFields).bind Id.ofJson?).map fun commandId =>
    ⟨commandId, (firstPopulated members targetFields).bind Id.ofJson?⟩

/-- The capability that an entry of the list stands for, if it is usable: a record, or the bare id of
a command. -/
def ofJson? : Json → Option Capability
  | .obj members => ofMembers? members
  | v => (Id.ofJson? v).map (⟨·, none⟩)

end Capability

/-- The usable entries of a hub's list, and whether the list had only unusable ones. -/
structure Capabilities where
  entries : List Capability
  malformed : Bool
  deriving Repr, DecidableEq

namespace Capabilities

def empty : Capabilities := ⟨[], false⟩

def ofList (raw : List Json) : Capabilities :=
  let entries := raw.filterMap Capability.ofJson?
  ⟨entries, !raw.isEmpty && entries.isEmpty⟩

/-- Whether a command may be sent. -/
def allows (c : Capabilities) (commandId : Id) : Bool :=
  c.malformed || c.entries.isEmpty || c.entries.any (·.commandId == commandId)

/-- The first entry for a command. -/
def entry? (c : Capabilities) (commandId : Id) : Option Capability :=
  c.entries.find? (·.commandId == commandId)

/-- Where a command goes: to the owner that its entry names, else to the current activity. -/
def route? (c : Capabilities) (commandId : Id) (activityId : Option Id) : Option Id :=
  ((c.entry? commandId).bind (·.targetId)).or activityId

end Capabilities

end HubCard
