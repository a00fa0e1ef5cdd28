import HubCard.Entity
import HubCard.Id

/-!
What the card reads off its two entities: the report of the hub (the `remote` entity) and the report
of its activity selector (a `select` entity that the hub names). Nothing but this module knows the
names of their attributes.
-/

namespace HubCard

/-- The hardware of a hub. -/
inductive HubModel where
  | x1
  | x1s
  | x2
  | unknown
  deriving Repr, DecidableEq

namespace HubModel

/-- The model that a version text speaks of: `x2` anywhere in it wins over everything else. -/
def ofVersion (version : String) : HubModel :=
  let text := (Text.lower (Text.trim version)).toList
  if Text.occurs ['x', '2'] text then .x2
  else if Text.occurs ['x', '1', 's'] text then .x1s
  else if Text.occurs ['x', '1'] text then .x1
  else .unknown

def isSecondGeneration (m : HubModel) : Bool :=
  m == .x2

def name : HubModel → String
  | .x1 => "X1"
  | .x1s => "X1S"
  | .x2 => "X2"
  | .unknown => "Unknown"

end HubModel

inductive ShortcutKind where
  | activityMacro
  | favorite
  deriving Repr, DecidableEq

namespace ShortcutKind

def name : ShortcutKind → String
  | .activityMacro => "macro"
  | .favorite => "favorite"

/-- The attribute that lists the shortcuts of a kind, by activity. -/
def attributeName : ShortcutKind → String
  | .activityMacro => "macro_keys"
  | .favorite => "favorite_keys"

end ShortcutKind

/-- A macro or favourite of an activity. Only a favourite belongs to a device. -/
structure Shortcut where
  kind : ShortcutKind
  label : String
  commandId : Id
  deviceId : Option Id
  deriving Repr, DecidableEq

namespace Shortcut

def ofJson? (kind : ShortcutKind) (item : Json) : Option Shortcut :=
  match (item.member? "id").bind Id.ofJson? with
  | none => none
  | some commandId =>
    some
      { kind
        label := ((item.member? "name").bind Json.str?).getD ("#" ++ Numeral.intText commandId)
        commandId
        deviceId :=
          match kind with
          | .activityMacro => none
          | .favorite => (item.member? "device_id").bind Id.ofJson? }

/-- The shortcuts of a kind that a hub lists for an activity; unusable items are left out. -/
def listed (e : Entity) (activity : Id) (kind : ShortcutKind) : List Shortcut :=
  match ((e.attribute? kind.attributeName).bind
      (·.member? (Numeral.intText activity))).bind Json.arr? with
  | some items => items.filterMap (ofJson? kind)
  | none => []

/-- The shortcuts of an activity, macros first. -/
def ofActivity (e : Entity) (activity : Id) : List Shortcut :=
  listed e activity .activityMacro ++ listed e activity .favorite

end Shortcut

structure HubReport where
  version : String
  model : HubModel
  activityId : Option Id
  activityLabel : String
  /-- The usable commands, as the hub lists them. -/
  commands : List Json
  /-- The id of the activity selector. -/
  selectorId : Option String
  availability : Availability
  loadState : Option String
  /-- Whether the vendor's own app holds the hub. -/
  appConnected : Bool
  shortcuts : List Shortcut
  deriving Repr

namespace HubReport

/-- The report where there is no hub entity. -/
def missing : HubReport where
  version := ""
  model := .unknown
  activityId := none
  activityLabel := ""
  commands := []
  selectorId := none
  availability := .missing
  loadState := none
  appConnected := false
  shortcuts := []

/-- The list under an attribute. A lone value counts as a list of one, so that it is judged and not
lost. -/
def listOf : Option Json → List Json
  | none => []
  | some (.arr items) => items
  | some v => [v]

def ofEntity (e : Entity) : HubReport :=
  let version := (e.text? "hub_version").getD ""
  let activityId := (e.attribute? "current_activity_id").bind Id.ofJson?
  { version
    model := .ofVersion version
    activityId
    activityLabel := (e.text? "current_activity").getD ""
    commands := listOf (e.attribute? "enabled_buttons")
    selectorId := ((e.text? "activity_select_entity_id").map Text.trim).filter (!·.isEmpty)
    availability := Entity.availability (some e)
    loadState := e.text? "load_state"
    appConnected := ((e.attribute? "proxy_client_connected").bind Json.bool?).getD false
    shortcuts :=
      match activityId with
      | some activity => Shortcut.ofActivity e activity
      | none => [] }

def ofEntity? : Option Entity → HubReport
  | some e => ofEntity e
  | none => missing

/-- Whether the hub says that it is busy. -/
def saysBusy (r : HubReport) : Bool :=
  match r.loadState with
  | some s => Text.sameIgnoringCase (Text.trim s) "loading"
  | none => false

end HubReport

structure SelectorReport where
  options : List String
  value : String
  availability : Availability
  deriving Repr, DecidableEq

namespace SelectorReport

def missing : SelectorReport := ⟨[], "", .missing⟩

def ofEntity (e : Entity) : SelectorReport :=
  let availability := Entity.availability (some e)
  { options :=
      match (e.attribute? "options").bind Json.arr? with
      | some items => items.filterMap Json.str?
      | none => []
    value := if availability = .available then e.state else ""
    availability }

def ofEntity? : Option Entity → SelectorReport
  | some e => ofEntity e
  | none => missing

end SelectorReport

/-- Both reports in one: the hub by its id, and the selector that the hub names. -/
def readReports (entities : Dict Entity) (hubId : String) : HubReport × SelectorReport :=
  let hub := HubReport.ofEntity? (entities.get? hubId)
  (hub, SelectorReport.ofEntity? (hub.selectorId.bind (entities.get? ·)))

end HubCard
