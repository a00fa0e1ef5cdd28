import HubCard.Config
import HubCard.Gate

/-!
The view: everything that is needed to draw the card once, and how it is composed.
-/

namespace HubCard

inductive Warning where
  | hubUnavailable
  | hubMissing
  | selectorMissing
  | selectorUnavailable
  /-- The vendor's own app holds the hub, which blocks changes of the activity. -/
  | appConnected
  deriving Repr, DecidableEq

def Warning.name : Warning → String
  | .hubUnavailable => "device_unavailable"
  | .hubMissing => "device_missing"
  | .selectorMissing => "selector_missing"
  | .selectorUnavailable => "selector_unavailable"
  | .appConnected => "app_connected"

structure SelectorView where
  visible : Bool
  enabled : Bool
  options : List String
  shown : String
  deriving Repr, DecidableEq

structure View where
  /-- The groups that the configuration shows or hides. -/
  groups : List (Group × Bool)
  buttons : List ButtonState
  selector : SelectorView
  shortcuts : List ShortcutState
  busy : Bool
  poweredOff : Bool
  warnings : List Warning
  deriving Repr, DecidableEq

namespace View

/-- The warnings about the two entities, in their order on the card. -/
def warningsOf (config : Config) (hub : HubReport) (selector : SelectorReport) : List Warning :=
  let ofHub :=
    match hub.availability with
    | .available => []
    | .unavailable => [.hubUnavailable]
    | .missing => [.hubMissing]
  let ofSelector :=
    if config.showActivity then
      match selector.availability with
      | .available => []
      | .unavailable => [.selectorUnavailable]
      | .missing => [.selectorMissing]
    else []
  ofHub ++ ofSelector ++ if hub.appConnected then [.appConnected] else []

/-- Whether the activity can be changed as far as the two entities go. -/
def selectorUsable (hub : HubReport) (selector : SelectorReport) : Bool :=
  selector.availability == .available && !hub.appConnected

def compose (config : Config) (hub : HubReport) (selector : SelectorReport)
    (buttons : List ButtonState) (shortcuts : List ShortcutState) (shown : String)
    (busy poweredOff : Bool) : View where
  groups := Group.all.map fun g => (g, config.shows g)
  buttons
  selector :=
    { visible := config.showActivity
      enabled := selectorUsable hub selector
      options := selector.options
      shown }
  shortcuts
  busy
  poweredOff
  warnings := warningsOf config hub selector

def button? (v : View) (key : String) : Option ButtonState :=
  v.buttons.find? (·.key == key)

def groupVisible (v : View) (group : Group) : Bool :=
  match v.groups.find? (·.1 == group) with
  | some (_, visible) => visible
  | none => false

/-- Whether a button is drawn: both it and its group must be visible. -/
def buttonShown (v : View) (key : String) : Bool :=
  match v.button? key with
  | some b => b.visible && v.groupVisible b.group
  | none => false

def buttonJson (b : ButtonState) : Json :=
  .obj
    [("enabled", .bool b.enabled), ("group", .str b.group.name), ("key", .str b.key),
      ("visible", .bool b.visible)]

def shortcutJson (s : ShortcutState) : Json :=
  .obj
    [("enabled", .bool s.enabled), ("kind", .str s.kind.name), ("label", .str s.label),
      ("visible", .bool s.visible)]

def selectorJson (s : SelectorView) : Json :=
  .obj
    [("displayed_value", .str s.shown), ("enabled", .bool s.enabled), ("options", .texts s.options),
      ("visible", .bool s.visible)]

def groupsJson (v : View) : Json :=
  .object (v.groups.map fun (g, visible) => (g.name, .bool visible))

def toJson (v : View) : Json :=
  .obj
    [("buttons", .arr (v.buttons.map buttonJson)),
      ("groups", v.groupsJson),
      ("loading", .bool v.busy),
      ("powered_off", .bool v.poweredOff),
      ("selector", selectorJson v.selector),
      ("shortcuts", .arr (v.shortcuts.map shortcutJson)),
      ("warnings", .texts (v.warnings.map Warning.name))]

end View

end HubCard
