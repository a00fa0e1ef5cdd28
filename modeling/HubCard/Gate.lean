import HubCard.Button
import HubCard.Capability
import HubCard.Hub

/-!
Gating: which buttons and shortcuts of the card can be seen and pressed, and where a press of a
shortcut goes.
-/

namespace HubCard

structure ButtonState where
  key : String
  group : Group
  /-- Whether the hub has the button at all. The configuration may hide its group on top of that. -/
  visible : Bool
  enabled : Bool
  deriving Repr, DecidableEq

structure ShortcutState where
  kind : ShortcutKind
  label : String
  visible : Bool
  enabled : Bool
  deriving Repr, DecidableEq

namespace Gate

/-- The names of the activity that stands for a hub switched off. Letters outside ASCII have no
lower-case forms among their letters. -/
def offNames : List String := ["powered off", "powered_off", "off"]

/-- Whether the hub is off: its activity label says so or, where that is blank, the value of its
selector. -/
def isPoweredOff (activityLabel selectorValue : String) : Bool :=
  let label := Text.trim activityLabel
  let name := if label.isEmpty then Text.trim selectorValue else label
  offNames.contains (Text.lower name)

def buttonState (secondGeneration poweredOff : Bool) (capabilities : Capabilities) (b : Button) :
    ButtonState where
  key := b.key
  group := b.group
  visible := !b.secondGeneration || secondGeneration
  enabled := !poweredOff && capabilities.allows b.commandId

/-- The states of all buttons, in their order on the card. -/
def buttons (secondGeneration poweredOff : Bool) (capabilities : Capabilities) :
    List ButtonState :=
  Button.all.map (buttonState secondGeneration poweredOff capabilities)

/-- Hubs do not list shortcuts among their capabilities: only power gates them. -/
def shortcuts (items : List Shortcut) (poweredOff : Bool) (shown : ShortcutKind → Bool) :
    List ShortcutState :=
  items.map fun s => ⟨s.kind, s.label, shown s.kind, !poweredOff⟩

/-- A favourite goes to its own device, if it has one; everything else to the current activity. -/
def shortcutRoute? (s : Shortcut) (activityId : Option Id) : Option Id :=
  match s.kind with
  | .favorite => s.deviceId.or activityId
  | .activityMacro => activityId

end Gate

end HubCard
