import HubCard.Json.Decoder

/-!
Commands: what the user does with the card.
-/

namespace HubCard

inductive Command where
  /-- Picks an option of the activity selector. -/
  | selectActivity (option : String)
  /-- Presses the button with a key. -/
  | pressButton (key : String)
  /-- Presses a shortcut of the current activity, by its position. -/
  | pressShortcut (index : Nat)
  deriving Repr, DecidableEq

namespace Command

def decoder : Json.Decoder Command :=
  Json.Alternative.decoderOf
    [Json.Decoder.string.named "select_activity" .selectActivity,
      Json.Decoder.string.named "press_button" .pressButton,
      Json.Decoder.index.named "press_shortcut" .pressShortcut]

def toJson : Command → Json
  | .selectActivity option => .obj [("select_activity", .str option)]
  | .pressButton key => .obj [("press_button", .str key)]
  | .pressShortcut index => .obj [("press_shortcut", .int index)]

end Command

end HubCard
