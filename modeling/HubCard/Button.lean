import HubCard.Id

/-!
The buttons of the card, in their order on it, with the commands they send.
-/

namespace HubCard

inductive Group where
  | dpad
  | nav
  | mid
  | media
  | colors
  | abc
  deriving Repr, DecidableEq

namespace Group

def all : List Group := [.dpad, .nav, .mid, .media, .colors, .abc]

def name : Group → String
  | .dpad => "dpad"
  | .nav => "nav"
  | .mid => "mid"
  | .media => "media"
  | .colors => "colors"
  | .abc => "abc"

end Group

structure Button where
  key : String
  commandId : Id
  /-- Whether only hubs of the second generation know the button. -/
  secondGeneration : Bool
  group : Group
  deriving Repr, DecidableEq

namespace Button

def all : List Button :=
  [⟨"up", 0xAE, false, .dpad⟩, ⟨"down", 0xB2, false, .dpad⟩, ⟨"left", 0xAF, false, .dpad⟩,
    ⟨"right", 0xB1, false, .dpad⟩, ⟨"ok", 0xB0, false, .dpad⟩,
    ⟨"back", 0xB3, false, .nav⟩, ⟨"home", 0xB4, false, .nav⟩, ⟨"menu", 0xB5, false, .nav⟩,
    ⟨"guide", 0x9D, true, .nav⟩, ⟨"exit", 0x9A, true, .nav⟩,
    ⟨"vol_up", 0xB6, false, .mid⟩, ⟨"vol_down", 0xB9, false, .mid⟩, ⟨"mute", 0xB8, false, .mid⟩,
    ⟨"ch_up", 0xB7, false, .mid⟩, ⟨"ch_down", 0xBA, false, .mid⟩,
    ⟨"rew", 0xBB, false, .media⟩, ⟨"play", 0x9C, true, .media⟩, ⟨"pause", 0xBC, false, .media⟩,
    ⟨"fwd", 0xBD, false, .media⟩, ⟨"dvr", 0x9B, true, .media⟩,
    ⟨"red", 0xBE, false, .colors⟩, ⟨"green", 0xBF, false, .colors⟩,
    ⟨"yellow", 0xC0, false, .colors⟩, ⟨"blue", 0xC1, false, .colors⟩,
    ⟨"a", 0x99, true, .abc⟩, ⟨"b", 0x98, true, .abc⟩, ⟨"c", 0x97, true, .abc⟩]

def find? (key : String) : Option Button :=
  all.find? (·.key == key)

end Button

end HubCard
