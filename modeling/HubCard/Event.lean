import HubCard.Id

/-!
Events: what a card reports about itself, as records and as lines of a log.
-/

namespace HubCard

/-- Why a press led to no call. -/
inductive SkipReason where
  | unknownKey
  | hidden
  | disabled
  /-- Neither the capabilities nor the current activity name a device. -/
  | noRoute
  deriving Repr, DecidableEq

namespace SkipReason

def name : SkipReason → String
  | .unknownKey => "unknown_key"
  | .hidden => "hidden"
  | .disabled => "disabled"
  | .noRoute => "no_route"

/-- The name in the log. -/
def title : SkipReason → String
  | .unknownKey => "UnknownKey"
  | .hidden => "Hidden"
  | .disabled => "Disabled"
  | .noRoute => "NoRoute"

end SkipReason

inductive Event where
  | started (entity : String)
  | activityRequested (option : String)
  | activityConfirmed (option : String)
  | requestExpired (option revertedTo : String)
  | busyChanged (busy : Bool)
  | loadTimedOut (target : String)
  | capabilitiesMalformed (count : Nat)
  | commandSent (key : String) (commandId device : Id)
  | commandSkipped (key : String) (reason : SkipReason)
  | callFailed (service error : String)
  | themeApplied (theme : Option String) (mutations : Nat)
  deriving Repr, DecidableEq

inductive Level where
  | info
  | warn
  deriving Repr, DecidableEq

def Level.name : Level → String
  | .info => "INFO"
  | .warn => "WARN"

structure LogLine where
  level : Level
  text : String
  deriving Repr, DecidableEq

def LogLine.render (l : LogLine) : String :=
  l.level.name ++ " " ++ l.text

/-- A command id in hexadecimal, at least two digits; a negative one in two's complement. -/
def hexId (n : Id) : String :=
  let digits := (Nat.toDigits 16 (n % UInt64.size).toNat).map Char.toUpper
  "0x" ++ String.ofList (List.replicate (2 - digits.length) '0' ++ digits)

namespace Event

def log : Event → LogLine
  | .started entity => ⟨.info, "START | entity=" ++ entity⟩
  | .activityRequested option => ⟨.info, "ACTIVITY | requested '" ++ option ++ "'"⟩
  | .activityConfirmed option => ⟨.info, "ACTIVITY | confirmed '" ++ option ++ "'"⟩
  | .requestExpired option revertedTo =>
    ⟨.warn, "ACTIVITY | '" ++ option ++ "' expired unconfirmed, showing '" ++ revertedTo ++ "'"⟩
  | .busyChanged busy => ⟨.info, "LOAD | " ++ if busy then "busy" else "idle"⟩
  | .loadTimedOut target => ⟨.warn, "LOAD | safety timeout for '" ++ target ++ "'"⟩
  | .capabilitiesMalformed count =>
    ⟨.warn, "CAPS | " ++ Numeral.natText count ++ " raw entries, none usable; failing open"⟩
  | .commandSent key commandId device =>
    ⟨.info,
      "CMD | " ++ key ++ " (" ++ hexId commandId ++ ") -> " ++ Numeral.intText device⟩
  | .commandSkipped key reason => ⟨.info, "CMD | " ++ key ++ " skipped: " ++ reason.title⟩
  | .callFailed service error => ⟨.warn, "CALL | " ++ service ++ " failed: " ++ error⟩
  | .themeApplied theme mutations =>
    ⟨.info,
      "THEME | " ++ theme.getD "<default>" ++ " (" ++ Numeral.natText mutations ++ " mutations)"⟩

def named (name : String) (fields : List (String × Json)) : Json :=
  .object (("event", .str name) :: fields)

def toJson : Event → Json
  | .started entity => named "started" [("entity", .str entity)]
  | .activityRequested option => named "activity_requested" [("option", .str option)]
  | .activityConfirmed option => named "activity_confirmed" [("option", .str option)]
  | .requestExpired option revertedTo =>
    named "activity_request_expired" [("option", .str option), ("reverted_to", .str revertedTo)]
  | .busyChanged busy => named "loading_changed" [("loading", .bool busy)]
  | .loadTimedOut target => named "activity_load_timed_out" [("target", .str target)]
  | .capabilitiesMalformed count => named "capabilities_malformed" [("raw_entries", .int count)]
  | .commandSent key commandId device =>
    named "command_sent"
      [("key", .str key), ("command_id", .int commandId), ("device", .int device)]
  | .commandSkipped key reason =>
    named "command_skipped" [("key", .str key), ("reason", .str reason.name)]
  | .callFailed service error =>
    named "service_call_failed" [("service", .str service), ("error", .str error)]
  | .themeApplied theme mutations =>
    named "theme_applied" [("theme", .ofText? theme), ("mutations", .int mutations)]

end Event

end HubCard
