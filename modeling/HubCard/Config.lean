import HubCard.Button
import HubCard.Hub
import HubCard.Json.Decoder
import HubCard.Millis

/-!
The configuration of a card: the hub it drives, what it shows and its time constants. Everything but
the hub has a default, and keys that mean nothing are ignored.
-/

namespace HubCard

structure Timing where
  /-- How long an unconfirmed request stays on display. -/
  requestExpiry : Millis
  /-- After this long, loading of an activity counts as over. -/
  loadTimeout : Millis
  /-- How long the card shows as busy after a press. -/
  pulseLength : Millis
  deriving Repr, DecidableEq

structure Color where
  red : UInt8
  green : UInt8
  blue : UInt8
  deriving Repr, DecidableEq

structure Config where
  entity : String
  theme : Option String
  background : Option Color
  showActivity : Bool
  showDpad : Bool
  showNav : Bool
  showMid : Bool
  showMedia : Bool
  showColors : Bool
  showAbc : Bool
  showMacros : Bool
  showFavorites : Bool
  timing : Timing
  deriving Repr, DecidableEq

inductive ConfigError where
  | missingEntity
  | invalidEntity (entity : String)
  | malformed (fault : Json.Fault)
  deriving Repr, DecidableEq

def ConfigError.message : ConfigError → String
  | .missingEntity => "missing required option `entity`"
  | .invalidEntity entity => "invalid entity reference `" ++ entity ++ "`"
  | .malformed fault => "malformed configuration: " ++ fault.message

/-- The message where errors of several sources meet. -/
def ConfigError.fullMessage (e : ConfigError) : String :=
  "config: " ++ e.message

namespace Timing

def standard : Timing := ⟨15000, 60000, 1000⟩

def record : Json.Record Timing where
  title := "struct TimingConfig"
  blank := standard
  fields :=
    [Json.Decoder.word64.field "pending_expiry_ms" fun n t => { t with requestExpiry := n },
      Json.Decoder.word64.field "activity_load_timeout_ms" fun n t => { t with loadTimeout := n },
      Json.Decoder.word64.field "command_pulse_ms" fun n t => { t with pulseLength := n }]
  stranger := .ignore
  asList := true

def decoder : Json.Decoder Timing := record.decoder

def toJson (t : Timing) : Json :=
  .obj
    [("activity_load_timeout_ms", .int t.loadTimeout.toNat),
      ("command_pulse_ms", .int t.pulseLength.toNat),
      ("pending_expiry_ms", .int t.requestExpiry.toNat)]

end Timing

namespace Color

/-- A color is written as the list of its three parts. -/
def decoder : Json.Decoder Color :=
  Json.Decoder.byte.triple.map fun (red, green, blue) => ⟨red, green, blue⟩

def toJson (c : Color) : Json :=
  .arr [.int c.red.toNat, .int c.green.toNat, .int c.blue.toNat]

def css (c : Color) : String :=
  "rgb(" ++ Numeral.natText c.red.toNat ++ ", " ++ Numeral.natText c.green.toNat ++ ", "
    ++ Numeral.natText c.blue.toNat ++ ")"

end Color

namespace Config

/-- The configuration for a hub with every option at its default. -/
def ofEntity (entity : String) : Config where
  entity := entity
  theme := none
  background := none
  showActivity := true
  showDpad := true
  showNav := true
  showMid := true
  showMedia := true
  showColors := true
  showAbc := true
  showMacros := true
  showFavorites := true
  timing := .standard

def record : Json.Record Config where
  title := "struct CardConfig"
  blank := ofEntity ""
  fields :=
    [Json.Decoder.string.field "entity" fun entity c => { c with entity },
      Json.Decoder.string.option.field "theme" fun theme c => { c with theme },
      Color.decoder.option.field "background_override" fun background c => { c with background },
      Json.Decoder.bool.field "show_activity" fun b c => { c with showActivity := b },
      Json.Decoder.bool.field "show_dpad" fun b c => { c with showDpad := b },
      Json.Decoder.bool.field "show_nav" fun b c => { c with showNav := b },
      Json.Decoder.bool.field "show_mid" fun b c => { c with showMid := b },
      Json.Decoder.bool.field "show_media" fun b c => { c with showMedia := b },
      Json.Decoder.bool.field "show_colors" fun b c => { c with showColors := b },
      Json.Decoder.bool.field "show_abc" fun b c => { c with showAbc := b },
      Json.Decoder.bool.field "show_macros" fun b c => { c with showMacros := b },
      Json.Decoder.bool.field "show_favorites" fun b c => { c with showFavorites := b },
      Timing.decoder.field "timing" fun timing c => { c with timing }]
  stranger := .ignore
  asList := true

def toJson (c : Config) : Json :=
  .obj
    [("background_override", .ofOption (c.background.map Color.toJson)),
      ("entity", .str c.entity),
      ("show_abc", .bool c.showAbc),
      ("show_activity", .bool c.showActivity),
      ("show_colors", .bool c.showColors),
      ("show_dpad", .bool c.showDpad),
      ("show_favorites", .bool c.showFavorites),
      ("show_macros", .bool c.showMacros),
      ("show_media", .bool c.showMedia),
      ("show_mid", .bool c.showMid),
      ("show_nav", .bool c.showNav),
      ("theme", .ofText? c.theme),
      ("timing", c.timing.toJson)]

/-- A domain and a name with a point between them, neither of them empty. -/
def isReference (entity : String) : Bool :=
  match entity.toList.span (· ≠ '.') with
  | (_ :: _, '.' :: _ :: _) => true
  | _ => false

/-- Refuses a configuration that names no hub. -/
def validate (c : Config) : Except ConfigError Unit :=
  if c.entity.isEmpty then .error .missingEntity
  else if isReference c.entity then .ok ()
  else .error (.invalidEntity c.entity)

/-- The configuration that a value describes, its entity trimmed and checked. -/
def ofJson (v : Json) : Except ConfigError Config :=
  match record.decoder.ofJson v with
  | .error fault => .error (.malformed fault)
  | .ok c => do
    let c := { c with entity := Text.trim c.entity }
    c.validate
    .ok c

def ofText (text : String) : Except ConfigError Config :=
  match Json.parse text with
  | .error fault => .error (.malformed fault)
  | .ok v => ofJson v

def shows (c : Config) : Group → Bool
  | .dpad => c.showDpad
  | .nav => c.showNav
  | .mid => c.showMid
  | .media => c.showMedia
  | .colors => c.showColors
  | .abc => c.showAbc

def showsShortcut (c : Config) : ShortcutKind → Bool
  | .activityMacro => c.showMacros
  | .favorite => c.showFavorites

/-- The configured background as a CSS color. -/
def backgroundCss (c : Config) : Option String :=
  c.background.map Color.css

end Config

end HubCard
