import HubCard.Json.Decoder
import HubCard.Text.Blank

/-!
Themes: named variables of the dashboard, with overlays for its light and its dark mode.
-/

namespace HubCard

/-- The overlays of a theme. -/
structure Modes where
  light : Dict Json
  dark : Dict Json
  deriving Repr

structure Theme where
  modes : Option Modes
  vars : Dict Json
  deriving Repr

namespace Modes

def record : Json.Record Modes where
  title := "struct ThemeModes"
  blank := ⟨Dict.empty, Dict.empty⟩
  fields :=
    [Json.Decoder.json.dict.field "light" fun light m => { m with light },
      Json.Decoder.json.dict.field "dark" fun dark m => { m with dark }]
  stranger := .ignore
  asList := true

def toJson (m : Modes) : Json :=
  .obj [("dark", .obj m.dark), ("light", .obj m.light)]

end Modes

namespace Theme

/-- Every key of a theme but `modes` is a variable. -/
def record : Json.Record Theme where
  title := "struct ThemeDefinition"
  blank := ⟨none, Dict.empty⟩
  fields := [Modes.record.decoder.option.field "modes" fun modes t => { t with modes }]
  stranger := .keep fun name v t => { t with vars := t.vars.insert name v }
  asList := false

def decoder : Json.Decoder Theme := record.decoder

/-- The themes of the dashboard, by their names. -/
def registry : Json.Decoder (Dict Theme) := decoder.dict

def toJson (t : Theme) : Json :=
  match t.modes with
  | some modes => .obj (t.vars.insert "modes" modes.toJson)
  | none => .obj t.vars

/-- The text of a value in a style sheet. Only texts that are not blank and numbers have one. -/
def css? : Json → Option String
  | .str s => if Text.isBlankText s then none else some (Text.trim s)
  | .int n => some (Numeral.intText n)
  | .real x => some x.text
  | _ => none

def overlay (t : Theme) (dark : Bool) : Dict Json :=
  match t.modes with
  | some modes => if dark then modes.dark else modes.light
  | none => Dict.empty

/-- The usable variables of a dictionary. -/
def usable (vars : Dict Json) : List (String × String) :=
  vars.filterMap fun (name, v) => (css? v).map (name, ·)

/-- The variables in a mode. Those of the overlay come second, and so win. -/
def resolve (t : Theme) (dark : Bool) : Dict String :=
  Dict.ofList (usable t.vars ++ usable (t.overlay dark))

end Theme

end HubCard
