import HubCard.Theme

/-!
Painting a theme onto the style of the card. The painter works only when the theme, the forced
background or the mode has changed since the last time; it then takes back the properties it had
set and sets those of the new theme.
-/

namespace HubCard

/-- One change of the style. -/
inductive Mutation where
  | set (name value : String)
  | remove (name : String)
  deriving Repr, DecidableEq

namespace Mutation

def run (style : Dict String) : Mutation → Dict String
  | .set name value => style.insert name value
  | .remove name => style.erase name

def runAll (style : Dict String) (mutations : List Mutation) : Dict String :=
  mutations.foldl run style

end Mutation

/-- What a painting depends on. -/
structure PaintKey where
  theme : Option String
  background : Option String
  dark : Bool
  deriving Repr, DecidableEq

structure Painter where
  lastKey : Option PaintKey
  /-- The properties that the next painting takes back. -/
  applied : Dict Unit
  /-- The background that is forced onto the card. -/
  background : Option String
  deriving Repr, DecidableEq

namespace Painter

def new : Painter := ⟨none, Dict.empty, none⟩

/-- The variables that may give the background, the first one first. -/
def backgroundVariables : List String := ["ha-card-background", "card-background-color"]

/-- The custom properties that the background is forced onto. -/
def forcedCustom : List String := ["--ha-card-background", "--card-background-color"]

/-- The plain properties that the background is forced onto. -/
def forcedPlain : List String := ["background", "background-color"]

/-- The custom property of a variable: its name, with two dashes in front. -/
def propertyName (name : String) : String :=
  if ['-', '-'].isPrefixOf name.toList then name else "--" ++ name

/-- The variables of the theme with a name; a theme nobody knows has none. -/
def variablesOf (themes : Dict Theme) (key : PaintKey) : Dict String :=
  match key.theme.bind (themes.get? ·) with
  | some theme => theme.resolve key.dark
  | none => Dict.empty

def backgroundOf (key : PaintKey) (vars : Dict String) : Option String :=
  key.background.or (backgroundVariables.findSome? (vars.get? ·))

def setVariables (vars : Dict String) : List Mutation :=
  vars.map fun (name, value) => .set (propertyName name) value

def forceBackground : Option String → List Mutation
  | some color => (forcedCustom ++ forcedPlain).map (.set · color)
  | none => forcedPlain.map .remove

/-- How many changes it takes to force the background. -/
def forcedCount : Option String → Nat
  | some _ => forcedCustom.length + forcedPlain.length
  | none => forcedPlain.length

/-- The properties that a painting leaves to be taken back by the next one. -/
def appliedBy (vars : Dict String) (background : Option String) : Dict Unit :=
  let names := vars.keys.map propertyName
  let forced := if background.isSome then forcedCustom else []
  Dict.ofList ((names ++ forced).map (·, ()))

/-- Paints the theme of a key. Gives the changes of the style in their order, and their number: one
for each property taken back, one for each variable, and those of the background. -/
def paint (p : Painter) (themes : Dict Theme) (key : PaintKey) : Painter × List Mutation × Nat :=
  if p.lastKey = some key then (p, [], 0)
  else
    let vars := variablesOf themes key
    let background := backgroundOf key vars
    (⟨some key, appliedBy vars background, background⟩,
      p.applied.keys.map .remove ++ setVariables vars ++ forceBackground background,
      p.applied.length + vars.length + forcedCount background)

end Painter

end HubCard
