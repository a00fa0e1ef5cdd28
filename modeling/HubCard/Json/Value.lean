import HubCard.Dict
import HubCard.Number.Double

/-!
JSON values. A number is an integer when its text is an integer literal of 64 bits (unsigned, or
signed below zero), and a `Double` otherwise. The members of an object form a `Dict`.
-/

namespace HubCard

inductive Json where
  | null
  | bool (b : Bool)
  | int (n : Int)
  | real (x : Double)
  | str (s : String)
  | arr (items : List Json)
  | obj (members : List (String × Json))
  deriving Repr, Inhabited

namespace Json

def object (pairs : List (String × Json)) : Json :=
  .obj (Dict.ofList pairs)

def isNull : Json → Bool
  | .null => true
  | _ => false

def bool? : Json → Option Bool
  | .bool b => some b
  | _ => none

def str? : Json → Option String
  | .str s => some s
  | _ => none

def arr? : Json → Option (List Json)
  | .arr items => some items
  | _ => none

/-- The member of an object; other values have none. -/
def member? : Json → String → Option Json
  | .obj members, key => Dict.get? members key
  | _, _ => none

def ofOption : Option Json → Json
  | some v => v
  | none => .null

def ofText? (s : Option String) : Json :=
  ofOption (s.map .str)

def ofInt? (n : Option Int) : Json :=
  ofOption (n.map .int)

def texts (items : List String) : Json :=
  .arr (items.map .str)

end Json

end HubCard
