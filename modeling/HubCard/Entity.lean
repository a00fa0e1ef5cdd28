import HubCard.Json.Decoder
import HubCard.Text.Blank

/-!
Entities of the dashboard: a state text and a bag of attributes, replaced as a whole by every
update.
-/

namespace HubCard

structure Entity where
  id : String
  state : String
  attributes : Dict Json
  deriving Repr, Inhabited

/-- Whether an entity can be used at the moment. -/
inductive Availability where
  | available
  | unavailable
  | missing
  deriving Repr, DecidableEq

def Availability.name : Availability → String
  | .available => "available"
  | .unavailable => "unavailable"
  | .missing => "missing"

namespace Entity

def record : Json.Record Entity where
  title := "struct EntityState"
  blank := ⟨"", "", Dict.empty⟩
  fields :=
    [Json.Decoder.string.field "entity_id" fun id e => { e with id },
      Json.Decoder.string.field "state" fun state e => { e with state },
      Json.Decoder.json.dict.field "attributes" fun attributes e => { e with attributes }]
  stranger := .ignore
  asList := true

def decoder : Json.Decoder Entity := record.decoder

/-- All the entities the dashboard knows, by their ids. -/
def registry : Json.Decoder (Dict Entity) := decoder.dict

def toJson (e : Entity) : Json :=
  .obj [("attributes", .obj e.attributes), ("entity_id", .str e.id), ("state", .str e.state)]

/-- An attribute that is there and not null. -/
def attribute? (e : Entity) (name : String) : Option Json :=
  (e.attributes.get? name).filter (!·.isNull)

def text? (e : Entity) (name : String) : Option String :=
  (e.attribute? name).bind Json.str?

/-- An entity whose state is `unavailable`, in any case, cannot be reached. -/
def availability : Option Entity → Availability
  | none => .missing
  | some e => if Text.sameIgnoringCase e.state "unavailable" then .unavailable else .available

end Entity

end HubCard
