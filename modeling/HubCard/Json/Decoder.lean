import HubCard.Json.Reader

/-!
Decoders of typed values. A decoder works in two ways: straight from text, in the order of the text
and up to the first fault, and from a JSON value that has been read before. The two ways differ
where they must: text can repeat a field, a value cannot, and each has its own wording for a list
that is too long and for a choice that is no choice.
-/

namespace HubCard.Json

structure Decoder (α : Type) where
  /-- Reads from text in which at most the given number of lists and objects may still be opened. -/
  read : Nat → List Char → Except Fault (α × List Char)
  ofJson : Json → Except Fault α

namespace Decoder

variable {α β : Type}

def map (f : α → β) (d : Decoder α) : Decoder β where
  read depth s := (d.read depth s).map fun (v, rest) => (f v, rest)
  ofJson v := (d.ofJson v).map f

/-- The value that fills a whole text. -/
def ofText (d : Decoder α) (text : String) : Except Fault α := do
  let (v, rest) ← d.read maxDepth text.toList
  nothingElse rest
  .ok v

/-! ## Scalars -/

/-- A value that is known from its first token. -/
def scalar (accept : Found → Except Fault α) : Decoder α where
  read _ s := do
    let (found, rest) ← head s
    .ok (← accept found, rest)
  ofJson v := accept v.found

def string : Decoder String :=
  scalar fun
    | .str s => .ok s
    | found => .error (.wrongType found "a string")

def bool : Decoder Bool :=
  scalar fun
    | .bool b => .ok b
    | found => .error (.wrongType found "a boolean")

/-- An integer from zero up to, and without, `bound`. -/
def natural (bound : Nat) (wanted : String) (ofNat : Nat → α) : Decoder α :=
  scalar fun
    | .int n =>
      if 0 ≤ n ∧ n < bound then .ok (ofNat n.toNat) else .error (.wrongValue (.int n) wanted)
    | found => .error (.wrongType found wanted)

def word64 : Decoder UInt64 := natural UInt64.size "u64" .ofNat

def byte : Decoder UInt8 := natural UInt8.size "u8" .ofNat

/-- A position in a list. -/
def index : Decoder Nat := natural UInt64.size "usize" id

/-- Any JSON value. -/
def json : Decoder Json where
  read := value
  ofJson := .ok

/-- A value, or `null` for none. -/
def option (d : Decoder α) : Decoder (Option α) where
  read depth s :=
    match skipSpace s with
    | 'n' :: rest => (Json.word "ull".toList rest).map (none, ·)
    | s => (d.read depth s).map fun (v, rest) => (some v, rest)
  ofJson
    | .null => .ok none
    | v => (d.ofJson v).map some

/-! ## Lists of three and dictionaries -/

def tripleTitle : String := "an array of length 3"

def tripleItem (d : Decoder α) (depth position : Nat) (s : List Char) :
    Except Fault (α × List Char) := do
  let (more, rest) ← hasItem (position == 0) s
  if more then d.read depth rest else .error (.wrongLength position tripleTitle)

/-- A list of exactly three items. -/
def triple (d : Decoder α) : Decoder (α × α × α) where
  read depth s := do
    match ← head s with
    | (.list, rest) => do
      let depth ← enter depth
      let (a, rest) ← d.tripleItem depth 0 rest
      let (b, rest) ← d.tripleItem depth 1 rest
      let (c, rest) ← d.tripleItem depth 2 rest
      .ok ((a, b, c), ← listEnd rest)
    | (found, _) => .error (.wrongType found tripleTitle)
  ofJson
    | .arr (a :: b :: c :: rest) => do
      let abc := (← d.ofJson a, ← d.ofJson b, ← d.ofJson c)
      if rest.isEmpty then .ok abc
      else .error (.wrongLength (rest.length + 3) "fewer elements in array")
    | .arr items => do
      let _ ← items.mapM d.ofJson
      .error (.wrongLength items.length tripleTitle)
    | v => .error (.wrongType v.found tripleTitle)

def readEntries (d : Decoder α) (depth : Nat) :
    Nat → Bool → Dict α → List Char → Except Fault (Dict α × List Char)
  | 0, _, _, _ => .error .tooDeep
  | fuel + 1, first, entries, s => do
    match ← nextKey first s with
    | (none, rest) => .ok (entries, rest)
    | (some key, rest) => do
      let (v, rest) ← d.read depth (← colon rest)
      d.readEntries depth fuel false (entries.insert key v) rest

/-- An object with values of one kind; of two values for a key the later one stays. -/
def dict (d : Decoder α) : Decoder (Dict α) where
  read depth s := do
    match ← head s with
    | (.object, rest) => d.readEntries (← enter depth) (rest.length + 1) true Dict.empty rest
    | (found, _) => .error (.wrongType found "a map")
  ofJson
    | .obj members => do
      let entries ← members.mapM fun (key, v) => do .ok (key, ← d.ofJson v)
      .ok (Dict.ofList entries)
    | v => .error (.wrongType v.found "a map")

end Decoder

/-! ## Records -/

/-- A field of a record: how it is decoded into a change of the record. -/
structure Field (σ : Type) where
  name : String
  required : Bool
  read : Nat → List Char → Except Fault ((σ → σ) × List Char)
  ofJson : Json → Except Fault (σ → σ)

/-- A field with a default, the value that the blank record has. -/
def Decoder.field {α σ : Type} (d : Decoder α) (name : String) (put : α → σ → σ) : Field σ where
  name := name
  required := false
  read depth s := (d.read depth s).map fun (v, rest) => (put v, rest)
  ofJson v := (d.ofJson v).map put

def Field.require {σ : Type} (f : Field σ) : Field σ :=
  { f with required := true }

/-- What becomes of a key that names no field. -/
inductive Stranger (σ : Type) where
  | ignore
  | refuse
  | keep (put : String → Json → σ → σ)

/-- A record: an object with named fields, in any order. Where `asList` is set, a list of the
fields in their declared order will do as well. -/
structure Record (σ : Type) where
  title : String
  blank : σ
  fields : List (Field σ)
  stranger : Stranger σ
  asList : Bool

namespace Record

variable {σ : Type}

def field? (r : Record σ) (name : String) : Option (Field σ) :=
  r.fields.find? (·.name == name)

def names (r : Record σ) : List String :=
  r.fields.map (·.name)

/-- The record, once all its members have been seen. -/
def finish (r : Record σ) (seen : List String) (record : σ) : Except Fault σ :=
  match r.fields.find? fun f => f.required && !seen.contains f.name with
  | some f => .error (.missingField f.name)
  | none => .ok record

def readMembers (r : Record σ) (depth : Nat) :
    Nat → Bool → List String → σ → List Char → Except Fault (σ × List Char)
  | 0, _, _, _, _ => .error .tooDeep
  | fuel + 1, first, seen, record, s => do
    match ← nextKey first s with
    | (none, rest) => .ok (← r.finish seen record, rest)
    | (some key, rest) =>
      match r.field? key with
      | some f =>
        if seen.contains key then .error (.duplicateField key)
        else do
          let (put, rest) ← f.read depth (← colon rest)
          r.readMembers depth fuel false (key :: seen) (put record) rest
      | none =>
        match r.stranger with
        | .ignore => do
          r.readMembers depth fuel false seen record (← skip (← colon rest))
        | .refuse => .error (.unknownField key r.names)
        | .keep put => do
          let (v, rest) ← value depth (← colon rest)
          r.readMembers depth fuel false seen (put key v record) rest

def ofMembers (r : Record σ) : List (String × Json) → List String → σ → Except Fault σ
  | [], seen, record => r.finish seen record
  | (key, v) :: members, seen, record =>
    match r.field? key with
    | some f => do r.ofMembers members (key :: seen) ((← f.ofJson v) record)
    | none =>
      match r.stranger with
      | .ignore => r.ofMembers members seen record
      | .refuse => .error (.unknownField key r.names)
      | .keep put => r.ofMembers members seen (put key v record)

/-- The fault of a list that ends where the field at a position is still to come. -/
def cutShort (r : Record σ) (position : Nat) : Fault :=
  .wrongLength position
    (r.title ++ " with " ++ Numeral.natText r.fields.length ++ " elements")

/-- The record, once its list has ended before the given fields. -/
def finishList (r : Record σ) (left : List (Field σ)) (record : σ) : Except Fault σ :=
  match left.findIdx? (·.required) with
  | some i => .error (r.cutShort (r.fields.length - left.length + i))
  | none => .ok record

def readItems (r : Record σ) (depth : Nat) :
    List (Field σ) → Bool → σ → List Char → Except Fault (σ × List Char)
  | [], _, record, s => do .ok (record, ← listEnd s)
  | f :: left, first, record, s => do
    let (more, rest) ← hasItem first s
    if more then do
      let (put, rest) ← f.read depth rest
      r.readItems depth left false (put record) rest
    else do
      let record ← r.finishList (f :: left) record
      .ok (record, ← listEnd rest)

def ofItems (r : Record σ) (length : Nat) : List (Field σ) → List Json → σ → Except Fault σ
  | [], [], record => .ok record
  | [], _ :: _, _ => .error (.wrongLength length "fewer elements in array")
  | f :: left, [], record => r.finishList (f :: left) record
  | f :: left, v :: items, record => do
    r.ofItems length left items ((← f.ofJson v) record)

def decoder (r : Record σ) : Decoder σ where
  read depth s := do
    match ← head s with
    | (.object, rest) => r.readMembers (← enter depth) (rest.length + 1) true [] r.blank rest
    | (found, rest) =>
      if r.asList ∧ found = .list then
        r.readItems (← enter depth) r.fields true r.blank rest
      else .error (.wrongType found r.title)
  ofJson v :=
    match v with
    | .obj members => r.ofMembers members [] r.blank
    | .arr items =>
      if r.asList then r.ofItems items.length r.fields items r.blank
      else .error (.wrongType v.found r.title)
    | _ => .error (.wrongType v.found r.title)

end Record

/-! ## Choices -/

/-- One of the named alternatives of a choice, and how its value is decoded. -/
structure Alternative (α : Type) where
  name : String
  decoder : Decoder α

def Decoder.named {α β : Type} (d : Decoder β) (name : String) (ofValue : β → α) :
    Alternative α where
  name := name
  decoder := d.map ofValue

namespace Alternative

variable {α : Type}

def select (choices : List (Alternative α)) (name : String) : Except Fault (Alternative α) :=
  match choices.find? (·.name == name) with
  | some choice => .ok choice
  | none => .error (.unknownChoice name (choices.map (·.name)))

/-- The fault of a name alone, where every alternative needs a value. -/
def bareName (choices : List (Alternative α)) (name : String) : Fault :=
  match select choices name with
  | .ok _ => .wrongType .bareName "newtype variant"
  | .error fault => fault

/-- The name in front of the value, the only key of its object. -/
def readName (s : List Char) : Except Fault (String × List Char) :=
  match skipSpace s with
  | [] => .error .endOfObject
  | '"' :: rest => Json.string rest
  | '}' :: _ => .error .expectedValue
  | _ => .error .keyNotString

/-- The closing bracket after the only member. -/
def closeOnly (s : List Char) : Except Fault (List Char) :=
  match skipSpace s with
  | [] => .error .endOfObject
  | '}' :: rest => .ok rest
  | _ => .error .expectedValue

/-- An object with one key, the name of an alternative, and its value. -/
def decoderOf (choices : List (Alternative α)) : Decoder α where
  read depth s :=
    match skipSpace s with
    | [] => .error .endOfValue
    | '"' :: rest => do
      let (name, _) ← Json.string rest
      .error (bareName choices name)
    | '{' :: rest => do
      let depth ← enter depth
      let (name, rest) ← readName rest
      let choice ← select choices name
      let (v, rest) ← choice.decoder.read depth (← colon rest)
      .ok (v, ← closeOnly rest)
    | _ => .error .expectedValue
  ofJson
    | .str name => .error (bareName choices name)
    | .obj [(name, v)] => do (← select choices name).decoder.ofJson v
    | .obj _ => .error (.wrongValue .object "map with a single key")
    | v => .error (.wrongType v.found "string or map")

end Alternative

end HubCard.Json
