import HubCard.Json.Value
import HubCard.Number.Numeral
import HubCard.Number.Shortest
import HubCard.Text.Quoted

/-!
Why a JSON text cannot be read, or a value is not of the kind asked for, with the wording of each
cause.
-/

namespace HubCard.Json

/-- What stands where a value is wanted: a scalar in full, or only the kind of a larger value. -/
inductive Found where
  | null
  | bool (b : Bool)
  | int (n : Int)
  | real (x : Double)
  | str (s : String)
  | list
  | object
  /-- The name of a choice that needs a value, without one. -/
  | bareName
  deriving Repr, DecidableEq

def found : Json → Found
  | .null => .null
  | .bool b => .bool b
  | .int n => .int n
  | .real x => .real x
  | .str s => .str s
  | .arr _ => .list
  | .obj _ => .object

inductive Fault where
  | endOfValue
  | endOfString
  | endOfList
  | endOfObject
  | expectedValue
  | expectedWord
  | expectedColon
  | expectedListComma
  | expectedObjectComma
  | keyNotString
  | trailingComma
  | trailingCharacters
  | invalidNumber
  | numberOutOfRange
  | invalidEscape
  | unfinishedSurrogate
  | loneSurrogate
  | controlCharacter
  | tooDeep
  | wrongType (found : Found) (wanted : String)
  | wrongValue (found : Found) (wanted : String)
  | wrongLength (length : Nat) (wanted : String)
  | unknownField (name : String) (known : List String)
  | unknownChoice (name : String) (known : List String)
  | missingField (name : String)
  | duplicateField (name : String)
  deriving Repr, DecidableEq

def Found.describe : Found → String
  | .null => "null"
  | .bool true => "boolean `true`"
  | .bool false => "boolean `false`"
  | .int n => "integer `" ++ Numeral.intText n ++ "`"
  | .real x => "floating point `" ++ x.text ++ "`"
  | .str s => "string " ++ Text.quoted s
  | .list => "sequence"
  | .object => "map"
  | .bareName => "unit variant"

/-- The names a reader would have accepted. -/
def expectedNames (known : List String) : String :=
  let ticked := known.map fun name => "`" ++ name ++ "`"
  match ticked with
  | [] => "there are no fields"
  | [a] => "expected " ++ a
  | [a, b] => "expected " ++ a ++ " or " ++ b
  | _ => "expected one of " ++ ", ".intercalate ticked

def Fault.message : Fault → String
  | .endOfValue => "EOF while parsing a value"
  | .endOfString => "EOF while parsing a string"
  | .endOfList => "EOF while parsing a list"
  | .endOfObject => "EOF while parsing an object"
  | .expectedValue => "expected value"
  | .expectedWord => "expected ident"
  | .expectedColon => "expected `:`"
  | .expectedListComma => "expected `,` or `]`"
  | .expectedObjectComma => "expected `,` or `\x7d`"
  | .keyNotString => "key must be a string"
  | .trailingComma => "trailing comma"
  | .trailingCharacters => "trailing characters"
  | .invalidNumber => "invalid number"
  | .numberOutOfRange => "number out of range"
  | .invalidEscape => "invalid escape"
  | .unfinishedSurrogate => "unexpected end of hex escape"
  | .loneSurrogate => "lone leading surrogate in hex escape"
  | .controlCharacter => "control character (\\u0000-\\u001F) found while parsing a string"
  | .tooDeep => "recursion limit exceeded"
  | .wrongType found wanted => "invalid type: " ++ found.describe ++ ", expected " ++ wanted
  | .wrongValue found wanted => "invalid value: " ++ found.describe ++ ", expected " ++ wanted
  | .wrongLength length wanted =>
    "invalid length " ++ Numeral.natText length ++ ", expected " ++ wanted
  | .unknownField name known => "unknown field `" ++ name ++ "`, " ++ expectedNames known
  | .unknownChoice name known => "unknown variant `" ++ name ++ "`, " ++ expectedNames known
  | .missingField name => "missing field `" ++ name ++ "`"
  | .duplicateField name => "duplicate field `" ++ name ++ "`"

end HubCard.Json
