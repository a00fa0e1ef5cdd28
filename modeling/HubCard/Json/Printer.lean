import HubCard.Json.Value
import HubCard.Number.Numeral
import HubCard.Number.Shortest

/-!
The compact text of a JSON value: no blanks, members in the order of the dictionary, and escapes
only for quotes, backslashes and the control characters below U+0020.
-/

namespace HubCard.Json

def hexDigit (n : Nat) : Char :=
  if n < 10 then Char.ofNat (48 + n) else Char.ofNat (87 + n)

def escaped (c : Char) : List Char :=
  match c with
  | '"' => ['\\', '"']
  | '\\' => ['\\', '\\']
  | '\x08' => ['\\', 'b']
  | '\t' => ['\\', 't']
  | '\n' => ['\\', 'n']
  | '\x0c' => ['\\', 'f']
  | '\r' => ['\\', 'r']
  | _ =>
    if c.toNat < 32 then ['\\', 'u', '0', '0', hexDigit (c.toNat / 16), hexDigit (c.toNat % 16)]
    else [c]

def stringText (s : String) : String :=
  String.ofList ('"' :: s.toList.flatMap escaped ++ ['"'])

mutual

def render : Json → String
  | .null => "null"
  | .bool true => "true"
  | .bool false => "false"
  | .int n => Numeral.intText n
  | .real x => x.text
  | .str s => stringText s
  | .arr items => "[" ++ renderItems items ++ "]"
  | .obj members => "\x7b" ++ renderMembers members ++ "\x7d"
termination_by structural v => v

def renderItems : List Json → String
  | [] => ""
  | item :: [] => render item
  | item :: rest => render item ++ "," ++ renderItems rest
termination_by structural items => items

def renderMembers : List (String × Json) → String
  | [] => ""
  | member :: [] => renderMember member
  | member :: rest => renderMember member ++ "," ++ renderMembers rest
termination_by structural members => members

def renderMember : String × Json → String
  | (key, value) => stringText key ++ ":" ++ render value
termination_by structural member => member

end

end HubCard.Json
