import HubCard.Text.Printable

/-!
Texts as error messages quote them: in double quotes, with escapes for what would not be seen.
-/

namespace HubCard.Text

/-- The digits of `n` in lower-case hexadecimal, at least one. -/
def hexDigits (n : Nat) : List Char :=
  Nat.toDigits 16 n

/-- The escape of a character by its code point, in braces. -/
def codeEscape (c : Char) : List Char :=
  ['\\', 'u', '\x7b'] ++ hexDigits c.toNat ++ ['\x7d']

def quotedChar (c : Char) : List Char :=
  match c with
  | '\x00' => ['\\', '0']
  | '\t' => ['\\', 't']
  | '\r' => ['\\', 'r']
  | '\n' => ['\\', 'n']
  | '"' => ['\\', '"']
  | '\\' => ['\\', '\\']
  | _ =>
    if isShown c then [c] else codeEscape c

def quoted (s : String) : String :=
  String.ofList ('"' :: s.toList.flatMap quotedChar ++ ['"'])

end HubCard.Text
