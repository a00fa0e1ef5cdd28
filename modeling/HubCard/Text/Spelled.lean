import HubCard.Text.Quoted

/-!
Texts as a log shows them: control characters that a terminal acts on are spelt out, so that a text
from elsewhere cannot move the cursor or colour what follows. Tabs and line ends stay.
-/

namespace HubCard.Text

/-- The escape of a character below U+0100 by its two hexadecimal digits. -/
def byteEscape (c : Char) : List Char :=
  let digits := hexDigits c.toNat
  ['\\', 'x'] ++ List.replicate (2 - digits.length) '0' ++ digits

/-- Bell, backspace, form feed, escape and delete are spelt by two digits, the control characters
from U+0080 on by their code point. -/
def spelledChar (c : Char) : List Char :=
  if ['\x07', '\x08', '\x0c', '\x1b', '\x7f'].contains c then byteEscape c
  else if 0x80 ≤ c.toNat ∧ c.toNat ≤ 0x9F then codeEscape c
  else [c]

def spelled (s : String) : String :=
  String.ofList (s.toList.flatMap spelledChar)

end HubCard.Text
