import HubCard.Json.Fault

/-!
Reading JSON text from the front. A reader takes the characters that are left and gives a result
with the characters after it, or the first fault it meets. `value` reads a whole value; `skip`
passes over one, which is more lenient: a skipped value may be nested without limit, hold numbers
of any size and halves of surrogate pairs.
-/

namespace HubCard.Json

/-- How many lists and objects may be open at once. -/
def maxDepth : Nat := 127

/-- The largest integer of 64 unsigned bits. -/
def maxWord : Nat := UInt64.size - 1

def isSpace (c : Char) : Bool :=
  c = ' ' || c = '\n' || c = '\t' || c = '\r'

def skipSpace (s : List Char) : List Char :=
  s.dropWhile isSpace

/-- Passes over the letters of a word, one by one. -/
def word : List Char → List Char → Except Fault (List Char)
  | [], s => .ok s
  | _ :: _, [] => .error .endOfValue
  | w :: letters, c :: s => if c = w then word letters s else .error .expectedWord

/-! ## Strings -/

inductive Piece where
  | closing
  | char (c : Char)
  deriving Repr, DecidableEq

/-- Four hexadecimal digits. Where fewer than four bytes are left, the string has no end. -/
def hexEscape : List Char → Except Fault (Nat × List Char)
  | a :: b :: c :: d :: rest =>
    match Numeral.digits? 16 [a, b, c, d] with
    | some n => .ok (n, rest)
    | none => .error .invalidEscape
  | s => if 4 ≤ (String.ofList s).utf8ByteSize then .error .invalidEscape else .error .endOfString

def isHighSurrogate (n : Nat) : Bool := 0xD800 ≤ n && n ≤ 0xDBFF

def isLowSurrogate (n : Nat) : Bool := 0xDC00 ≤ n && n ≤ 0xDFFF

/-- The second half of a surrogate pair, which must follow at once. -/
def lowSurrogate : List Char → Except Fault (Nat × List Char)
  | [] | ['\\'] => .error .endOfString
  | '\\' :: 'u' :: rest => do
    let (n, rest) ← hexEscape rest
    if isLowSurrogate n then .ok (n, rest) else .error .loneSurrogate
  | _ => .error .unfinishedSurrogate

def unicodeEscape (s : List Char) : Except Fault (Char × List Char) := do
  let (n, rest) ← hexEscape s
  if isLowSurrogate n then .error .loneSurrogate
  else if isHighSurrogate n then do
    let (m, rest) ← lowSurrogate rest
    .ok (Char.ofNat (0x10000 + (n - 0xD800) * 0x400 + (m - 0xDC00)), rest)
  else .ok (Char.ofNat n, rest)

/-- The character that a one-letter escape stands for. -/
def shortEscape? : Char → Option Char
  | '"' => some '"'
  | '\\' => some '\\'
  | '/' => some '/'
  | 'b' => some '\x08'
  | 'f' => some '\x0c'
  | 'n' => some '\n'
  | 'r' => some '\r'
  | 't' => some '\t'
  | _ => none

/-- The next character of a string, or its closing quote. -/
def piece : List Char → Except Fault (Piece × List Char)
  | [] | ['\\'] => .error .endOfString
  | '"' :: rest => .ok (.closing, rest)
  | '\\' :: 'u' :: rest => do
    let (c, rest) ← unicodeEscape rest
    .ok (.char c, rest)
  | '\\' :: c :: rest =>
    match shortEscape? c with
    | some d => .ok (.char d, rest)
    | none => .error .invalidEscape
  | c :: rest => if c.toNat < 32 then .error .controlCharacter else .ok (.char c, rest)

/-- As `piece`, where a half of a surrogate pair passes for a character. -/
def skipPiece : List Char → Except Fault (Piece × List Char)
  | '\\' :: 'u' :: rest => do
    let (_, rest) ← hexEscape rest
    .ok (.char 'u', rest)
  | s => piece s

def pieces (next : List Char → Except Fault (Piece × List Char)) :
    Nat → List Char → List Char → Except Fault (String × List Char)
  | 0, _, _ => .error .endOfString
  | fuel + 1, read, s => do
    match ← next s with
    | (.closing, rest) => .ok (String.ofList read.reverse, rest)
    | (.char c, rest) => pieces next fuel (c :: read) rest

/-- The string whose opening quote has been read. -/
def string (s : List Char) : Except Fault (String × List Char) :=
  pieces piece (s.length + 1) [] s

def skipString (s : List Char) : Except Fault (List Char) := do
  let (_, rest) ← pieces skipPiece (s.length + 1) [] s
  .ok rest

/-! ## Numbers -/

/-- The parts of a number literal. The fraction and the exponent are absent or have digits. -/
structure Literal where
  negative : Bool
  whole : List Char
  fraction : List Char
  exponent : Option Int
  deriving Repr

/-- The digits at the front, at least one of them. -/
def someDigits (atEnd : Fault) (s : List Char) : Except Fault (List Char × List Char) :=
  match s.span Char.isDigit with
  | ([], []) => .error atEnd
  | ([], _ :: _) => .error .invalidNumber
  | split => .ok split

def wholeDigits (atEnd : Fault) (s : List Char) : Except Fault (List Char × List Char) :=
  match s with
  | '0' :: c :: rest =>
    if c.isDigit then .error .invalidNumber else .ok (['0'], c :: rest)
  | _ => someDigits atEnd s

def fractionDigits (atEnd : Fault) : List Char → Except Fault (List Char × List Char)
  | '.' :: rest => someDigits atEnd rest
  | s => .ok ([], s)

def exponentPart (atEnd : Fault) (s : List Char) : Except Fault (Option Int × List Char) :=
  match s with
  | c :: rest =>
    if c = 'e' ∨ c = 'E' then do
      let (negative, rest) := Numeral.splitSign rest
      let (digits, rest) ← someDigits atEnd rest
      .ok ((Numeral.digits? 10 digits).map (Numeral.withSign negative), rest)
    else .ok (none, s)
  | [] => .ok (none, s)

/-- A number literal; `atEnd` is the fault where the text stops short inside it. -/
def literal (atEnd : Fault) (s : List Char) : Except Fault (Literal × List Char) := do
  let (negative, rest) :=
    match s with
    | '-' :: rest => (true, rest)
    | _ => (false, s)
  let (whole, rest) ← wholeDigits atEnd rest
  let (fraction, rest) ← fractionDigits atEnd rest
  let (exponent, rest) ← exponentPart atEnd rest
  .ok (⟨negative, whole, fraction, exponent⟩, rest)

/-- Reads digits on from `value` as long as it fits in 64 bits, and gives the digits left over. -/
def gather (value : Nat) : List Char → Nat × List Char
  | [] => (value, [])
  | c :: rest =>
    let next := 10 * value + (c.toNat - 48)
    if next ≤ maxWord then gather next rest else (value, c :: rest)

def powerOfTen (n : Nat) : Double :=
  ⟨false, Double.nearest (Double.tenTo n * Double.one) 1⟩

/-- `x / 10 ^ n`, in divisions by at most 10³⁰⁸ that are rounded each. -/
def scaleDown (x : Double) (n : Nat) : Double :=
  if n ≤ 308 then x.div (powerOfTen n)
  else if x.isZero then x
  else scaleDown (x.div (powerOfTen 308)) (n - 308)
termination_by n

/-- `x · 10 ^ n`, rounded, unless it leaves the format. -/
def scaleUp? (x : Double) (n : Nat) : Option Double :=
  if n ≤ 308 then x.mul? (powerOfTen n)
  else if x.isZero then some x
  else none

/-- The number a literal stands for when it is no integer of 64 bits: the leading digits that fit in
64 bits are rounded to a `Double` and then scaled by the power of ten. -/
def Literal.real? (l : Literal) : Option Double :=
  let (significand, dropped) := gather 0 l.whole
  let (significand, left) := gather significand l.fraction
  let exponent : Int :=
    dropped.length - (l.fraction.length - left.length : Nat) + l.exponent.getD 0
  let start : Double := ⟨false, Double.nearest (significand * Double.one) 1⟩
  let scaled :=
    if 0 ≤ exponent then scaleUp? start exponent.toNat
    else some (scaleDown start (-exponent).toNat)
  scaled.map fun x => { x with negative := l.negative }

/-- The integer a literal stands for: one without fraction and exponent, unsigned of 64 bits, or
signed of 64 bits when below zero. Minus zero is none. -/
def Literal.int? (l : Literal) : Option Int :=
  if l.fraction.isEmpty ∧ l.exponent.isNone then
    match gather 0 l.whole with
    | (n, []) =>
      if l.negative then (if n = 0 then none else Numeral.ifFits (-n))
      else some n
    | _ => none
  else none

def number (s : List Char) : Except Fault (Found × List Char) := do
  let (l, rest) ← literal .endOfValue s
  match l.int? with
  | some n => .ok (.int n, rest)
  | none =>
    match l.real? with
    | some x => .ok (.real x, rest)
    | none => .error .numberOutOfRange

/-! ## Values -/

/-- How a value begins: a scalar in full, or the bracket that opens a list or an object. -/
def head (s : List Char) : Except Fault (Found × List Char) :=
  match skipSpace s with
  | [] => .error .endOfValue
  | 'n' :: rest => (word "ull".toList rest).map (.null, ·)
  | 't' :: rest => (word "rue".toList rest).map (.bool true, ·)
  | 'f' :: rest => (word "alse".toList rest).map (.bool false, ·)
  | '"' :: rest => (string rest).map fun (s, rest) => (.str s, rest)
  | '[' :: rest => .ok (.list, rest)
  | '{' :: rest => .ok (.object, rest)
  | c :: rest => if c = '-' ∨ c.isDigit then number (c :: rest) else .error .expectedValue

def enter : Nat → Except Fault Nat
  | 0 => .error .tooDeep
  | depth + 1 => .ok depth

/-- Whether a list goes on with an item, at its start or after an item. A comma that leads on to an
item is passed over, a closing bracket is not. -/
def hasItem (first : Bool) (s : List Char) : Except Fault (Bool × List Char) :=
  match skipSpace s with
  | [] => .error .endOfList
  | ']' :: rest => .ok (false, ']' :: rest)
  | c :: rest =>
    if first then .ok (true, c :: rest)
    else if c = ',' then
      match skipSpace rest with
      | [] => .error .endOfValue
      | ']' :: _ => .error .trailingComma
      | rest => .ok (true, rest)
    else .error .expectedListComma

/-- The closing bracket of a list from which nothing more is wanted. -/
def listEnd (s : List Char) : Except Fault (List Char) :=
  match skipSpace s with
  | [] => .error .endOfList
  | ']' :: rest => .ok rest
  | ',' :: rest =>
    match skipSpace rest with
    | ']' :: _ => .error .trailingComma
    | _ => .error .trailingCharacters
  | _ => .error .trailingCharacters

/-- The next key of an object, or the rest after its closing bracket. -/
def nextKey (first : Bool) (s : List Char) : Except Fault (Option String × List Char) :=
  match skipSpace s with
  | [] => .error .endOfObject
  | '}' :: rest => .ok (none, rest)
  | c :: rest =>
    if first then
      if c = '"' then (string rest).map fun (key, rest) => (some key, rest)
      else .error .keyNotString
    else if c = ',' then
      match skipSpace rest with
      | [] => .error .endOfValue
      | '"' :: rest => (string rest).map fun (key, rest) => (some key, rest)
      | '}' :: _ => .error .trailingComma
      | _ => .error .keyNotString
    else .error .expectedObjectComma

def colon (s : List Char) : Except Fault (List Char) :=
  match skipSpace s with
  | [] => .error .endOfObject
  | ':' :: rest => .ok rest
  | _ => .error .expectedColon

mutual

/-- A value in which at most `depth` lists and objects are open at once. -/
def valueWithin : Nat → Nat → List Char → Except Fault (Json × List Char)
  | 0, _, _ => .error .tooDeep
  | fuel + 1, depth, s => do
    match ← head s with
    | (.null, rest) => .ok (.null, rest)
    | (.bool b, rest) => .ok (.bool b, rest)
    | (.int n, rest) => .ok (.int n, rest)
    | (.real x, rest) => .ok (.real x, rest)
    | (.str s, rest) => .ok (.str s, rest)
    | (.list, rest) => itemsWithin fuel (← enter depth) true [] rest
    | (.object, rest) => membersWithin fuel (← enter depth) true Dict.empty rest
    | (.bareName, _) => .error .expectedValue

def itemsWithin : Nat → Nat → Bool → List Json → List Char → Except Fault (Json × List Char)
  | 0, _, _, _, _ => .error .tooDeep
  | fuel + 1, depth, first, items, s => do
    let (more, rest) ← hasItem first s
    if more then do
      let (item, rest) ← valueWithin fuel depth rest
      itemsWithin fuel depth false (item :: items) rest
    else .ok (.arr items.reverse, ← listEnd rest)

def membersWithin : Nat → Nat → Bool → Dict Json → List Char → Except Fault (Json × List Char)
  | 0, _, _, _, _ => .error .tooDeep
  | fuel + 1, depth, first, members, s => do
    match ← nextKey first s with
    | (none, rest) => .ok (.obj members, rest)
    | (some key, rest) => do
      let (member, rest) ← valueWithin fuel depth (← colon rest)
      membersWithin fuel depth false (members.insert key member) rest

end

/-- Every step of reading a value passes over a character or opens an item, so that twice the
length of the text bounds the number of steps. -/
def value (depth : Nat) (s : List Char) : Except Fault (Json × List Char) :=
  valueWithin (2 * s.length + 2) depth s

/-! ## Skipping -/

def skipKey (s : List Char) : Except Fault (List Char) :=
  match skipSpace s with
  | [] => .error .endOfObject
  | '"' :: rest => do colon (← skipString rest)
  | _ => .error .keyNotString

mutual

def skipWithin : Nat → List Char → Except Fault (List Char)
  | 0, _ => .error .tooDeep
  | fuel + 1, s =>
    match skipSpace s with
    | [] => .error .endOfValue
    | 'n' :: rest => word "ull".toList rest
    | 't' :: rest => word "rue".toList rest
    | 'f' :: rest => word "alse".toList rest
    | '"' :: rest => skipString rest
    | '[' :: rest =>
      match skipSpace rest with
      | [] => .error .endOfList
      | ']' :: rest => .ok rest
      | rest => skipItems fuel rest
    | '{' :: rest =>
      match skipSpace rest with
      | [] => .error .endOfObject
      | '}' :: rest => .ok rest
      | rest => skipMembers fuel rest
    | c :: rest =>
      if c = '-' ∨ c.isDigit then (literal .invalidNumber (c :: rest)).map Prod.snd
      else .error .expectedValue

/-- Passes over an item, and on to the end of its list. -/
def skipItems : Nat → List Char → Except Fault (List Char)
  | 0, _ => .error .tooDeep
  | fuel + 1, s => do
    match skipSpace (← skipWithin fuel s) with
    | [] => .error .endOfList
    | ']' :: rest => .ok rest
    | ',' :: rest => skipItems fuel rest
    | _ => .error .expectedListComma

/-- Passes over a member, and on to the end of its object. -/
def skipMembers : Nat → List Char → Except Fault (List Char)
  | 0, _ => .error .tooDeep
  | fuel + 1, s => do
    match skipSpace (← skipWithin fuel (← skipKey s)) with
    | [] => .error .endOfObject
    | '}' :: rest => .ok rest
    | ',' :: rest => skipMembers fuel rest
    | _ => .error .expectedObjectComma

end

def skip (s : List Char) : Except Fault (List Char) :=
  skipWithin (2 * s.length + 2) s

/-- What is left of a text after its only value: blanks. -/
def nothingElse (s : List Char) : Except Fault Unit :=
  if (skipSpace s).isEmpty then .ok () else .error .trailingCharacters

/-- The value that a text holds. -/
def parse (text : String) : Except Fault Json := do
  let (v, rest) ← value maxDepth text.toList
  nothingElse rest
  .ok v

end HubCard.Json
