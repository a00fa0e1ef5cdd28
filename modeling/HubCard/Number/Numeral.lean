import HubCard.Number.Double

/-!
Whole numbers written as text: decimal and hexadecimal numerals with an optional sign, and decimal
fractions with an optional exponent. A number is accepted only when it fits in 64 signed bits.
-/

namespace HubCard.Numeral

/-- How many whole numbers below zero have 64 signed bits: two to the power of 63. -/
def signedBound : Int := 0x8000000000000000

/-- The whole numbers of 64 signed bits. -/
def fits (n : Int) : Bool :=
  -signedBound ≤ n && n < signedBound

def ifFits (n : Int) : Option Int :=
  if fits n then some n else none

def digit? (base : Nat) (c : Char) : Option Nat :=
  let n := c.toNat
  let value :=
    if 48 ≤ n ∧ n ≤ 57 then some (n - 48)
    else if 97 ≤ n ∧ n ≤ 102 then some (n - 87)
    else if 65 ≤ n ∧ n ≤ 70 then some (n - 55)
    else none
  value.filter (· < base)

/-- The value of a text of digits, read on from `value`. -/
def digitsFrom? (base : Nat) : Nat → List Char → Option Nat
  | value, [] => some value
  | value, c :: rest =>
    match digit? base c with
    | some d => digitsFrom? base (base * value + d) rest
    | none => none

/-- The value of one or more digits. -/
def digits? (base : Nat) (s : List Char) : Option Nat :=
  if s.isEmpty then none else digitsFrom? base 0 s

/-- The sign in front of a text (true when negative), and the rest. -/
def splitSign : List Char → Bool × List Char
  | '-' :: rest => (true, rest)
  | '+' :: rest => (false, rest)
  | s => (false, s)

/-- The decimal text of an integer. -/
def intText (n : Int) : String :=
  let digits := Nat.toDigits 10 n.natAbs
  String.ofList (if n < 0 then '-' :: digits else digits)

def natText (n : Nat) : String :=
  String.ofList (Nat.toDigits 10 n)

def withSign (negative : Bool) (n : Nat) : Int :=
  if negative then -(n : Int) else n

/-- An integer numeral: an optional sign and digits. -/
def integer? (base : Nat) (s : List Char) : Option Int :=
  let (negative, rest) := splitSign s
  (digits? base rest).map (withSign negative)

/-- The exponent that ends a numeral: nothing, or `e` and an integer numeral. -/
def exponent? : List Char → Option Int
  | [] => some 0
  | c :: rest => if c = 'e' ∨ c = 'E' then integer? 10 rest else none

/-- A decimal numeral, such as `-12.50e3`, as the `Double` nearest to it. A digit may be missing on
one side of the point. -/
def double? (s : List Char) : Option Double :=
  let (negative, body) := splitSign s
  let (whole, rest) := body.span Char.isDigit
  let (fraction, rest) :=
    match rest with
    | '.' :: rest => rest.span Char.isDigit
    | _ => ([], rest)
  match digits? 10 (whole ++ fraction), exponent? rest with
  | some n, some e => Double.ofDecimal? negative n (e - fraction.length)
  | _, _ => none

/-- A whole number of 64 signed bits, the fraction and sign of zero left aside. -/
def wholeDouble? (x : Double) : Option Int :=
  x.whole?.bind ifFits

/-- A number given as text: hexadecimal after `0x`, else an integer numeral, else a decimal numeral
whose nearest `Double` is whole. -/
def ofText? : List Char → Option Int
  | '0' :: 'x' :: rest => (integer? 16 rest).bind ifFits
  | '0' :: 'X' :: rest => (integer? 16 rest).bind ifFits
  | s =>
    match (integer? 10 s).bind ifFits with
    | some n => some n
    | none => (double? s).bind wholeDouble?

end HubCard.Numeral
