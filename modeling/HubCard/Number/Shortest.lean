import HubCard.Number.Double

/-!
The text of a `Double`: the fewest significant digits that read back as the same number, the ones
nearest to it among those, written in positional or scientific form.
-/

namespace HubCard

namespace Double

/-- The exact reals that round to a magnitude, as a range in quarters of a unit: half a step on
either side, where the step below a power of two is half as long. The ends belong to the range when
the last bit of the magnitude is even. -/
structure Neighborhood where
  low : Nat
  high : Nat
  closed : Bool

def neighborhood (units : Nat) : Neighborhood :=
  let step := 1 <<< spacing units
  let below := if 0 < spacing units ∧ units = 1 <<< units.log2 then step / 2 else step
  ⟨4 * units - 2 * below, 4 * units + 2 * step, units / step % 2 = 0⟩

/-- Whether `num / den` quarters of a unit lie in the range. -/
def Neighborhood.holds (range : Neighborhood) (num den : Nat) : Bool :=
  if range.closed then range.low * den ≤ num && num ≤ range.high * den
  else range.low * den < num && num < range.high * den

/-- `digits · 10 ^ exponent` in quarters of a unit, as a quotient. -/
def decimalQuarters (digits : Nat) (exponent : Int) : Nat × Nat :=
  if 0 ≤ exponent then (digits * tenTo exponent.toNat * (4 * one), 1)
  else (digits * (4 * one), tenTo (-exponent).toNat)

/-- The largest `e` with `10 ^ e` at most the magnitude, by search down from `e`. -/
def decimalExponent (units : Nat) : Nat → Int → Int
  | 0, e => e
  | fuel + 1, e =>
    let (num, den) := decimalQuarters 1 e
    if num ≤ 4 * units * den then e else decimalExponent units fuel (e - 1)

/-- The multiple of `10 ^ exponent` that reads back as the magnitude, if its two neighbours on that
grid hold one: the nearer of two, the even one of two equally near. -/
def onGrid? (units : Nat) (exponent : Int) : Option Nat :=
  let (num, den) := decimalQuarters 1 exponent
  let exact := 4 * units * den
  let down := exact / num
  let range := neighborhood units
  let hasDown := range.holds (down * num) den
  let hasUp := range.holds ((down + 1) * num) den
  if hasDown && hasUp then
    let twice := 2 * (exact - down * num)
    if twice < num then some down
    else if num < twice then some (down + 1)
    else some (down + down % 2)
  else if hasDown then some down
  else if hasUp then some (down + 1)
  else none

/-- The first grid with a hit, from `count` digits on; seventeen digits always suffice. -/
def firstGrid (units : Nat) (leading : Int) : Nat → Nat → Nat × Int
  | 0, count => (0, leading - count + 1)
  | fuel + 1, count =>
    match onGrid? units (leading - count + 1) with
    | some digits => (digits, leading - count + 1)
    | none => firstGrid units leading fuel (count + 1)

/-- `digits` without trailing zeros, and the exponent raised by one for each. -/
def dropZeros : Nat → Nat → Int → Nat × Int
  | 0, digits, exponent => (digits, exponent)
  | fuel + 1, digits, exponent =>
    if digits % 10 = 0 then dropZeros fuel (digits / 10) (exponent + 1) else (digits, exponent)

/-- The shortest `digits · 10 ^ exponent` that reads back as a magnitude other than zero. -/
def shortest (units : Nat) : Nat × Int :=
  -- 2 ^ 10 is a little more than 10 ^ 3: the first estimate is never below the exponent sought
  let guess := ((units.log2 : Int) - 1074 + 1) * 1233 / 4096 + 1
  let leading := decimalExponent units 40 guess
  let (digits, exponent) := firstGrid units leading 17 1
  dropZeros 20 digits exponent

/-- Numbers from 10⁻⁵ up to, and without, 10¹⁶ are written in positional form. -/
def positionalExponents : Int × Int := (-5, 16)

/-- The magnitude `digits · 10 ^ exponent` in positional form, always with a point. -/
def positional (digits : List Char) (exponent : Int) : List Char :=
  if 0 ≤ exponent then digits ++ List.replicate exponent.toNat '0' ++ ['.', '0']
  else
    let places := (-exponent).toNat
    let padded := List.replicate (places + 1 - digits.length) '0' ++ digits
    let whole := padded.length - places
    padded.take whole ++ '.' :: padded.drop whole

/-- The magnitude `d.ddd · 10 ^ exponent`, the exponent always with its sign. -/
def scientific (digits : List Char) (exponent : Int) : List Char :=
  let mantissa :=
    match digits with
    | d :: [] => [d]
    | d :: rest => d :: '.' :: rest
    | [] => []
  let sign := if exponent < 0 then '-' else '+'
  mantissa ++ 'e' :: sign :: Nat.toDigits 10 exponent.natAbs

def magnitudeText (units : Nat) : List Char :=
  if units = 0 then ['0', '.', '0']
  else
    let (n, exponent) := shortest units
    let digits := Nat.toDigits 10 n
    let leading := exponent + (digits.length - 1 : Nat)
    if positionalExponents.1 ≤ leading ∧ leading < positionalExponents.2 then
      positional digits exponent
    else scientific digits leading

def text (x : Double) : String :=
  String.ofList (if x.negative then '-' :: magnitudeText x.units else magnitudeText x.units)

end Double

end HubCard
