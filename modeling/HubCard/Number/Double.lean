/-!
Finite binary floating-point numbers with 53 significant bits, kept exactly: a sign and the
magnitude counted in units of 2⁻¹⁰⁷⁴, the smallest step of the format. Every operation computes the
exact result and rounds it once, to the nearest representable magnitude and on a tie to the one with
an even last bit.
-/

namespace HubCard

structure Double where
  negative : Bool
  /-- The magnitude in steps of 2⁻¹⁰⁷⁴. -/
  units : Nat
  deriving Repr, DecidableEq, Inhabited

namespace Double

/-- How many units make one. -/
def one : Nat := 1 <<< 1074

/-- The first magnitude, in units, that is too large for the format. -/
def limit : Nat := 1 <<< 2098

/-- The representable numbers around a magnitude of `n` units lie `2 ^ spacing n` units apart. -/
def spacing (n : Nat) : Nat :=
  n.log2 - 52

/-- The whole number nearest to `num / den`, the even one of two equally near. -/
def roundQuotient (num den : Nat) : Nat :=
  let q := num / den
  let r := num % den
  if 2 * r < den then q
  else if den < 2 * r then q + 1
  else q + q % 2

/-- The representable magnitude nearest to `num / den` units. -/
def nearest (num den : Nat) : Nat :=
  let k := spacing (num / den)
  roundQuotient num (den <<< k) <<< k

/-- The number with the given sign nearest to `num / den` units, if the format reaches so far. -/
def ofUnits? (negative : Bool) (num den : Nat) : Option Double :=
  let units := nearest num den
  if units < limit then some ⟨negative, units⟩ else none

def ofNat? (n : Nat) : Option Double :=
  ofUnits? false (n * one) 1

def tenTo (n : Nat) : Nat :=
  Nat.pow 10 n

/-- `digits · 10 ^ exponent` rounded once. Powers far outside the format are settled by the number
of digits, so that no huge power is ever computed. -/
def ofDecimal? (negative : Bool) (digits : Nat) (exponent : Int) : Option Double :=
  let size := (Nat.toDigits 10 digits).length
  if digits = 0 ∨ size + exponent < -400 then some ⟨negative, 0⟩
  else if 400 < size + exponent then none
  else if 0 ≤ exponent then ofUnits? negative (digits * tenTo exponent.toNat * one) 1
  else ofUnits? negative (digits * one) (tenTo (-exponent).toNat)

def isZero (x : Double) : Bool :=
  x.units == 0

def mul? (x y : Double) : Option Double :=
  ofUnits? (x.negative != y.negative) (x.units * y.units) one

/-- The quotient by a number of magnitude at least one, which never leaves the format. -/
def div (x y : Double) : Double :=
  ⟨x.negative != y.negative, nearest (x.units * one) y.units⟩

/-- The number as an integer, when it is whole. -/
def whole? (x : Double) : Option Int :=
  if x.units % one = 0 then
    let n : Int := (x.units / one : Nat)
    some (if x.negative then -n else n)
  else none

end Double

end HubCard
