import HubCard.Json.Value
import HubCard.Number.Numeral
import HubCard.Text.Blank

/-!
Ids of commands, activities and devices: integers of 64 signed bits, which hubs report as numbers
or as text.
-/

namespace HubCard

abbrev Id := Int

namespace Id

/-- A reported integer as the `Double` nearest to it. The integers reported have 64 bits, unsigned or,
below zero, signed. -/
def double? (n : Int) : Option Double :=
  if 0 ≤ n then Double.ofNat? n.toNat
  else if Numeral.fits n then Double.ofUnits? true (n.natAbs * Double.one) 1
  else none

/-- The id that a reported value stands for. Fractions, numbers out of range and texts that are no
numerals stand for none. An integer that does not fit goes by the `Double` nearest to it. -/
def ofJson? : Json → Option Id
  | .int n => (Numeral.ifFits n).orElse fun _ => (double? n).bind Numeral.wholeDouble?
  | .real x => Numeral.wholeDouble? x
  | .str s => Numeral.ofText? (Text.trim s).toList
  | _ => none

end Id

end HubCard
