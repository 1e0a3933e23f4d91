import BlockFlow.Number.Decimal
import BlockFlow.Number.Double

/-! # The nearest floating-point number

A fraction is rounded to the nearest magnitude, the one with an even significand of two equally
near: its value in units is divided by the power of two that leaves a significand of 53 bits, and
the quotient is rounded. What lies beyond the greatest finite magnitude by half a step is infinite.
-/

namespace BlockFlow.Number

/-- The magnitude nearest to the fraction `num / den`. -/
def nearestMagnitude (num den : Nat) : Nat :=
  let inUnits := num * unitsPerOne
  let e := (inUnits / den).log2 - 52
  min infiniteMagnitude (e * Nat.pow 2 52 + roundHalfEven inUnits (den * Nat.pow 2 e))

/-- The magnitude nearest to a decimal. An exponent beyond all finite numbers is not computed with:
above them the magnitude is infinite, and far enough below the least one it is zero. -/
def Decimal.nearest (d : Decimal) : Nat :=
  if d.digits = 0 then 0
  else if 400 < d.exponent then infiniteMagnitude
  else if d.exponent < -400 - (d.digits.log2 : Int) then 0
  else nearestMagnitude d.toFraction.1 d.toFraction.2

/-- The floating-point number nearest to a decimal with the given sign. -/
def Decimal.toFloat (negative : Bool) (d : Decimal) : Float :=
  ofMagnitude negative d.nearest

end BlockFlow.Number
