/-! # Floating-point numbers as whole numbers of the least one

A finite floating-point number has a sign and a magnitude. Read as a whole number, the 63 bits of
the magnitude are in the order of the magnitudes themselves, and every finite magnitude is a whole
number of units, the least positive number being the unit: `2 ^ 1074` units are one.
-/

namespace BlockFlow.Number

/-- The magnitude that stands for infinity; what lies above it is not a number. -/
def infiniteMagnitude : Nat := 2047 * Nat.pow 2 52

/-- The number of units that make one. It is kept folded: proofs need its factors, not its digits. -/
@[irreducible] def unitsPerOne : Nat := Nat.pow 2 1074

/-- The power of two by which the significand of a magnitude is multiplied, counted in units. -/
def shift (magnitude : Nat) : Nat := magnitude / Nat.pow 2 52 - 1

/-- The significand of a magnitude, with its leading bit. -/
def significand (magnitude : Nat) : Nat := magnitude - shift magnitude * Nat.pow 2 52

/-- The value of a finite magnitude, in units. -/
def units (magnitude : Nat) : Nat := significand magnitude * Nat.pow 2 (shift magnitude)

def ofMagnitude (negative : Bool) (magnitude : Nat) : Float :=
  Float.ofBits (UInt64.ofNat (magnitude + if negative then Nat.pow 2 63 else 0))

def magnitude (x : Float) : Nat := x.toBits.toNat % Nat.pow 2 63

/-- The sign of a number: zero has one too. -/
def isNegative (x : Float) : Bool := Nat.pow 2 63 ≤ x.toBits.toNat

def isFinite (x : Float) : Bool := magnitude x < infiniteMagnitude

end BlockFlow.Number
