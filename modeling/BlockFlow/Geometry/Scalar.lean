import BlockFlow.Sheet.Value

/-! # Numbers to lay out with

Layout adds, subtracts, halves and compares. It is run on floating-point numbers, where comparing
with what is not a number is always false, and can be reasoned about on any other numbers.
-/

namespace BlockFlow

class Scalar (ν : Type) extends Add ν, Sub ν where
  zero : ν
  half : ν → ν
  lt : ν → ν → Bool
  le : ν → ν → Bool

instance : Scalar Float where
  zero := 0
  half x := x / 2
  lt x y := x < y
  le x y := x ≤ y

instance : Scalar Rat where
  zero := 0
  half x := x / 2
  lt x y := x < y
  le x y := x ≤ y

/-- The sum of some numbers, from zero on and in their order. -/
def Scalar.sum {ν : Type} [Scalar ν] (xs : List ν) : ν := xs.foldl (· + ·) Scalar.zero

/-- The length of a value in pixels; every other value counts as zero. -/
def Value.pixels {ν : Type} [Scalar ν] (v : Value ν) : ν := v.pixels?.getD Scalar.zero

end BlockFlow
