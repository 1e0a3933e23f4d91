import BlockFlow.Number.Nearest

/-! # The fewest digits that read back

A number is written with the fewest significant digits that read back as the same number, and with
the nearest such digits. For each number of digits the two neighbours of the number on that decimal
grid are tried by reading them; should none of seventeen digits do, every digit is written.
-/

namespace BlockFlow.Number

def digitCount (n : Nat) : Nat := (Nat.toDigits 10 n).length

/-- The number of digits before the point of a positive fraction: the least power of ten above it. -/
def pointPosition (num den : Nat) : Int :=
  if den ≤ num then digitCount (num / den) else 1 - (digitCount ((den - 1) / num) : Int)

def scaleDown (num den : Nat) (power : Int) : Nat × Nat :=
  (num * Nat.pow 10 (-power).toNat, den * Nat.pow 10 power.toNat)

/-- The two decimals with the given power of ten next to a fraction, the nearer one first and the
even one of two equally near. -/
def neighbours (num den : Nat) (power : Int) : List Decimal :=
  let (num, den) := scaleDown num den power
  let below := num / den
  let r := num % den
  if 2 * r < den ∨ 2 * r = den ∧ below % 2 = 0 then [⟨below, power⟩, ⟨below + 1, power⟩]
  else [⟨below + 1, power⟩, ⟨below, power⟩]

/-- A decimal with the given power of ten that reads back as a finite magnitude, the nearest one. -/
def readingBack? (magnitude : Nat) (power : Int) : Option Decimal :=
  (neighbours (units magnitude) unitsPerOne power).find? fun d => d.nearest = magnitude

def allDigits (magnitude : Nat) : Decimal :=
  ⟨units magnitude * Nat.pow 5 1074, -1074⟩

/-- The shortest decimal that reads back as a finite magnitude, without zeros at its end. -/
def shortest (magnitude : Nat) : Decimal :=
  if magnitude = 0 then ⟨0, 0⟩
  else
    let point := pointPosition (units magnitude) unitsPerOne
    let found := (List.range 17).findSome? fun n => readingBack? magnitude (point - (n + 1 : Nat))
    (found.getD (allDigits magnitude)).trim

/-- A finite magnitude with the given number of significant digits, the even one of two equally
near, without zeros at its end. -/
def significant (count magnitude : Nat) : Decimal :=
  if magnitude = 0 then ⟨0, 0⟩
  else
    let power := pointPosition (units magnitude) unitsPerOne - count
    let (num, den) := scaleDown (units magnitude) unitsPerOne power
    Decimal.trim ⟨roundHalfEven num den, power⟩

theorem nearest_of_readingBack? {magnitude : Nat} {power : Int} {d : Decimal}
    (h : readingBack? magnitude power = some d) : d.nearest = magnitude := by
  have := List.find?_some h
  exact of_decide_eq_true this

end BlockFlow.Number
