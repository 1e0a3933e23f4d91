import BlockFlow.Number.Shortest

/-! # Written numbers

One record describes how a kind of output writes its numbers: which digits, when they are written
out and when with a power of ten, what follows a whole number, and the words for what is not finite.
-/

namespace BlockFlow.Number

structure Form where
  digits : Nat → Decimal
  /-- The powers of ten of the first digit for which the digits are written out. -/
  positional : Int → Bool
  afterWhole : String
  infinite : String
  notANumber : String

def Decimal.digitChars (d : Decimal) : List Char := Nat.toDigits 10 d.digits

/-- The number of digits that stand before the point of a decimal, if that is positive. -/
def Decimal.point (d : Decimal) : Int := d.digitChars.length + d.exponent

/-- A decimal written out: every digit up to the point, or down to the last one. -/
def Decimal.plain (d : Decimal) (afterWhole : List Char) : List Char :=
  let digits := d.digitChars
  if 0 ≤ d.exponent then digits ++ List.replicate d.exponent.toNat '0' ++ afterWhole
  else if 0 < d.point then
    digits.take d.point.toNat ++ '.' :: digits.drop d.point.toNat
  else '0' :: '.' :: (List.replicate (-d.point).toNat '0' ++ digits)

def twoDigits (n : Nat) : List Char :=
  if n < 10 then '0' :: Nat.toDigits 10 n else Nat.toDigits 10 n

/-- A decimal with one digit before the point and a power of ten of at least two digits. -/
def Decimal.scientific (d : Decimal) : List Char :=
  let power := d.point - 1
  let mantissa := match d.digitChars with
    | first :: second :: rest => first :: '.' :: second :: rest
    | digits => digits
  mantissa ++ 'e' :: (if power < 0 then '-' else '+') :: twoDigits power.natAbs

namespace Form

def writeMagnitude (form : Form) (magnitude : Nat) : List Char :=
  if infiniteMagnitude < magnitude then form.notANumber.toList
  else if magnitude = infiniteMagnitude then form.infinite.toList
  else
    let d := form.digits magnitude
    if form.positional (d.point - 1) then d.plain form.afterWhole.toList else d.scientific

/-- The text of a number. A negative one, negative zero among them, begins with a hyphen; what is
not a number has no sign. -/
def writeChars (form : Form) (x : Float) : List Char :=
  let text := form.writeMagnitude (magnitude x)
  if isNegative x && magnitude x ≤ infiniteMagnitude then '-' :: text else text

def write (form : Form) (x : Float) : String := String.ofList (form.writeChars x)

/-- Numbers in answers: the fewest digits, a power of ten below `1e-4` and from `1e16` on, and always
a point or a power. -/
def answer : Form where
  digits := shortest
  positional power := -4 ≤ power && power < 16
  afterWhole := ".0"
  infinite := "inf"
  notANumber := "nan"

/-- Numbers in JSON text are written as in answers, and the others by the words that JSON readers
take for them. -/
def json : Form := { answer with infinite := "Infinity", notANumber := "NaN" }

/-- Lengths have the fewest digits, never a power of ten, and no point after a whole number. -/
def length : Form where
  digits := shortest
  positional _ := true
  afterWhole := ""
  infinite := "Infinity"
  notANumber := "NaN"

/-- Numbers in an outline have up to six digits, and a power of ten below `1e-4` and from `1e6`
on. -/
def outline : Form where
  digits := significant 6
  positional power := -4 ≤ power && power < 6
  afterWhole := ""
  infinite := "inf"
  notANumber := "nan"

end Form

/-- A number with a fixed number of places after the point, the even digit of two equally near. -/
def writeFixed (places : Nat) (x : Float) : String :=
  let sign := if isNegative x && magnitude x ≤ infiniteMagnitude then "-" else ""
  if infiniteMagnitude < magnitude x then "nan"
  else if magnitude x = infiniteMagnitude then sign ++ "inf"
  else
    let scaled := roundHalfEven (units (magnitude x) * Nat.pow 10 places) unitsPerOne
    let digits := Nat.toDigits 10 scaled
    let padded := List.replicate (places + 1 - digits.length) '0' ++ digits
    let cut := padded.length - places
    sign ++ String.ofList (padded.take cut ++ '.' :: padded.drop cut)

end BlockFlow.Number
