import BlockFlow.Number.Nearest
import BlockFlow.Text.Blank
import BlockFlow.Text.DecimalDigit

/-! # Numbers as people write them

A setting or an option gives a number with an optional sign, decimal digits of any script, an
optional point and an optional power of ten; a single low line may stand between two digits.
Infinity and what is not a number are given by name, in either case. White space around the number
is passed over.
-/

namespace BlockFlow.Number

open BlockFlow.Text

/-- A character in ASCII terms: white space as a space, and a digit by its value. -/
def toAscii? (c : Char) : Option Char :=
  if c.toNat < 127 then some c
  else if isBlank c then some ' '
  else (digitValue? c).map Nat.digitChar

/-- The text in ASCII terms. A text that is ASCII already is left alone. -/
def toAsciiText? (text : List Char) : Option (List Char) :=
  if text.all fun c => c.toNat < 128 then some text else text.mapM toAscii?

/-- The digits at the start of a text, without the single low lines between them, and what
follows. -/
def readDigits : List Char → List Char × List Char
  | c :: '_' :: d :: rest =>
    if c.isDigit then
      if d.isDigit then
        let (digits, after) := readDigits (d :: rest)
        (c :: digits, after)
      else ([c], '_' :: d :: rest)
    else ([], c :: '_' :: d :: rest)
  | c :: rest =>
    if c.isDigit then
      let (digits, after) := readDigits rest
      (c :: digits, after)
    else ([], c :: rest)
  | [] => ([], [])

/-- A sign at the start of a text: whether it is a minus sign, and what follows. -/
def readSign : List Char → Bool × List Char
  | '-' :: rest => (true, rest)
  | '+' :: rest => (false, rest)
  | rest => (false, rest)

/-- The power of ten that ends a number, zero when there is none. -/
def readPower? : List Char → Option Int
  | [] => some 0
  | c :: rest =>
    if c = 'e' ∨ c = 'E' then
      let (negative, rest) := readSign rest
      match readDigits rest with
      | (d :: ds, []) =>
        let n : Int := Nat.ofDigitChars 10 (d :: ds) 0
        some (if negative then -n else n)
      | _ => none
    else none

/-- An unsigned decimal number with an optional point and power of ten. -/
def readDecimal? (text : List Char) : Option Decimal :=
  let (whole, rest) := readDigits text
  let (fraction, rest) := match rest with
    | '.' :: rest => readDigits rest
    | rest => ([], rest)
  if whole.isEmpty && fraction.isEmpty then none
  else do
    let power ← readPower? rest
    let d := Decimal.ofNumeral whole fraction
    some ⟨d.digits, d.exponent + power⟩

/-- An unsigned number: a decimal, or the name of infinity or of what is not a number. -/
def readMagnitude? (text : List Char) : Option Nat :=
  let word := String.ofList (text.map Char.toLower)
  if word = "inf" ∨ word = "infinity" then some infiniteMagnitude
  else if word = "nan" then some (infiniteMagnitude + Nat.pow 2 51)
  else (readDecimal? text).map Decimal.nearest

/-- The number that a text gives, if it gives one. -/
def read? (text : String) : Option Float := do
  let ascii ← toAsciiText? text.toList
  let trimmed := ((ascii.dropWhile isAsciiBlank).reverse.dropWhile isAsciiBlank).reverse
  let (negative, rest) := readSign trimmed
  let magnitude ← readMagnitude? rest
  some (ofMagnitude negative magnitude)

end BlockFlow.Number
