import BlockFlow.Sheet.Reader.Basic
import BlockFlow.Sheet.Value

/-! # Reading values

A value that starts with a digit is a length, one that starts with a hash is a color, and any other
is a keyword. A length is digits with at most one point, directly followed by its unit in either
case; a color is six hexadecimal digits, and what follows them does not matter.
-/

namespace BlockFlow

def isNumberChar (c : Char) : Bool := c.isDigit || c == '.'

/-- The number that a run of digits with at most one point denotes. -/
def numeralValue (number : List Char) : Float :=
  let whole := number.takeWhile (· != '.')
  let fraction := (number.dropWhile (· != '.')).drop 1
  (Number.Decimal.ofNumeral whole fraction).toFloat false

/-- A length: a number and the unit `px`. A faulty number is reported where it starts, and so is an
unknown unit. -/
def readLength (text : List Char) : Reading (Value Float) :=
  let number := text.takeWhile isNumberChar
  let afterNumber := text.dropWhile isNumberChar
  if 1 < number.count '.' then
    .error ⟨.malformedNumber (String.ofList number), text, afterNumber⟩
  else
    let unit := (leadingName afterNumber).map Char.toLower
    if unit = ['p', 'x'] then .ok (.length (numeralValue number), afterName afterNumber)
    else .error ⟨.unknownUnit (String.ofList unit), afterNumber, afterName afterNumber⟩

/-- A channel of a color, from two hexadecimal digits. -/
def hexChannel? (a b : Char) : Option UInt8 :=
  (Text.ofHex? [a, b]).map UInt8.ofNat

/-- The color at the start of a text, after its hash. -/
def leadingColor? : List Char → Option (Color × List Char)
  | r :: r' :: g :: g' :: b :: b' :: rest => do
    let red ← hexChannel? r r'
    let green ← hexChannel? g g'
    let blue ← hexChannel? b b'
    some (⟨red, green, blue, 255⟩, rest)
  | _ => none

/-- A color, from the text after its hash. -/
def readColor (text : List Char) : Reading (Value Float) :=
  match leadingColor? text with
  | some (c, rest) => .ok (.color c, rest)
  | none => .error (.here .malformedColor text)

def Value.read (text : List Char) : Reading (Value Float) :=
  match text with
  | [] => .error (.here .endOfInput [])
  | c :: rest =>
    if c.isDigit then readLength (c :: rest)
    else if c = '#' then readColor rest
    else (readName .missingValue (c :: rest)).map .keyword

theorem readLength_within (text : List Char) : (readLength text).Within text := by
  have hd : text.dropWhile isNumberChar <:+ text := List.dropWhile_suffix _
  unfold readLength
  dsimp only
  split
  · exact ⟨List.suffix_rfl, hd⟩
  · split
    · exact (afterName_suffix _).trans hd
    · exact ⟨hd, afterName_suffix _⟩

theorem leadingColor?_suffix {text rest : List Char} {c : Color}
    (h : leadingColor? text = some (c, rest)) : rest <:+ text := by
  unfold leadingColor? at h
  split at h
  · simp only [Option.bind_eq_bind, Option.bind_eq_some_iff, Option.some.injEq,
      Prod.mk.injEq] at h
    obtain ⟨red, -, green, -, blue, -, -, rfl⟩ := h
    exact ⟨[_, _, _, _, _, _], rfl⟩
  · cases h

theorem readColor_within (text : List Char) : (readColor text).Within text := by
  unfold readColor
  split
  · next h => exact leadingColor?_suffix h
  · exact .here List.suffix_rfl

theorem Value.read_within (text : List Char) : (Value.read text).Within text := by
  unfold Value.read
  split
  · exact .here List.suffix_rfl
  · split
    · exact readLength_within _
    · split
      · exact (readColor_within _).mono (List.suffix_cons _ _)
      · exact (readName_within _ _).map

end BlockFlow
