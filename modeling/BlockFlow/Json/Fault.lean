import BlockFlow.Text.Place

/-! # Faults in a JSON text

A text may be malformed, which is reported by line, column and character. It may also go beyond what
can be read: whole numbers may have only so many digits, and half of a surrogate pair is no
character that a string could have.
-/

namespace BlockFlow.Json

inductive Malformation
  | byteOrderMark
  | missingValue
  | missingName
  | missingColon
  | missingComma
  | extraText
  | unclosedString
  | controlCharacter
  | unknownEscape
  | codeUnit
  deriving DecidableEq, Repr

def Malformation.message : Malformation → String
  | byteOrderMark => "Unexpected UTF-8 BOM (decode using utf-8-sig)"
  | missingValue => "Expecting value"
  | missingName => "Expecting property name enclosed in double quotes"
  | missingColon => "Expecting ':' delimiter"
  | missingComma => "Expecting ',' delimiter"
  | extraText => "Extra data"
  | unclosedString => "Unterminated string starting at"
  | controlCharacter => "Invalid control character at"
  | unknownEscape => "Invalid \\escape"
  | codeUnit => "Invalid \\uXXXX escape"

/-- A malformation, with its place and the number of characters before it. -/
structure TextError where
  malformation : Malformation
  place : Text.Place
  offset : Nat
  deriving DecidableEq, Repr

namespace TextError

def message (e : TextError) : String :=
  e.malformation.message ++ ": line " ++ toString e.place.line ++ " column "
    ++ toString e.place.column ++ " (char " ++ toString e.offset ++ ")"

/-- A malformation at the place in the text at which `rest`, an end of it, begins. -/
def within (text : List Char) (m : Malformation) (rest : List Char) : TextError :=
  ⟨m, .within text rest, text.length - rest.length⟩

theorem within_append (before : List Char) (m : Malformation) (rest : List Char) :
    within (before ++ rest) m rest = ⟨m, .after before, before.length⟩ := by
  rw [within, Text.Place.within_append, List.length_append, Nat.add_sub_cancel]

end TextError

inductive Limit
  | longNumeral (digits : Nat)
  | loneSurrogate
  deriving DecidableEq, Repr

namespace Limit

def digits : Nat := 4300

def message : Limit → String
  | longNumeral n =>
    "Exceeds the limit (" ++ toString digits
      ++ " digits) for integer string conversion: value has " ++ toString n
      ++ " digits; use sys.set_int_max_str_digits() to increase the limit"
  | loneSurrogate => "lone surrogate in a string"

end Limit

/-- What stops a reader: a malformation where the text goes on with `rest`, or something that goes
beyond a limit. -/
inductive Fault
  | malformed (m : Malformation) (rest : List Char)
  | beyond (limit : Limit)
  deriving DecidableEq, Repr

end BlockFlow.Json
