import BlockFlow.Json.Basic
import BlockFlow.Number.Form
import BlockFlow.Text.Hex

/-! # Writing JSON

Only printable ASCII characters stand for themselves in strings; the others are escaped, by their
UTF-16 code units where there is no shorter escape. Arrays and objects are written on one line, or
with each item on a line of its own, two spaces further in.
-/

namespace BlockFlow.Json

/-- A UTF-16 code unit, escaped. -/
def escapeUnit (n : Nat) : List Char := '\\' :: 'u' :: Text.hex 4 n

def escapeChar (c : Char) : List Char :=
  if c = '"' ∨ c = '\\' then ['\\', c]
  else if c = '\n' then ['\\', 'n']
  else if c = '\r' then ['\\', 'r']
  else if c = '\t' then ['\\', 't']
  else if c = '\x08' then ['\\', 'b']
  else if c = '\x0c' then ['\\', 'f']
  else
    let n := c.toNat
    if 0x20 ≤ n ∧ n ≤ 0x7E then [c]
    else if n < 0x10000 then escapeUnit n
    else escapeUnit (0xD800 + (n - 0x10000) / 0x400) ++ escapeUnit (0xDC00 + (n - 0x10000) % 0x400)

def quoteString (s : String) : String :=
  "\"" ++ String.ofList (s.toList.flatMap escapeChar) ++ "\""

def writeScalar : Json → String
  | null => "null"
  | bool b => if b then "true" else "false"
  | integer n => toString n
  | real x => Number.Form.json.write x
  | string s => quoteString s
  | array _ => "[]"
  | object _ => "\x7b\x7d"

structure Spacing where
  /-- What stands before the first part and between two parts, at a given depth. -/
  lineBreak : Nat → String
  separator : String
  colon : String

namespace Spacing

def compact : Spacing := ⟨fun _ => "", ",", ":"⟩

/-- Each part on a line of its own, two spaces further in than what it is a part of. -/
def indented : Spacing :=
  ⟨fun depth => "\n" ++ String.ofList (List.replicate (2 * depth) ' '), ",", ": "⟩

end Spacing

mutual

def writeAt (sp : Spacing) (depth : Nat) : Json → String
  | array (item :: items) =>
    "[" ++ sp.lineBreak (depth + 1) ++ writeAt sp (depth + 1) item ++ writeItems sp (depth + 1) items
      ++ sp.lineBreak depth ++ "]"
  | object ((name, value) :: members) =>
    "\x7b" ++ sp.lineBreak (depth + 1) ++ quoteString name ++ sp.colon
      ++ writeAt sp (depth + 1) value ++ writeMembers sp (depth + 1) members
      ++ sp.lineBreak depth ++ "\x7d"
  | value => writeScalar value

/-- The items after the first one, each with what sets it apart. -/
def writeItems (sp : Spacing) (depth : Nat) : List Json → String
  | [] => ""
  | item :: items =>
    sp.separator ++ sp.lineBreak depth ++ writeAt sp depth item ++ writeItems sp depth items

/-- The members after the first one, each with what sets it apart. -/
def writeMembers (sp : Spacing) (depth : Nat) : List (String × Json) → String
  | [] => ""
  | (name, value) :: members =>
    sp.separator ++ sp.lineBreak depth ++ quoteString name ++ sp.colon ++ writeAt sp depth value
      ++ writeMembers sp depth members

end

def write (sp : Spacing) (value : Json) : String := writeAt sp 0 value

end BlockFlow.Json
