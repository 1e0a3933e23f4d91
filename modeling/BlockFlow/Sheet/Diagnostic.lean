import BlockFlow.Text.Quoted

/-! # Diagnostics

A diagnostic is a remark about a style sheet, with the place and the property that it is about when
these are known.
-/

namespace BlockFlow

inductive Severity
  | error
  | warning
  | info
  deriving DecidableEq, Repr

inductive SeverityError
  | unknown (word : String)
  deriving DecidableEq, Repr

def SeverityError.message : SeverityError → String
  | unknown word => Text.quote word ++ " is not a valid Severity"

namespace Severity

def word : Severity → String
  | error => "ERROR"
  | warning => "WARNING"
  | info => "INFO"

def ofWord? (word : String) : Except SeverityError Severity :=
  match [error, warning, info].find? fun s => s.word = word with
  | some s => .ok s
  | none => .error (.unknown word)

theorem ofWord?_word (s : Severity) : ofWord? s.word = .ok s := by
  cases s <;> rfl

end Severity

/-- A line and a column, as far as they are known. -/
structure Location where
  line : Option Int
  column : Option Int
  deriving DecidableEq, Repr

namespace Location

/-- The words for a location; there are none when the line is not known. -/
def words? (l : Location) : Option String :=
  l.line.map fun line =>
    let column := match l.column with
      | some column => toString column
      | none => "None"
    "line " ++ toString line ++ ", column " ++ column

def locate (l : Location) (message : String) : String :=
  match l.words? with
  | some words => message ++ " (" ++ words ++ ")"
  | none => message

end Location

structure Diagnostic where
  severity : Severity
  message : String
  location : Location
  property : Option String
  deriving DecidableEq, Repr

namespace Diagnostic

/-- The text of a diagnostic: the severity, the location and the property, then the message. -/
def text (d : Diagnostic) : String :=
  let location := match d.location.words? with
    | some words => " [" ++ words ++ "]"
    | none => ""
  let property := match d.property with
    | some name => if name.isEmpty then "" else " [property=" ++ name ++ "]"
    | none => ""
  d.severity.word ++ location ++ property ++ ": " ++ d.message

end Diagnostic

end BlockFlow
