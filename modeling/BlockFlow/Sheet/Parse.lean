import BlockFlow.Sheet.Diagnostic
import BlockFlow.Sheet.Reader.Rule
import BlockFlow.Text.Place

/-! # Style sheet text

A text is read as a style sheet or as a list of declarations. A fault is reported by line and
column, and each malformed declaration that was passed over becomes a warning.
-/

namespace BlockFlow

structure SyntaxError where
  fault : Fault
  place : Text.Place
  deriving DecidableEq, Repr

def Text.Place.location (p : Text.Place) : Location := ⟨some p.line, some p.column⟩

namespace SyntaxError

/-- The wording of an error, with its place. -/
def message (e : SyntaxError) : String := e.place.location.locate e.fault.message

def ofFailure (source : List Char) (failure : Failure) : SyntaxError :=
  ⟨failure.fault, .within source failure.position⟩

end SyntaxError

def Skipped.diagnostic (source : List Char) (s : Skipped) : Diagnostic where
  severity := .warning
  message := "Skipped malformed declaration: " ++ s.fault.message
  location := (Text.Place.within source s.position).location
  property := if s.property.isEmpty then none else some s.property

structure Parsed where
  diagnostics : List Diagnostic
  result : Except SyntaxError Stylesheet

/-- What a reading gave, or its failure as an error in the source. -/
def Reading.result {α : Type} (source : List Char) : Reading α → Except SyntaxError α
  | .ok (a, _) => .ok a
  | .error failure => .error (.ofFailure source failure)

/-- A text as a style sheet, with the warnings on the way. -/
def Stylesheet.parse (mode : Mode) (source : String) : Parsed :=
  let text := source.toList
  let outcome := readRules mode text
  ⟨outcome.skipped.map (·.diagnostic text), (outcome.reading.map Stylesheet.mk).result text⟩

/-- A text as a list of declarations, read strictly. -/
def Declaration.parseList (source : String) : Except SyntaxError (List (Declaration Float)) :=
  (readDeclarations source.toList).result source.toList

end BlockFlow
