import BlockFlow.Sheet.Selector
import BlockFlow.Sheet.Value

/-! # Declarations, rules and style sheets -/

namespace BlockFlow

structure Declaration (ν : Type) where
  name : String
  value : Value ν
  deriving DecidableEq, BEq, Repr

/-- A group of selectors with the declarations for what they select. -/
structure Rule where
  selectors : List Selector
  declarations : List (Declaration Float)
  deriving BEq, Repr

/-- The rules of a style sheet, in the order of its text. -/
structure Stylesheet where
  rules : List Rule
  deriving BEq, Repr

namespace Declaration

def chars (d : Declaration Float) : List Char :=
  d.name.toList ++ ':' :: ' ' :: d.value.chars ++ [';']

def text (d : Declaration Float) : String := String.ofList d.chars

end Declaration

namespace Rule

/-- The text of a rule: its selectors between commas, and its declarations in braces. -/
def chars (r : Rule) : List Char :=
  List.intercalate [',', ' '] (r.selectors.map Selector.chars)
    ++ ' ' :: '{' :: r.declarations.flatMap (fun d => ' ' :: d.chars) ++ [' ', '}']

def text (r : Rule) : String := String.ofList r.chars

end Rule

end BlockFlow
