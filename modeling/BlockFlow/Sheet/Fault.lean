import BlockFlow.Text.Quoted

/-! # Faults in a style sheet -/

namespace BlockFlow

inductive Fault
  | endOfSelectors
  | strayInSelectors (c : Char)
  | missingId
  | missingClass
  | unclosedRule
  | missingProperty
  | missingColon (property : String)
  | endOfInput
  | missingValue
  | missingSemicolon (property : String)
  | malformedNumber (number : String)
  | unknownUnit (unit : String)
  | malformedColor
  deriving DecidableEq, Repr

namespace Fault

/-- The wording of a fault. What it quotes from the text is on one line. -/
def message : Fault → String
  | endOfSelectors => "Unexpected end of input in selector list"
  | strayInSelectors c =>
    "Unexpected character " ++ Text.quote (String.singleton c) ++ " in selector list"
  | missingId => "Expected id after '#'"
  | missingClass => "Expected class name after '.'"
  | unclosedRule => "Unterminated rule: expected '\x7d'"
  | missingProperty => "Expected property name"
  | missingColon property => "Expected ':' after property " ++ Text.quote property
  | endOfInput => "Unexpected end of input"
  | missingValue => "Expected value"
  | missingSemicolon property => "Expected ';' after value of " ++ Text.quote property
  | malformedNumber number => "Invalid number " ++ Text.quote number
  | unknownUnit unit => "Unrecognized unit " ++ Text.quote unit
  | malformedColor => "Expected 6 hex digits in color"

end Fault

end BlockFlow
