import BlockFlow.Log
import BlockFlow.Number.Reader
import BlockFlow.Text.Uppercase

/-! # Settings

Three variables of the environment set the width of the viewport, whether malformed declarations are
passed over, and what is logged. Whether the name of the log level is one is asked only when it is
used.
-/

namespace BlockFlow

structure Settings where
  viewportWidth : Float
  mode : Mode
  /-- The name of the log level, in capitals. -/
  logLevel : String

inductive SettingsError
  | notANumber (text : String)
  deriving DecidableEq, Repr

inductive LogLevelError
  | unknown (name : String)
  deriving DecidableEq, Repr

def SettingsError.message : SettingsError → String
  | notANumber text => "could not convert string to float: " ++ Text.quote text

def LogLevelError.message : LogLevelError → String
  | unknown name => "Unknown log level: " ++ Text.quote name

namespace Settings

def initial : Settings := ⟨800, .strict, "WARNING"⟩

/-- The words that switch something on, in any case and with blanks around them. -/
def isSwitchedOn (text : String) : Bool :=
  let word := String.ofList ((Text.trimBlanks text.toList).map Char.toLower)
  ["1", "true", "yes", "on"].contains word

/-- The viewport width that a variable gives; an empty one gives none. -/
def viewportWidth? : Option String → Except SettingsError Float
  | none => .ok initial.viewportWidth
  | some text =>
    if text.isEmpty then .ok initial.viewportWidth
    else match Number.read? text with
      | some width => .ok width
      | none => .error (.notANumber text)

def ofEnvironment? (environment : String → Option String) : Except SettingsError Settings := do
  let viewportWidth ← viewportWidth? (environment "STYLEBOX_VIEWPORT_WIDTH")
  let mode := match environment "STYLEBOX_RECOVER" with
    | some text => if isSwitchedOn text then .recovering else .strict
    | none => initial.mode
  let logLevel := ((environment "STYLEBOX_LOG_LEVEL").map Text.upper).getD initial.logLevel
  return { viewportWidth, mode, logLevel }

def level? (s : Settings) : Except LogLevelError LogLevel :=
  match LogLevel.ofWord? s.logLevel with
  | some level => .ok level
  | none => .error (.unknown s.logLevel)

end Settings

end BlockFlow
