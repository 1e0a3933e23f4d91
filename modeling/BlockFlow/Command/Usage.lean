import BlockFlow.Settings
import BlockFlow.Text.Similarity

/-! # Errors of usage -/

namespace BlockFlow

inductive UsageError
  | unknownOption (name : String) (suggestions : List String)
  | missingValue (option : String)
  | needlessValue (option : String)
  | notAChoice (option value : String) (choices : List String)
  | notANumber (option value : String)
  | missingCommand
  | unknownCommand (name : String)
  | missingArgument (argument : String)
  | noSuchFile (argument path : String)
  | notAFile (argument path : String)
  | extraArguments (arguments : List String)
  | logLevel (error : LogLevelError)
  deriving DecidableEq, Repr

namespace UsageError

def invalidValue (parameter problem : String) : String :=
  "Invalid value for " ++ Text.quote parameter ++ ": " ++ problem

def message : UsageError → String
  | unknownOption name suggestions =>
    let hint := match suggestions with
      | [] => ""
      | [option] => " Did you mean " ++ option ++ "?"
      | options =>
        " (Possible options: " ++ ", ".intercalate (options.mergeSort fun a b => a ≤ b) ++ ")"
    "No such option: " ++ name ++ hint
  | missingValue option => "Option " ++ Text.quote option ++ " requires an argument."
  | needlessValue option => "Option " ++ Text.quote option ++ " does not take a value."
  | notAChoice option value choices =>
    invalidValue option
      (Text.quote value ++ " is not one of " ++ ", ".intercalate (choices.map Text.quote) ++ ".")
  | notANumber option value => invalidValue option (Text.quote value ++ " is not a valid float.")
  | missingCommand => "Missing command."
  | unknownCommand name => "No such command " ++ Text.quote name ++ "."
  | missingArgument argument => "Missing argument " ++ Text.quote argument ++ "."
  | noSuchFile argument path =>
    invalidValue argument ("File " ++ Text.quote path ++ " does not exist.")
  | notAFile argument path =>
    invalidValue argument ("File " ++ Text.quote path ++ " is a directory.")
  | extraArguments arguments =>
    let word := if arguments.length = 1 then "argument" else "arguments"
    "Got unexpected extra " ++ word ++ " (" ++ " ".intercalate arguments ++ ")"
  | logLevel error => error.message

end UsageError

end BlockFlow
