import BlockFlow.Command.Usage

/-! # Options

An option is a name with two hyphens; its value is attached by an equals sign or is the next
argument, whatever that looks like. Two hyphens alone end the options. All other arguments are
positional, and a single hyphen is one of them.
-/

namespace BlockFlow

structure OptionSpec where
  name : String
  takesValue : Bool
  deriving DecidableEq, Repr

/-- The arguments of a command, told apart. -/
structure Arguments where
  /-- The options in their order, each with its value if it takes one. -/
  options : List (String × Option String)
  positional : List String
  deriving DecidableEq, Repr

namespace Arguments

def withOption (name : String) (value : Option String) (a : Arguments) : Arguments :=
  { a with options := (name, value) :: a.options }

def withPositional (argument : String) (a : Arguments) : Arguments :=
  { a with positional := argument :: a.positional }

def has (a : Arguments) (name : String) : Bool := a.options.any fun o => o.1 == name

def value? (a : Arguments) (name : String) : Option String :=
  (a.options.reverse.find? fun o => o.1 == name).bind (·.2)

end Arguments

namespace OptionSpec

def split (argument : String) : String × Option String :=
  let name := argument.toList.takeWhile (· != '=')
  match argument.toList.dropWhile (· != '=') with
  | _ :: value => (String.ofList name, some (String.ofList value))
  | [] => (String.ofList name, none)

def isWritten (argument : String) : Bool :=
  match argument.toList with
  | '-' :: _ :: _ => true
  | _ => false

/-- The error for an argument that is written like an option and names none. An argument with a
single hyphen is taken for one-letter options, of which the first is reported. -/
def unknown (specs : List OptionSpec) (argument : String) : UsageError :=
  let (name, _) := split argument
  match argument.toList with
  | '-' :: '-' :: _ => .unknownOption name (Text.suggestions name (specs.map OptionSpec.name))
  | '-' :: letter :: _ => .unknownOption (String.ofList ['-', letter]) []
  | _ => .unknownOption name []

end OptionSpec

/-- The arguments of a command with the given options. Unless options may follow positional
arguments, the first of these ends the options. -/
def Arguments.read (specs : List OptionSpec) (interspersed : Bool) :
    List String → Except UsageError Arguments
  | [] => .ok ⟨[], []⟩
  | argument :: rest =>
    if argument = "--" then .ok ⟨[], rest⟩
    else if OptionSpec.isWritten argument then
      let (name, attached) := OptionSpec.split argument
      match specs.find? fun spec => spec.name = name with
      | none => .error (OptionSpec.unknown specs argument)
      | some spec =>
        match spec.takesValue, attached, rest with
        | false, some _, _ => .error (.needlessValue name)
        | false, none, rest => (read specs interspersed rest).map (·.withOption name none)
        | true, some value, rest => (read specs interspersed rest).map (·.withOption name value)
        | true, none, value :: rest => (read specs interspersed rest).map (·.withOption name value)
        | true, none, [] => .error (.missingValue name)
    else if interspersed then (read specs interspersed rest).map (·.withPositional argument)
    else .ok ⟨[], argument :: rest⟩

end BlockFlow
