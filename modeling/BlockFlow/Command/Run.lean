import BlockFlow.Command.Files
import BlockFlow.Command.Options
import BlockFlow.Command.Report
import BlockFlow.Json.Printer
import BlockFlow.Styled.Tree
import BlockFlow.Text.TerminalStyle

/-! # The commands

A run takes the arguments, the environment and the files that can be found, and gives an exit code
and two texts. The options before the command come first, then the command itself, the settings, and
only then the arguments of the command. Log records go to the second text, before the message that
ends a run which fails.
-/

namespace BlockFlow.Command

inductive Breakdown
  | settings (error : SettingsError)
  | beyond (limit : Json.Limit)
  | nullInPath
  deriving DecidableEq, Repr

def Breakdown.message : Breakdown → String
  | settings error => error.message
  | beyond limit => limit.message
  | nullInPath => "embedded null byte"

inductive Stop
  | misuse (error : UsageError)
  | breakdown (error : Breakdown)
  deriving DecidableEq, Repr

structure Result where
  exitCode : Nat
  output : String
  errors : String
  deriving DecidableEq, Repr

structure Context where
  time : String
  environment : String → Option String
  entry : String → FileEntry

/-- The text as it is printed, without terminal styling. -/
def printed (text : String) : String := String.ofList (Text.withoutStyles text.toList)

def Result.misused (e : UsageError) : Result := ⟨2, "", printed ("Error: " ++ e.message ++ "\n")⟩

def Result.done (log : String) (lines : List String) : Result := ⟨0, printed (unlines lines), log⟩

def Result.failed (log message : String) : Result := ⟨1, "", log ++ printed (message ++ "\n")⟩

def Result.help (usage : String) : Result := ⟨0, "Usage: " ++ usage ++ "\n", ""⟩

def version : String := "0.1.0"

def helpOption : OptionSpec := ⟨"--help", false⟩

def commonOptions : List OptionSpec := [⟨"--version", false⟩, ⟨"--log-level", true⟩, helpOption]

def choosableLevels : List LogLevel := [.debug, .info, .warning, .error, .critical]

/-- The level that an option chooses, in either case. -/
def chooseLevel (text : String) : Except UsageError LogLevel :=
  let word := String.ofList (text.toList.map Char.toUpper)
  match choosableLevels.find? fun level => level.word = word with
  | some level => .ok level
  | none => .error (.notAChoice "--log-level" text (choosableLevels.map LogLevel.word))

/-- The file that a command is about: the first positional argument, which must be the only one. -/
def fileArgument (entry : String → FileEntry) (name : String) (a : Arguments) :
    Except Stop (String × ByteArray) :=
  match a.positional with
  | [] => .error (.misuse (.missingArgument name))
  | path :: others =>
    if path.toList.contains '\x00' then .error (.breakdown .nullInPath)
    else match entry path with
      | .missing => .error (.misuse (.noSuchFile name path))
      | .directory => .error (.misuse (.notAFile name path))
      | .file bytes =>
        if others.isEmpty then .ok (path, bytes) else .error (.misuse (.extraArguments others))

/-- A style sheet file, read as text and then as a style sheet, with a report on what was read. -/
def readSheet (log : List LogRecord → String) (mode : Mode) (path : String) (bytes : ByteArray)
    (report : String → Stylesheet → List Diagnostic → List String) : Result :=
  let name := FilePath.fileName path
  match Text.decode bytes with
  | .error e => .failed "" ("Read error: " ++ name ++ " is not valid UTF-8: " ++ e.message)
  | .ok text =>
    let parsed := Stylesheet.parse mode (String.ofList text)
    match parsed.result with
    | .ok sheet => .done (log parsed.log) (report name sheet parsed.diagnostics)
    | .error e => .failed (log parsed.log) ("Parse error: " ++ e.message)

def runParse (ctx : Context) (log : List LogRecord → String) (arguments : List String) :
    Except Stop Result := do
  let a ← (Arguments.read [helpOption] true arguments).mapError .misuse
  if a.has "--help" then return .help "stylebox parse [OPTIONS] STYLESHEET"
  let (path, bytes) ← fileArgument ctx.entry "STYLESHEET" a
  return readSheet log .strict path bytes fun name sheet _ => sheet.report name

def validateOptions : List OptionSpec :=
  [⟨"--recover", false⟩, ⟨"--no-recover", false⟩, helpOption]

/-- The mode that the options choose last, or else the settings. -/
def chosenMode (settings : Settings) (a : Arguments) : Mode :=
  match a.options.reverse.find? fun o => o.1 == "--recover" || o.1 == "--no-recover" with
  | some (name, _) => if name = "--recover" then .recovering else .strict
  | none => settings.mode

def runValidate (ctx : Context) (settings : Settings) (log : List LogRecord → String)
    (arguments : List String) : Except Stop Result := do
  let a ← (Arguments.read validateOptions true arguments).mapError .misuse
  if a.has "--help" then return .help "stylebox validate [OPTIONS] STYLESHEET"
  let (path, bytes) ← fileArgument ctx.entry "STYLESHEET" a
  return readSheet log (chosenMode settings a) path bytes Stylesheet.checkReport

def layoutOptions : List OptionSpec := [⟨"--width", true⟩, ⟨"--json", false⟩, helpOption]

/-- The width that the options give, or else the settings. -/
def chosenWidth (settings : Settings) (a : Arguments) : Except UsageError Float :=
  match a.value? "--width" with
  | none => .ok settings.viewportWidth
  | some text =>
    match Number.read? text with
    | some width => .ok width
    | none => .error (.notANumber "--width" text)

inductive LayoutError
  | file (error : TreeFileError)
  | box (error : BoxError)
  deriving DecidableEq, Repr

def LayoutError.message : LayoutError → String
  | file error => error.message
  | box error => error.message

/-- The box tree of a file laid out in a viewport, with the records on the way, which end where a
fault is met. -/
def layoutFile (width : Float) (path : String) (bytes : ByteArray) :
    List LogRecord × Except LayoutError (Box Float) :=
  match Json.ofFile path bytes with
  | .error e => ([], .error (.file e))
  | .ok value =>
    let loaded := LogRecord.treeLoaded path
    match Element.ofJson value with
    | .error e => ([loaded], .error (.file (.tree e)))
    | .ok root =>
      match root.layout (.ofViewport width) with
      | .error e => ([loaded], .error (.box e))
      | .ok box => (loaded :: box.generationLog ++ box.layoutLog width, .ok box)

def runLayout (ctx : Context) (settings : Settings) (log : List LogRecord → String)
    (arguments : List String) : Except Stop Result := do
  let a ← (Arguments.read layoutOptions true arguments).mapError .misuse
  if a.has "--help" then return .help "stylebox layout [OPTIONS] TREE"
  let width ← (chosenWidth settings a).mapError .misuse
  let (path, bytes) ← fileArgument ctx.entry "TREE" a
  let (records, box?) := layoutFile width path bytes
  match box? with
  | .error (.file (.beyond limit)) => .error (.breakdown (.beyond limit))
  | .error e => return .failed (log records) ("Layout error: " ++ e.message)
  | .ok box =>
    return .done (log records)
      (if a.has "--json" then [box.toJson.write .indented] else box.outline 0)

inductive Name
  | parse
  | validate
  | layout
  deriving DecidableEq, Repr

def Name.ofWord? : String → Except UsageError Name
  | "parse" => .ok parse
  | "validate" => .ok validate
  | "layout" => .ok layout
  | word => .error (.unknownCommand word)

/-- A command with its arguments, once the settings are known. -/
def runNamed (ctx : Context) (settings : Settings) (level : LogLevel) (name : Name)
    (arguments : List String) : Except Stop Result :=
  let log := LogRecord.lines ctx.time level
  match name with
  | .parse => runParse ctx log arguments
  | .validate => runValidate ctx settings log arguments
  | .layout => runLayout ctx settings log arguments

inductive Request
  | version
  | help
  | command (level : Option LogLevel) (name : Name) (arguments : List String)
  deriving Repr

/-- The request that a command line makes. Asking for the version or for help comes before all else
that the options may say. -/
def Request.read (arguments : List String) : Except UsageError Request := do
  let a ← Arguments.read commonOptions false arguments
  match a.options.find? fun o => o.1 == "--version" || o.1 == "--help" with
  | some (name, _) => return if name = "--version" then .version else .help
  | none =>
    if arguments.isEmpty then return .help
    let level ← (a.value? "--log-level").mapM chooseLevel
    match a.positional with
    | [] => .error .missingCommand
    | word :: rest => return .command level (← Name.ofWord? word) rest

/-- The log level of a run: the one that an option chooses, or else the one of the settings. -/
def logLevel (settings : Settings) : Option LogLevel → Except UsageError LogLevel
  | some level => .ok level
  | none => settings.level?.mapError .logLevel

/-- A command, run with the settings of the environment. -/
def runWith (ctx : Context) (chosen : Option LogLevel) (name : Name) (arguments : List String) :
    Except Stop Result := do
  let settings ← (Settings.ofEnvironment? ctx.environment).mapError (.breakdown ∘ .settings)
  let level ← (logLevel settings chosen).mapError .misuse
  runNamed ctx settings level name arguments

/-- A request, answered. -/
def Request.answer (ctx : Context) : Request → Except Stop Result
  | version => .ok (.done "" ["stylebox, version " ++ Command.version])
  | help => .ok (.help "stylebox [OPTIONS] COMMAND [ARGS]...")
  | command chosen name arguments => runWith ctx chosen name arguments

/-- A run with the given arguments. It has a result however it was called. -/
def run (ctx : Context) (arguments : List String) : Except Breakdown Result :=
  match (Request.read arguments).mapError .misuse >>= Request.answer ctx with
  | .ok result => .ok result
  | .error (.misuse e) => .ok (.misused e)
  | .error (.breakdown e) => .error e

end BlockFlow.Command
