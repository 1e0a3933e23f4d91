import BlockFlow.Box.Layout
import BlockFlow.Number.Form
import BlockFlow.Sheet.Parse

/-! # Log records

What is worth a record can be read off a result: the warnings and the size of a style sheet, the
boxes that were generated, innermost first, and the blocks that were laid out, outermost first.
-/

namespace BlockFlow

/-- How important a record is; `notset` is below them all. -/
inductive LogLevel
  | notset
  | debug
  | info
  | warning
  | error
  | critical
  deriving DecidableEq, Repr

namespace LogLevel

def rank : LogLevel → Nat
  | notset => 0
  | debug => 10
  | info => 20
  | warning => 30
  | error => 40
  | critical => 50

def word : LogLevel → String
  | notset => "NOTSET"
  | debug => "DEBUG"
  | info => "INFO"
  | warning => "WARNING"
  | error => "ERROR"
  | critical => "CRITICAL"

/-- The level that a word in capitals names; two of them have a second name. -/
def ofWord? : String → Option LogLevel
  | "NOTSET" => some notset
  | "DEBUG" => some debug
  | "INFO" => some info
  | "WARN" | "WARNING" => some warning
  | "ERROR" => some error
  | "CRITICAL" | "FATAL" => some critical
  | _ => none

theorem ofWord?_word (l : LogLevel) : ofWord? l.word = some l := by
  cases l <;> rfl

end LogLevel

inductive LogSource
  | sheet
  | tree
  | generation
  | layout
  deriving DecidableEq, Repr

namespace LogSource

def name : LogSource → String
  | sheet => "stylebox.stylesheet.parser"
  | tree => "stylebox.style.loader"
  | generation => "stylebox.layout.builder"
  | layout => "stylebox.layout.block"

end LogSource

structure LogRecord where
  source : LogSource
  level : LogLevel
  message : String
  deriving DecidableEq, Repr

namespace LogRecord

def line (time : String) (r : LogRecord) : String :=
  " - ".intercalate [time, r.source.name, r.level.word, r.message] ++ "\n"

/-- The lines for the records that are at least as important as a level. -/
def lines (time : String) (threshold : LogLevel) (records : List LogRecord) : String :=
  String.join ((records.filter fun r => threshold.rank ≤ r.level.rank).map (line time))

end LogRecord

/-- The records for a style sheet that was read: its warnings, and its size if there was no
fault. -/
def Parsed.log (p : Parsed) : List LogRecord :=
  let warnings := p.diagnostics.map fun d => ⟨.sheet, .warning, d.text⟩
  match p.result with
  | .ok sheet =>
    let size := "Parsed " ++ toString sheet.rules.length ++ " rule(s), "
      ++ toString p.diagnostics.length ++ " diagnostic(s)"
    warnings ++ [⟨.sheet, .debug, size⟩]
  | .error _ => warnings

def LogRecord.treeLoaded (path : String) : LogRecord :=
  ⟨.tree, .debug, "Loaded styled tree from " ++ path⟩

def LogRecord.generated (type : BoxType) (children : Nat) : LogRecord :=
  ⟨.generation, .debug,
    "Built " ++ type.word ++ " box with " ++ toString children ++ " child box(es)"⟩

/-- The record for a block that was laid out in a containing block of some width. -/
def LogRecord.laidOut (containing : Float) (d : Dimensions Float) : LogRecord :=
  let write := Number.writeFixed 2
  ⟨.layout, .debug,
    "Used width " ++ write d.content.width ++ " (margin-left " ++ write d.margin.left
      ++ ", margin-right " ++ write d.margin.right ++ ") in " ++ write containing⟩

namespace Box

mutual

/-- The records for the boxes of a tree as they were generated: those in a box come before it, and
anonymous boxes have none. -/
def generationLog : Box Float → List LogRecord
  | mk .anonymous _ children => generationLogs children
  | mk kind _ children => generationLogs children ++ [.generated kind.type children.length]

def generationLogs : List (Box Float) → List LogRecord
  | [] => []
  | b :: rest => generationLog b ++ generationLogs rest

end

mutual

/-- The records for the blocks of a tree that were laid out in a containing block of some width: a
block comes before those in it. -/
def layoutLog (containing : Float) : Box Float → List LogRecord
  | mk (.block _) d children => .laidOut containing d :: layoutLogs d.content.width children
  | _ => []

def layoutLogs (containing : Float) : List (Box Float) → List LogRecord
  | [] => []
  | b :: rest => layoutLog containing b ++ layoutLogs containing rest

end

end Box

end BlockFlow
