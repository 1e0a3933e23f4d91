import BlockFlow.Box.Layout
import BlockFlow.Json.Basic
import BlockFlow.Number.Form
import BlockFlow.Sheet.Parse

/-! # What the commands print

The rules of a style sheet, the result of checking one, and a box tree as an outline or as JSON.
-/

namespace BlockFlow

/-- Lines of text, each with its end. -/
def unlines (lines : List String) : String := String.join (lines.map (· ++ "\n"))

/-- A rule by its number, with its selectors, their ranks and its declarations. -/
def Rule.report (number : Nat) (r : Rule) : List String :=
  let selectors := r.selectors.map fun s =>
    let rank := s.specificity
    "  " ++ s.text ++ "  specificity=("
      ++ ",".intercalate [toString rank.ids, toString rank.classes, toString rank.tags] ++ ")"
  let declarations := r.declarations.map fun d => "    " ++ d.text
  ["", "Rule " ++ toString number ++ ":"] ++ selectors ++ declarations

def Stylesheet.report (name : String) (s : Stylesheet) : List String :=
  ["Stylesheet: " ++ name, "Rules: " ++ toString s.rules.length]
    ++ (s.rules.zipIdx 1).flatMap fun (r, i) => r.report i

/-- The result of checking a style sheet in which no fault was met. -/
def Stylesheet.checkReport (name : String) (s : Stylesheet) (diagnostics : List Diagnostic) :
    List String :=
  let rules := toString s.rules.length ++ " rule(s)"
  match diagnostics with
  | [] => ["OK: " ++ name ++ " is valid (" ++ rules ++ ")"]
  | ds =>
    ds.map Diagnostic.text
      ++ ["", "Summary: " ++ rules ++ ", " ++ toString ds.length ++ " skipped declaration(s)"]

namespace Box

/-- The label of a box: its type, and its tag if it has one. -/
def label (b : Box Float) : String :=
  match b.tag? with
  | some tag => if tag.isEmpty then b.type.word else b.type.word ++ " <" ++ tag ++ ">"
  | none => b.type.word

def outlineLine (depth : Nat) (b : Box Float) : String :=
  let write := Number.Form.outline.write
  let c := b.dimensions.content
  String.ofList (List.replicate (2 * depth) ' ') ++ b.label ++ "  x=" ++ write c.x
    ++ " y=" ++ write c.y ++ " width=" ++ write c.width ++ " height=" ++ write c.height

mutual

/-- The outline of a tree: each box further in than the one it is in. -/
def outline (depth : Nat) : Box Float → List String
  | mk kind d children => outlineLine depth (mk kind d children) :: outlines (depth + 1) children

def outlines (depth : Nat) : List (Box Float) → List String
  | [] => []
  | b :: rest => outline depth b ++ outlines depth rest

end

end Box

def Rect.toJson (r : Rect Float) : Json :=
  .object [("x", .real r.x), ("y", .real r.y), ("width", .real r.width), ("height", .real r.height)]

def Edges.toJson (e : Edges Float) : Json :=
  .object [("left", .real e.left), ("right", .real e.right), ("top", .real e.top),
    ("bottom", .real e.bottom)]

namespace Box

mutual

def toJson : Box Float → Json
  | mk kind d children =>
    .object
      [("type", .string kind.type.word),
        ("tag", ((kind.element?.map fun e => Json.string e.tag).getD .null)),
        ("content", d.content.toJson),
        ("padding_box", d.paddingBox.toJson),
        ("border_box", d.borderBox.toJson),
        ("margin_box", d.marginBox.toJson),
        ("margin", d.margin.toJson),
        ("children", .array (toJsons children))]

def toJsons : List (Box Float) → List Json
  | [] => []
  | b :: rest => toJson b :: toJsons rest

end

end Box

end BlockFlow
