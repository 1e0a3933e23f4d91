/-! # Lines and columns

A place counts lines and columns from one. Only the line feed ends a line, and every other
character is one column wide.
-/

namespace BlockFlow.Text

/-- A line and a column, both counted from one. -/
structure Place where
  line : Nat
  column : Nat
  deriving DecidableEq, Repr

namespace Place

def start : Place := ⟨1, 1⟩

def advance (p : Place) (c : Char) : Place :=
  if c = '\n' then ⟨p.line + 1, 1⟩ else ⟨p.line, p.column + 1⟩

def after (text : List Char) : Place :=
  text.foldl advance start

/-- The place in `source` at which `rest`, an end of it, begins. -/
def within (source rest : List Char) : Place :=
  after (source.take (source.length - rest.length))

theorem after_concat (text : List Char) (c : Char) :
    after (text ++ [c]) = (after text).advance c := by
  simp [after]

/-- The place at which an end of the source begins is the place after what precedes it. -/
theorem within_append (before rest : List Char) : within (before ++ rest) rest = after before := by
  simp [within]

end Place

end BlockFlow.Text
