/-! # Terminal styling

What a command prints carries no terminal styling: a control sequence that starts with an escape and
an opening bracket, goes on with digits and separators, and ends in a letter is left out. A sequence
that is cut short is ordinary text.
-/

namespace BlockFlow.Text

/-- A character between the opening bracket and the final letter of a control sequence. -/
def isStyleParameter (c : Char) : Bool :=
  c.isDigit || c == ';' || c == '?'

/-- What follows a control sequence, given the text after its opening bracket. -/
def afterStyle? (text : List Char) : Option (List Char) :=
  match text.dropWhile isStyleParameter with
  | c :: rest => if c.isAlpha then some rest else none
  | [] => none

theorem length_afterStyle? {text rest : List Char} (h : afterStyle? text = some rest) :
    rest.length < text.length := by
  have hle := (List.dropWhile_sublist (l := text) isStyleParameter).length_le
  unfold afterStyle? at h
  split at h
  · next c r heq =>
    rw [heq, List.length_cons] at hle
    split at h
    · obtain rfl := Option.some.inj h
      omega
    · cases h
  · cases h

def withoutStyles : List Char → List Char
  | [] => []
  | '\x1b' :: '[' :: body =>
    match _h : afterStyle? body with
    | some rest => withoutStyles rest
    | none => '\x1b' :: withoutStyles ('[' :: body)
  | c :: rest => c :: withoutStyles rest
termination_by text => text.length
decreasing_by
  · have := length_afterStyle? _h
    simp only [List.length_cons]
    omega
  · simp
  · simp

end BlockFlow.Text
