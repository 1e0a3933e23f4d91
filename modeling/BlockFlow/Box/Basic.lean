import BlockFlow.Geometry.Dimensions
import BlockFlow.Styled.Element
import BlockFlow.Text.Quoted

/-! # Boxes

A block box and an inline box belong to an element, from which they take their style. An anonymous
box belongs to none: it gathers inline boxes among the children of a block.
-/

namespace BlockFlow

inductive BoxKind (ν : Type)
  | block (element : Element ν)
  | inline (element : Element ν)
  | anonymous
  deriving Repr

inductive BoxType
  | block
  | inline
  | anonymous
  deriving DecidableEq, Repr

/-- Why a box cannot be made, or has nothing to give. -/
inductive BoxError
  | unknownType (word : String)
  | missingElement (type : BoxType)
  | needlessElement
  | noStyle
  | hiddenRoot
  deriving DecidableEq, Repr

namespace BoxType

def word : BoxType → String
  | block => "block"
  | inline => "inline"
  | anonymous => "anonymous"

def ofWord? (word : String) : Except BoxError BoxType :=
  match [block, inline, anonymous].find? fun t => t.word = word with
  | some t => .ok t
  | none => .error (.unknownType word)

end BoxType

namespace BoxError

def message : BoxError → String
  | unknownType word => Text.quote word ++ " is not a valid BoxType"
  | missingElement type => type.word ++ " box requires a styled node"
  | needlessElement => "Anonymous block box cannot reference a styled node"
  | noStyle => "Anonymous block box has no style node"
  | hiddenRoot => "Root node has display: none"

end BoxError

namespace BoxKind

variable {ν : Type}

def type : BoxKind ν → BoxType
  | block _ => .block
  | inline _ => .inline
  | anonymous => .anonymous

def element? : BoxKind ν → Option (Element ν)
  | block e => some e
  | inline e => some e
  | anonymous => none

/-- The element of a box; an anonymous box has none. -/
def element : BoxKind ν → Except BoxError (Element ν)
  | block e => .ok e
  | inline e => .ok e
  | anonymous => .error .noStyle

/-- The kind of a box of a type: anonymous boxes take no element, and the others need one. -/
def of? : BoxType → Option (Element ν) → Except BoxError (BoxKind ν)
  | .block, some e => .ok (block e)
  | .inline, some e => .ok (inline e)
  | .anonymous, none => .ok anonymous
  | .anonymous, some _ => .error .needlessElement
  | type, none => .error (.missingElement type)

theorem exists_eq_block {kind : BoxKind ν} (h : kind.type = .block) : ∃ e, kind = .block e := by
  cases kind with
  | block e => exact ⟨e, rfl⟩
  | inline e => cases h
  | anonymous => cases h

theorem eq_anonymous {kind : BoxKind ν} (h : kind.type = .anonymous) : kind = .anonymous := by
  cases kind with
  | block e => cases h
  | inline e => cases h
  | anonymous => rfl

theorem exists_element_of_type_ne {kind : BoxKind ν} (h : kind.type ≠ .anonymous) :
    ∃ e, kind.element = .ok e ∧ kind.element? = some e := by
  cases kind with
  | block e => exact ⟨e, rfl, rfl⟩
  | inline e => exact ⟨e, rfl, rfl⟩
  | anonymous => exact absurd rfl h

/-- A box has an element, and with it a style, if and only if it is not anonymous. -/
theorem isSome_element?_iff {kind : BoxKind ν} : kind.element?.isSome ↔ kind.type ≠ .anonymous := by
  cases kind <;> simp [element?, type]

theorem of?_eq_ok_iff {type : BoxType} {element? : Option (Element ν)} {kind : BoxKind ν} :
    of? type element? = .ok kind ↔ kind.type = type ∧ kind.element? = element? := by
  cases kind <;> cases type <;> cases element? <;> simp [of?, BoxKind.type, BoxKind.element?, eq_comm]

theorem exists_of?_eq_ok_iff {type : BoxType} {element? : Option (Element ν)} :
    (∃ kind, of? type element? = .ok kind) ↔ (element?.isSome ↔ type ≠ .anonymous) := by
  cases type <;> cases element? <;> simp [of?]

end BoxKind

inductive Box (ν : Type)
  | mk (kind : BoxKind ν) (dimensions : Dimensions ν) (children : List (Box ν))
  deriving Repr

namespace Box

variable {ν : Type}

def kind : Box ν → BoxKind ν
  | mk kind _ _ => kind

def dimensions : Box ν → Dimensions ν
  | mk _ dimensions _ => dimensions

def children : Box ν → List (Box ν)
  | mk _ _ children => children

def type (b : Box ν) : BoxType := b.kind.type

def tag? (b : Box ν) : Option String := b.kind.element?.map Element.tag

end Box

end BlockFlow
