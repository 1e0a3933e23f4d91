import BlockFlow.Box.Basic

/-! # Generating boxes

Every visible element gets a box, and a hidden one is left out with everything in it. Among the
children of a block, neighbouring inline boxes are gathered in an anonymous box, so that a block
never has inline boxes beside others.
-/

namespace BlockFlow

variable {ν : Type} [Scalar ν]

/-- The children of a block with each longest run of inline boxes gathered in an anonymous box. -/
def gatherInlines : List (Box ν) → List (Box ν)
  | [] => []
  | b :: rest =>
    match b.type with
    | .inline =>
      match gatherInlines rest with
      | .mk .anonymous d run :: others => .mk .anonymous d (b :: run) :: others
      | others => .mk .anonymous .zero [b] :: others
    | _ => b :: gatherInlines rest

namespace Element

mutual

/-- The box of an element with the boxes in it, unless the element is hidden. -/
def box? : Element ν → Option (Box ν)
  | mk tag style children =>
    match style.display with
    | .block => some (.mk (.block (mk tag style children)) .zero (gatherInlines (boxes children)))
    | .inline => some (.mk (.inline (mk tag style children)) .zero (boxes children))
    | .hidden => none

def boxes : List (Element ν) → List (Box ν)
  | [] => []
  | e :: rest =>
    match box? e with
    | some b => b :: boxes rest
    | none => boxes rest

end

/-- The box of the root of a document, which must not be hidden. -/
def rootBox (e : Element ν) : Except BoxError (Box ν) :=
  match e.box? with
  | some b => .ok b
  | none => .error .hiddenRoot

theorem boxes_eq_filterMap (es : List (Element ν)) : boxes es = es.filterMap box? := by
  induction es with
  | nil => rfl
  | cons e rest ih =>
    rw [boxes, List.filterMap_cons]
    cases box? e <;> simp [ih]

end Element

end BlockFlow
