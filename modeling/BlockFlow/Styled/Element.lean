import BlockFlow.Styled.Style

/-! # Styled elements

A tree of elements, each with a tag, which may be empty, and a style.
-/

namespace BlockFlow

inductive Element (ν : Type)
  | mk (tag : String) (style : Style ν) (children : List (Element ν))
  deriving Repr

namespace Element

variable {ν μ : Type}

def tag : Element ν → String
  | mk tag _ _ => tag

def style : Element ν → Style ν
  | mk _ style _ => style

def children : Element ν → List (Element ν)
  | mk _ _ children => children

def display (e : Element ν) : Display := e.style.display

mutual

def map (f : ν → μ) : Element ν → Element μ
  | mk tag style children => mk tag (style.map f) (mapAll f children)

def mapAll (f : ν → μ) : List (Element ν) → List (Element μ)
  | [] => []
  | e :: rest => map f e :: mapAll f rest

end

theorem mapAll_eq_map (f : ν → μ) (es : List (Element ν)) : mapAll f es = es.map (map f) := by
  induction es with
  | nil => rfl
  | cons e rest ih => simp [mapAll, ih]

end Element

end BlockFlow
