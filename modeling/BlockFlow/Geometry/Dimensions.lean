import BlockFlow.Geometry.Scalar

/-! # Rectangles and the boxes around content

A box has a content rectangle and three rings around it: padding, border and margin. The padding box
and the border box grow outward ring by ring. The margin box, by which siblings are stacked, is the
border box grown by the border once more; the margins are no part of it.
-/

namespace BlockFlow

/-- A rectangle with its sides along the axes; `y` grows downward. -/
structure Rect (ν : Type) where
  x : ν
  y : ν
  width : ν
  height : ν
  deriving DecidableEq, Repr

structure Edges (ν : Type) where
  left : ν
  right : ν
  top : ν
  bottom : ν
  deriving DecidableEq, Repr

/-- The content rectangle of a box, in the coordinates of the document, and its rings. -/
structure Dimensions (ν : Type) where
  content : Rect ν
  padding : Edges ν
  border : Edges ν
  margin : Edges ν
  deriving DecidableEq, Repr

variable {ν : Type} [Scalar ν]

def Rect.expandedBy (r : Rect ν) (e : Edges ν) : Rect ν where
  x := r.x - e.left
  y := r.y - e.top
  width := r.width + e.left + e.right
  height := r.height + e.top + e.bottom

def Rect.zero : Rect ν := ⟨Scalar.zero, Scalar.zero, Scalar.zero, Scalar.zero⟩

def Edges.zero : Edges ν := ⟨Scalar.zero, Scalar.zero, Scalar.zero, Scalar.zero⟩

namespace Dimensions

def zero : Dimensions ν := ⟨.zero, .zero, .zero, .zero⟩

/-- The containing block of a document: a viewport of the given width. -/
def ofViewport (width : ν) : Dimensions ν :=
  { zero with content := { Rect.zero with width } }

def paddingBox (d : Dimensions ν) : Rect ν := d.content.expandedBy d.padding

def borderBox (d : Dimensions ν) : Rect ν := d.paddingBox.expandedBy d.border

/-- The border box grown by the border once more: the room that a box takes among its siblings. -/
def marginBox (d : Dimensions ν) : Rect ν := d.borderBox.expandedBy d.border

def withHeight (d : Dimensions ν) (height : ν) : Dimensions ν :=
  { d with content := { d.content with height } }

end Dimensions

end BlockFlow
