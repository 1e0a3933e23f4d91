import BlockFlow.Box.Generation
import BlockFlow.Box.Width

/-! # Block layout

A block is laid out in its containing block: its width first, then its place below what the
containing block already holds, then its children one after another, each of them adding the height
of its margin box to the height of the block, and last its own height if one is given. Boxes that
are not blocks keep their dimensions, and so does everything in them.

Nothing is reset before: the height that a box had is where the heights of its children are added.
-/

namespace BlockFlow

variable {ν : Type} [Scalar ν]

namespace Style

def widthValues (s : Style ν) : WidthValues ν :=
  let zero := .length Scalar.zero
  { width := (s.get? "width").getD .auto
    marginLeft := s.lookup "margin-left" "margin" .auto
    marginRight := s.lookup "margin-right" "margin" .auto
    borderLeft := s.lookup "border-left-width" "border-width" zero
    borderRight := s.lookup "border-right-width" "border-width" zero
    paddingLeft := s.lookup "padding-left" "padding" zero
    paddingRight := s.lookup "padding-right" "padding" zero }

/-- The pixels of a property that is zero unless it or its fallback is given. -/
def edge (s : Style ν) (name fallback : String) : ν :=
  (s.lookup name fallback (.length Scalar.zero)).pixels

/-- The height that is given in pixels, if one is. -/
def height? (s : Style ν) : Option ν := (s.get? "height").bind Value.pixels?

end Style

namespace Dimensions

/-- The dimensions of a block of the given style in a containing block, before its children are laid
out: all but the height, which is left as it was. -/
def place (containing : Dimensions ν) (style : Style ν) (old : Dimensions ν) : Dimensions ν :=
  let values := style.widthValues
  let used := values.used containing.content.width
  let padding : Edges ν :=
    { left := values.paddingLeft.pixels
      right := values.paddingRight.pixels
      top := style.edge "padding-top" "padding"
      bottom := style.edge "padding-bottom" "padding" }
  let border : Edges ν :=
    { left := values.borderLeft.pixels
      right := values.borderRight.pixels
      top := style.edge "border-top-width" "border-width"
      bottom := style.edge "border-bottom-width" "border-width" }
  let margin : Edges ν :=
    { left := used.marginLeft
      right := used.marginRight
      top := style.edge "margin-top" "margin"
      bottom := style.edge "margin-bottom" "margin" }
  { content :=
      { x := containing.content.x + margin.left + border.left + padding.left
        y := containing.content.y + containing.content.height + margin.top + border.top + padding.top
        width := used.width
        height := old.content.height }
    padding, border, margin }

/-- The dimensions of a block after one more child, whose own dimensions are given. -/
def grow (d child : Dimensions ν) : Dimensions ν :=
  d.withHeight (d.content.height + child.marginBox.height)

/-- The dimensions of a block with the height that its style gives, if it gives one. -/
def settle (d : Dimensions ν) (style : Style ν) : Dimensions ν :=
  match style.height? with
  | some height => d.withHeight height
  | none => d

end Dimensions

namespace Box

mutual

/-- A box laid out in a containing block: only blocks are. -/
def layout (containing : Dimensions ν) : Box ν → Box ν
  | mk (.block e) old children =>
    let (children, d) := layoutChildren (containing.place e.style old) children
    mk (.block e) (d.settle e.style) children
  | b => b

/-- The children of a block laid out one after another, and the dimensions of the block, whose
height grows with each of them. -/
def layoutChildren (d : Dimensions ν) : List (Box ν) → List (Box ν) × Dimensions ν
  | [] => ([], d)
  | b :: rest =>
    let b := layout d b
    let (rest, d) := layoutChildren (d.grow b.dimensions) rest
    (b :: rest, d)

end

/-- A box laid out as a block, be it one or not; an anonymous box has no style for it. -/
def layoutBlock (containing : Dimensions ν) : Box ν → Except BoxError (Box ν)
  | mk kind old children => do
    let e ← kind.element
    let (children, d) := layoutChildren (containing.place e.style old) children
    return mk kind (d.settle e.style) children

end Box

/-- The box tree of a document, laid out in a containing block whose height counts as zero. -/
def Element.layout (containing : Dimensions ν) (e : Element ν) : Except BoxError (Box ν) :=
  e.rootBox.map (Box.layout (containing.withHeight Scalar.zero))

end BlockFlow
