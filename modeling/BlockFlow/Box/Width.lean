import BlockFlow.Geometry.Scalar

/-! # Used widths

The width of a containing block is shared out between the width of a block and its two horizontal
margins. An `auto` width takes what is left over and is never negative. A width that is given leaves
the margins to make up the difference: two `auto` margins share it, one `auto` margin is zero, and
with none of them `auto` it is the right margin that gives way. What is given may already be too
wide; `auto` margins then count as zeros.
-/

namespace BlockFlow

structure WidthValues (ν : Type) where
  width : Value ν
  marginLeft : Value ν
  marginRight : Value ν
  borderLeft : Value ν
  borderRight : Value ν
  paddingLeft : Value ν
  paddingRight : Value ν

/-- The used width and margins, in pixels. -/
structure UsedWidth (ν : Type) where
  marginLeft : ν
  width : ν
  marginRight : ν
  deriving DecidableEq, Repr

namespace WidthValues

variable {ν : Type} [Scalar ν]

def initial : WidthValues ν :=
  let zero := .length Scalar.zero
  ⟨.auto, .auto, .auto, zero, zero, zero, zero⟩

def total (v : WidthValues ν) : ν :=
  Scalar.sum [v.marginLeft.pixels, v.marginRight.pixels, v.borderLeft.pixels, v.borderRight.pixels,
    v.paddingLeft.pixels, v.paddingRight.pixels, v.width.pixels]

def overflows (v : WidthValues ν) (containing : ν) : Bool :=
  !v.width.isAuto && Scalar.lt containing v.total

/-- The used width and margins in a containing block of the given width. -/
def used (v : WidthValues ν) (containing : ν) : UsedWidth ν :=
  let free := containing - v.total
  let left := v.marginLeft.pixels
  let right := v.marginRight.pixels
  if v.width.isAuto then
    if Scalar.le Scalar.zero free then ⟨left, free, right⟩ else ⟨left, Scalar.zero, right + free⟩
  else
    let leftAuto := v.marginLeft.isAuto && !v.overflows containing
    let rightAuto := v.marginRight.isAuto && !v.overflows containing
    let width := v.width.pixels
    match leftAuto, rightAuto with
    | true, true => ⟨Scalar.half free, width, Scalar.half free⟩
    | true, false => ⟨Scalar.zero, width, right⟩
    | false, true => ⟨left, width, Scalar.zero⟩
    | false, false => ⟨left, width, right + free⟩

end WidthValues

end BlockFlow
