import BlockFlow.Box.Layout
import BlockFlow.Proofs.Box.Fresh

/-! # The geometry of blocks in the flow

A block whose ancestors are all blocks is in the flow: it stands in the content of its parent, below
the boxes before it. Layout grows the height of the parent while it places them; what comes out
satisfies one set of equations in which only final dimensions occur.
-/

namespace BlockFlow

variable {ν : Type} [Scalar ν]

namespace Box

/-! ## Children one after another -/

/-- The height that some boxes take up, from a given height on. -/
def stacked (height : ν) (boxes : List (Box ν)) : ν :=
  boxes.foldl (fun height b => height + b.dimensions.marginBox.height) height

theorem stacked_zero (boxes : List (Box ν)) :
    stacked Scalar.zero boxes = Scalar.sum (boxes.map fun b => b.dimensions.marginBox.height) := by
  rw [stacked, Scalar.sum, List.foldl_map]

theorem layoutChildren_cons (d : Dimensions ν) (b : Box ν) (rest : List (Box ν)) :
    layoutChildren d (b :: rest) =
      (layout d b :: (layoutChildren (d.grow (layout d b).dimensions) rest).1,
        (layoutChildren (d.grow (layout d b).dimensions) rest).2) := by
  rw [layoutChildren]

/-- Laying out its children changes the height of a block and nothing else. -/
theorem layoutChildren_snd (d : Dimensions ν) (bs : List (Box ν)) :
    (layoutChildren d bs).2 =
      d.withHeight (stacked d.content.height (layoutChildren d bs).1) := by
  induction bs generalizing d with
  | nil => rfl
  | cons b rest ih =>
    rw [layoutChildren_cons]
    dsimp only
    rw [ih]
    rfl

/-- A child is laid out in the block as the children before it have left it. -/
theorem layoutChildren_split {d : Dimensions ν} {bs before after : List (Box ν)} {b : Box ν}
    (h : (layoutChildren d bs).1 = before ++ b :: after) :
    ∃ b₀ ∈ bs, b = layout (d.withHeight (stacked d.content.height before)) b₀ := by
  induction bs generalizing d before with
  | nil =>
    cases before with
    | nil => cases h
    | cons c before => cases h
  | cons b₁ rest ih =>
    rw [layoutChildren_cons] at h
    cases before with
    | nil =>
      obtain ⟨rfl, -⟩ := List.cons.inj h
      exact ⟨b₁, List.mem_cons_self, rfl⟩
    | cons c before =>
      obtain ⟨rfl, hRest⟩ := List.cons.inj h
      obtain ⟨b₀, hMem, hb⟩ := ih hRest
      exact ⟨b₀, List.mem_cons_of_mem _ hMem, hb⟩

/-! ## One box -/

omit [Scalar ν] in
theorem settle_eq (d : Dimensions ν) (style : Style ν) :
    d.settle style = d.withHeight (style.height?.getD d.content.height) := by
  cases h : style.height? with
  | none => rw [Dimensions.settle, h]; rfl
  | some height => rw [Dimensions.settle, h]; rfl

theorem layout_block (containing : Dimensions ν) (e : Element ν) (old : Dimensions ν)
    (children : List (Box ν)) : layout containing (mk (.block e) old children) =
      mk (.block e)
        ((layoutChildren (containing.place e.style old) children).2.settle e.style)
        (layoutChildren (containing.place e.style old) children).1 := by
  rw [layout]

theorem layout_of_type_ne (containing : Dimensions ν) {b : Box ν} (h : b.type ≠ .block) :
    layout containing b = b := by
  obtain ⟨kind, dimensions, children⟩ := b
  cases kind with
  | block e => exact absurd rfl h
  | inline e => rw [layout]; nofun
  | anonymous => rw [layout]; nofun

mutual

/-- Layout neither adds boxes nor takes any away. -/
theorem bare_layout (containing : Dimensions ν) : ∀ b : Box ν, (layout containing b).bare = b.bare
  | mk kind old children => by
    cases kind with
    | block e => rw [layout_block, bare, bare, bareAll_layoutChildren]
    | inline e =>
      have hType : (mk (.inline e) old children).type ≠ .block := nofun
      rw [layout_of_type_ne containing hType]
    | anonymous =>
      have hType : (mk .anonymous old children).type ≠ .block := nofun
      rw [layout_of_type_ne containing hType]

theorem bareAll_layoutChildren (d : Dimensions ν) :
    ∀ bs : List (Box ν), bareAll (layoutChildren d bs).1 = bareAll bs
  | [] => by rw [layoutChildren]
  | b :: rest => by
    rw [layoutChildren_cons, bareAll, bareAll, bare_layout, bareAll_layoutChildren]

end

theorem kind_layout (containing : Dimensions ν) (b : Box ν) :
    (layout containing b).kind = b.kind := by
  rw [← kind_bare, bare_layout, kind_bare]

/-! ## The flow -/

/-- The box `b` is in the flow of the tree below `root`: it stands in the rectangle `content`, below
the boxes `before`. The root is in the flow, and so are the children of a block that is. -/
inductive InFlow (outer : Rect ν) (root : Box ν) : Rect ν → List (Box ν) → Box ν → Prop
  | root : InFlow outer root outer [] root
  | child {content above parent before b after} : InFlow outer root content above parent →
      parent.type = .block → parent.children = before ++ b :: after →
      InFlow outer root parent.dimensions.content before b

/-- What layout has done to a box in the flow: it was laid out in a block that had the content which
it has in the end, except for the height that was reached. -/
theorem InFlow.exists_held {containing : Dimensions ν} {outer content : Rect ν} {fresh b : Box ν}
    {before : List (Box ν)} (hFresh : fresh.Fresh)
    (hOuter : containing.content = { outer with height := Scalar.zero })
    (h : InFlow outer (layout containing fresh) content before b) :
    ∃ d b₀, fresh.Holds b₀ ∧ b = layout d b₀ ∧
      d.content = { content with height := stacked Scalar.zero before } := by
  induction h with
  | root => exact ⟨containing, fresh, .self, rfl, hOuter⟩
  | @child content above parent before b after _ hBlock hSplit ih =>
    obtain ⟨d, ⟨kind, old, children⟩, hHeld, rfl, -⟩ := ih
    rw [Box.type, kind_layout] at hBlock
    have hOld : old = .zero := hFresh _ hHeld
    cases kind with
    | block e =>
      rw [layout_block] at hSplit
      obtain ⟨b₀, hMem, rfl⟩ := layoutChildren_split hSplit
      refine ⟨_, b₀, hHeld.trans (.deeper hMem .self), rfl, ?_⟩
      rw [layout_block, settle_eq, layoutChildren_snd, hOld]
      rfl
    | inline e => cases hBlock
    | anonymous => cases hBlock

theorem InFlow.laid {containing : Dimensions ν} {outer content : Rect ν} {fresh b : Box ν}
    {before : List (Box ν)} (hFresh : fresh.Fresh)
    (hOuter : containing.content = { outer with height := Scalar.zero })
    (h : InFlow outer (layout containing fresh) content before b) :
    ∃ d b₀, b₀.Fresh ∧ b = layout d b₀ ∧
      d.content = { content with height := stacked Scalar.zero before } := by
  obtain ⟨d, b₀, hHeld, hLaid, hContent⟩ := h.exists_held hFresh hOuter
  exact ⟨d, b₀, fun x hx => hFresh x (hHeld.trans hx), hLaid, hContent⟩

/-- The geometry of a block of the given style that stands in a rectangle, below what takes up the
height `above` of it. -/
structure Geometry (style : Style ν) (content : Rect ν) (above : ν) (b : Box ν) : Prop where
  widths : style.widthValues.used content.width =
    ⟨b.dimensions.margin.left, b.dimensions.content.width, b.dimensions.margin.right⟩
  padding : b.dimensions.padding =
    { left := style.edge "padding-left" "padding"
      right := style.edge "padding-right" "padding"
      top := style.edge "padding-top" "padding"
      bottom := style.edge "padding-bottom" "padding" }
  border : b.dimensions.border =
    { left := style.edge "border-left-width" "border-width"
      right := style.edge "border-right-width" "border-width"
      top := style.edge "border-top-width" "border-width"
      bottom := style.edge "border-bottom-width" "border-width" }
  marginTop : b.dimensions.margin.top = style.edge "margin-top" "margin"
  marginBottom : b.dimensions.margin.bottom = style.edge "margin-bottom" "margin"
  x : b.dimensions.content.x =
    content.x + b.dimensions.margin.left + b.dimensions.border.left + b.dimensions.padding.left
  y : b.dimensions.content.y =
    content.y + above + b.dimensions.margin.top + b.dimensions.border.top + b.dimensions.padding.top
  height : b.dimensions.content.height = style.height?.getD
    (Scalar.sum (b.children.map fun child => child.dimensions.marginBox.height))

theorem geometry_layout {containing : Dimensions ν} {content : Rect ν} {above : ν}
    (h : containing.content = { content with height := above }) (e : Element ν)
    (children : List (Box ν)) :
    Geometry e.style content above (layout containing (mk (.block e) .zero children)) := by
  obtain ⟨outer, padding, border, margin⟩ := containing
  obtain rfl : outer = { content with height := above } := h
  rw [layout_block, settle_eq, layoutChildren_snd]
  constructor
  case height =>
    dsimp only [Box.children]
    rw [← stacked_zero]
    rfl
  all_goals rfl

theorem InFlow.geometry {containing : Dimensions ν} {outer content : Rect ν} {fresh b : Box ν}
    {before : List (Box ν)} {e : Element ν} (hFresh : fresh.Fresh)
    (hOuter : containing.content = { outer with height := Scalar.zero })
    (h : InFlow outer (layout containing fresh) content before b) (hKind : b.kind = .block e) :
    b.Geometry e.style content
      (Scalar.sum (before.map fun sibling => sibling.dimensions.marginBox.height)) := by
  obtain ⟨d, ⟨kind, old, children⟩, hFresh₀, rfl, hContent⟩ := h.laid hFresh hOuter
  rw [stacked_zero] at hContent
  rw [kind_layout] at hKind
  obtain rfl : kind = .block e := hKind
  obtain rfl : old = .zero := (fresh_iff.mp hFresh₀).1
  exact geometry_layout hContent e children

end Box

/-- Layout gives the boxes of a document the geometry that their styles determine: each block in the
flow has it, and no other box has any dimensions. -/
theorem layout_geometry (containing : Dimensions ν) {e : Element ν} (h : e.display ≠ .hidden) :
    ∃ root, e.layout containing = .ok root ∧ e.rootBox = .ok root.bare ∧ ∀ content before b,
      Box.InFlow containing.content root content before b →
      (∀ e' : Element ν, b.kind = .block e' → b.Geometry e'.style content
        (Scalar.sum (before.map fun sibling => sibling.dimensions.marginBox.height))) ∧
      (b.type ≠ .block → ∀ x, b.Holds x → x.dimensions = .zero) := by
  obtain ⟨fresh, hRoot⟩ := Element.exists_rootBox h
  have hFresh := Element.fresh_of_rootBox hRoot
  refine ⟨Box.layout (containing.withHeight Scalar.zero) fresh, ?_, ?_, ?_⟩
  · rw [Element.layout, hRoot]
    rfl
  · rw [hRoot, Box.bare_layout, hFresh.bare_eq]
  · intro content before b hFlow
    obtain ⟨d, b₀, hFresh₀, rfl, hContent⟩ := hFlow.laid hFresh rfl
    rw [Box.stacked_zero] at hContent
    constructor
    · intro e' hKind
      rw [Box.kind_layout] at hKind
      obtain ⟨kind, old, children⟩ := b₀
      obtain rfl : kind = .block e' := hKind
      obtain rfl : old = .zero := (Box.fresh_iff.mp hFresh₀).1
      exact Box.geometry_layout hContent e' children
    · intro hType x hx
      rw [Box.type, Box.kind_layout] at hType
      rw [Box.layout_of_type_ne d hType] at hx
      exact hFresh₀ x hx

/-- A page of 800 with a padded paragraph and a word in it. -/
theorem layout_geometry_of_page :
    let word : Element Rat := .mk "em" ⟨[]⟩ []
    let paragraph : Element Rat :=
      .mk "p" ⟨[("display", .keyword "block"), ("padding", .length 8)]⟩ [word]
    let page : Element Rat := .mk "body" ⟨[("display", .keyword "block")]⟩ [paragraph, paragraph]
    page.display ≠ .hidden ∧ ∃ root, page.layout (.ofViewport 800) = .ok root ∧
      page.rootBox = .ok root.bare ∧
      ∀ content before b, Box.InFlow (Dimensions.ofViewport 800).content root content before b →
        (∀ e' : Element Rat, b.kind = .block e' → b.Geometry e'.style content
          (Scalar.sum (before.map fun sibling => sibling.dimensions.marginBox.height))) ∧
        (b.type ≠ .block → ∀ x, b.Holds x → x.dimensions = .zero) :=
  ⟨by decide, layout_geometry _ (by decide)⟩

end BlockFlow
