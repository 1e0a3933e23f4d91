import BlockFlow.Proofs.Box.Flow
import BlockFlow.Proofs.Box.Origin
import BlockFlow.Proofs.Box.Width
import BlockFlow.Proofs.Sheet.Concatenation
import BlockFlow.Proofs.Styled.Exact

/-! # The geometry of documents is sane

In a tree that was loaded no length has a sign. Then no width, height or edge of a laid out block has
one, except perhaps the right margin, and each block starts inside its containing block. It ends
inside exactly if its right margin has no sign.
-/

namespace BlockFlow

open Grammar

/-! ## Styles without a sign -/

namespace Style.NonNegative

variable {s : Style Rat} (h : s.NonNegative)

include h

theorem pixels {name : String} {v : Value Rat} (hv : s.get? name = some v) : 0 ≤ v.pixels := by
  cases v with
  | length x => exact h name x hv
  | keyword name => exact le_refl _
  | color c => exact le_refl _

theorem getD {name : String} {default : Value Rat} (hDefault : 0 ≤ default.pixels) :
    0 ≤ ((s.get? name).getD default).pixels := by
  cases hGet : s.get? name with
  | none => exact hDefault
  | some v => exact h.pixels hGet

theorem lookup {name fallback : String} {default : Value Rat} (hDefault : 0 ≤ default.pixels) :
    0 ≤ (s.lookup name fallback default).pixels := by
  unfold Style.lookup
  cases hGet : s.get? name with
  | none => exact h.getD hDefault
  | some v => exact h.pixels hGet

theorem widthValues : s.widthValues.NonNegative where
  width := h.getD (le_refl _)
  marginLeft := h.lookup (le_refl _)
  marginRight := h.lookup (le_refl _)
  borderLeft := h.lookup (le_refl _)
  borderRight := h.lookup (le_refl _)
  paddingLeft := h.lookup (le_refl _)
  paddingRight := h.lookup (le_refl _)

theorem edge (name fallback : String) : 0 ≤ s.edge name fallback := h.lookup (le_refl _)

theorem height : ∀ y ∈ s.height?, 0 ≤ y := by
  intro y hy
  obtain ⟨v, hv, hPixels⟩ := Option.bind_eq_some_iff.mp hy
  cases v with
  | length x =>
    obtain rfl := Option.some.inj hPixels
    exact h "height" x hv
  | keyword name => cases hPixels
  | color c => cases hPixels

end Style.NonNegative

/-! ## Boxes without a sign -/

structure Edges.NonNegative (edges : Edges Rat) : Prop where
  left : 0 ≤ edges.left
  right : 0 ≤ edges.right
  top : 0 ≤ edges.top
  bottom : 0 ≤ edges.bottom

theorem Scalar.sum_nonneg {xs : List Rat} (h : ∀ x ∈ xs, 0 ≤ x) : 0 ≤ Scalar.sum xs := by
  have hFold : ∀ start : Rat, 0 ≤ start → 0 ≤ xs.foldl (· + ·) start := by
    induction xs with
    | nil => exact fun _ hStart => hStart
    | cons x rest ih =>
      obtain ⟨hx, hRest⟩ := List.forall_mem_cons.mp h
      exact fun start hStart => ih hRest (start + x) (add_nonneg hStart hx)
  exact hFold 0 (le_refl _)

namespace Box

/-- The geometry of a block that stands in the rectangle `content`. Its right margin alone may have
a sign, and says whether the block ends inside the rectangle. -/
structure Sane (content : Rect Rat) (b : Box Rat) : Prop where
  width : 0 ≤ b.dimensions.content.width
  height : 0 ≤ b.dimensions.content.height
  padding : b.dimensions.padding.NonNegative
  border : b.dimensions.border.NonNegative
  marginLeft : 0 ≤ b.dimensions.margin.left
  marginTop : 0 ≤ b.dimensions.margin.top
  marginBottom : 0 ≤ b.dimensions.margin.bottom
  x : content.x ≤ b.dimensions.content.x
  y : content.y ≤ b.dimensions.content.y
  left : content.x ≤ b.dimensions.borderBox.x
  inside : (content.x ≤ b.dimensions.borderBox.x ∧
      b.dimensions.borderBox.x + b.dimensions.borderBox.width ≤ content.x + content.width) ↔
    0 ≤ b.dimensions.margin.right

section Geometry

variable {style : Style Rat} {content : Rect Rat} {above : Rat} {b : Box Rat}

theorem Geometry.padding_nonNegative (h : b.Geometry style content above)
    (hStyle : style.NonNegative) : b.dimensions.padding.NonNegative := by
  rw [h.padding]
  exact ⟨hStyle.edge _ _, hStyle.edge _ _, hStyle.edge _ _, hStyle.edge _ _⟩

theorem Geometry.border_nonNegative (h : b.Geometry style content above)
    (hStyle : style.NonNegative) : b.dimensions.border.NonNegative := by
  rw [h.border]
  exact ⟨hStyle.edge _ _, hStyle.edge _ _, hStyle.edge _ _, hStyle.edge _ _⟩

theorem Geometry.height_nonneg (h : b.Geometry style content above) (hStyle : style.NonNegative)
    (hChildren : ∀ child ∈ b.children, 0 ≤ child.dimensions.marginBox.height) :
    0 ≤ b.dimensions.content.height := by
  rw [h.height]
  cases hHeight : style.height? with
  | some y => exact hStyle.height y hHeight
  | none =>
    apply Scalar.sum_nonneg
    intro y hy
    obtain ⟨child, hChild, rfl⟩ := List.mem_map.mp hy
    exact hChildren child hChild

theorem Geometry.marginBox_height_nonneg (h : b.Geometry style content above)
    (hStyle : style.NonNegative)
    (hChildren : ∀ child ∈ b.children, 0 ≤ child.dimensions.marginBox.height) :
    0 ≤ b.dimensions.marginBox.height := by
  have hHeight := h.height_nonneg hStyle hChildren
  have hPadding := h.padding_nonNegative hStyle
  have hBorder := h.border_nonNegative hStyle
  have hMarginBox : b.dimensions.marginBox.height = b.dimensions.content.height +
      b.dimensions.padding.top + b.dimensions.padding.bottom + b.dimensions.border.top +
      b.dimensions.border.bottom + b.dimensions.border.top + b.dimensions.border.bottom := rfl
  linarith [hPadding.top, hPadding.bottom, hBorder.top, hBorder.bottom]

theorem Geometry.usedBorderBox_eq (h : b.Geometry style content above) :
    style.widthValues.usedBorderBox content.width = b.dimensions.borderBox.width := by
  have hWidth : b.dimensions.borderBox.width =
      b.dimensions.content.width + b.dimensions.padding.left + b.dimensions.padding.right +
        b.dimensions.border.left + b.dimensions.border.right := rfl
  have hUsed : style.widthValues.usedBorderBox content.width =
      style.edge "border-left-width" "border-width" + style.edge "padding-left" "padding" +
        (style.widthValues.used content.width).width + style.edge "padding-right" "padding" +
        style.edge "border-right-width" "border-width" := rfl
  rw [hUsed, hWidth, h.widths, h.padding, h.border]
  dsimp only
  linarith

theorem Geometry.borderBox_x (h : b.Geometry style content above) :
    b.dimensions.borderBox.x = content.x + b.dimensions.margin.left := by
  have hX : b.dimensions.borderBox.x =
      b.dimensions.content.x - b.dimensions.padding.left - b.dimensions.border.left := rfl
  linarith [h.x]

theorem Geometry.sane (h : b.Geometry style content above) (hStyle : style.NonNegative)
    (hAbove : 0 ≤ above)
    (hChildren : ∀ child ∈ b.children, 0 ≤ child.dimensions.marginBox.height) :
    b.Sane content := by
  have hPadding := h.padding_nonNegative hStyle
  have hBorder := h.border_nonNegative hStyle
  have hValues := hStyle.widthValues
  have hWidth := hValues.used_width content.width
  have hLeft := hValues.used_marginLeft content.width
  have hFits := hValues.fits_iff content.width
  rw [h.usedBorderBox_eq, h.widths] at hFits
  rw [h.widths] at hWidth hLeft
  dsimp only at hFits hWidth hLeft
  have hX := h.borderBox_x
  have hMarginTop : 0 ≤ b.dimensions.margin.top := by
    rw [h.marginTop]
    exact hStyle.edge _ _
  have hMarginBottom : 0 ≤ b.dimensions.margin.bottom := by
    rw [h.marginBottom]
    exact hStyle.edge _ _
  have hStart : content.x ≤ b.dimensions.borderBox.x := by linarith
  constructor
  case width => exact hWidth
  case height => exact h.height_nonneg hStyle hChildren
  case padding => exact hPadding
  case border => exact hBorder
  case marginLeft => exact hLeft
  case marginTop => exact hMarginTop
  case marginBottom => exact hMarginBottom
  case x => linarith [h.x, hPadding.left, hBorder.left]
  case y => linarith [h.y, hPadding.top, hBorder.top]
  case left => exact hStart
  case inside =>
    rw [← hFits]
    constructor
    · rintro ⟨-, hEnd⟩
      linarith
    · intro hEnd
      exact ⟨hStart, by linarith⟩

end Geometry

/-! ## Trees without a sign -/

/-- A tree of boxes still without dimensions, in whose styles no length has a sign. -/
structure Unsigned (root : Box Rat) : Prop where
  fresh : root.Fresh
  styles : ∀ b, root.Holds b → ∀ e, b.kind.element? = some e → e.style.NonNegative

theorem Unsigned.of_holds {root b : Box Rat} (h : root.Unsigned) (hb : root.Holds b) : b.Unsigned where
  fresh := fun x hx => h.fresh x (hb.trans hx)
  styles := fun x hx => h.styles x (hb.trans hx)

theorem Unsigned.of_mem {root c : Box Rat} (h : root.Unsigned) (hc : c ∈ root.children) : c.Unsigned :=
  h.of_holds (.deeper hc .self)

theorem marginBox_height_of_fresh {b : Box Rat} (h : b.Fresh) : b.dimensions.marginBox.height = 0 := by
  have hZero : (Dimensions.zero : Dimensions Rat).marginBox.height = 0 + 0 + 0 + 0 + 0 + 0 + 0 := rfl
  rw [h b .self, hZero]
  norm_num

theorem marginBox_height_of_type_ne (containing : Dimensions Rat) {b : Box Rat} (h : b.Fresh)
    (hType : b.type ≠ .block) : (layout containing b).dimensions.marginBox.height = 0 := by
  rw [layout_of_type_ne containing hType, marginBox_height_of_fresh h]

mutual

theorem marginBox_height_layout (containing : Dimensions Rat) : ∀ b : Box Rat, b.Unsigned →
    0 ≤ (layout containing b).dimensions.marginBox.height
  | mk kind old children => by
    intro h
    have hOld : old = .zero := h.fresh _ .self
    cases kind with
    | block e =>
      have hGeometry : Geometry e.style containing.content containing.content.height
          (layout containing (mk (.block e) .zero children)) := geometry_layout rfl e children
      have hStyle : e.style.NonNegative := h.styles _ .self e rfl
      rw [hOld]
      apply hGeometry.marginBox_height_nonneg hStyle
      rw [layout_block]
      exact marginBox_height_layoutChildren _ children fun c hc => h.of_mem hc
    | inline e => exact (marginBox_height_of_type_ne containing h.fresh nofun).ge
    | anonymous => exact (marginBox_height_of_type_ne containing h.fresh nofun).ge

theorem marginBox_height_layoutChildren (d : Dimensions Rat) : ∀ bs : List (Box Rat),
    (∀ b ∈ bs, b.Unsigned) → ∀ c ∈ (layoutChildren d bs).1, 0 ≤ c.dimensions.marginBox.height
  | [] => by
    intro _ c hc
    rw [layoutChildren] at hc
    cases hc
  | b :: rest => by
    intro h c hc
    obtain ⟨hb, hRest⟩ := List.forall_mem_cons.mp h
    rw [layoutChildren_cons] at hc
    rcases List.mem_cons.mp hc with rfl | hc
    · exact marginBox_height_layout d b hb
    · exact marginBox_height_layoutChildren _ rest hRest c hc

end

theorem marginBox_height_of_mem_children (containing : Dimensions Rat) {b c : Box Rat}
    (h : b.Unsigned) (hc : c ∈ (layout containing b).children) :
    0 ≤ c.dimensions.marginBox.height := by
  by_cases hType : b.type = .block
  · obtain ⟨kind, old, children⟩ := b
    cases kind with
    | block e =>
      rw [layout_block] at hc
      exact marginBox_height_layoutChildren _ children (fun c hc => h.of_mem hc) c hc
    | inline e => cases hType
    | anonymous => cases hType
  · rw [layout_of_type_ne containing hType] at hc
    exact (marginBox_height_of_fresh (h.of_mem hc).fresh).ge

section Flow

variable {containing : Dimensions Rat} {outer content : Rect Rat} {fresh b : Box Rat}
  {before : List (Box Rat)} (hUnsigned : fresh.Unsigned)
  (hOuter : containing.content = { outer with height := Scalar.zero })

include hUnsigned hOuter

theorem InFlow.above_nonneg (h : InFlow outer (layout containing fresh) content before b) :
    0 ≤ Scalar.sum (before.map fun sibling => sibling.dimensions.marginBox.height) := by
  apply Scalar.sum_nonneg
  intro y hy
  obtain ⟨sibling, hSibling, rfl⟩ := List.mem_map.mp hy
  cases h with
  | root => cases hSibling
  | child hParent hBlock hSplit =>
    obtain ⟨d, parent₀, hHeld, rfl, -⟩ := hParent.exists_held hUnsigned.fresh hOuter
    apply marginBox_height_of_mem_children d (hUnsigned.of_holds hHeld)
    rw [hSplit]
    exact List.mem_append_left _ hSibling

theorem InFlow.sane (h : InFlow outer (layout containing fresh) content before b)
    (hBlock : b.type = .block) : b.Sane content := by
  have hAbove := h.above_nonneg hUnsigned hOuter
  obtain ⟨d, b₀, hHeld, rfl, hContent⟩ := h.exists_held hUnsigned.fresh hOuter
  rw [stacked_zero] at hContent
  have hUnsigned₀ := hUnsigned.of_holds hHeld
  have hChildren (c : Box Rat) (hc : c ∈ (layout d b₀).children) :=
    marginBox_height_of_mem_children d hUnsigned₀ hc
  rw [Box.type, kind_layout] at hBlock
  obtain ⟨kind, old, children⟩ := b₀
  cases kind with
  | block e =>
    obtain rfl : old = .zero := hUnsigned₀.fresh _ .self
    have hStyle : e.style.NonNegative := hUnsigned₀.styles _ .self e rfl
    exact (geometry_layout hContent e children).sane hStyle hAbove hChildren
  | inline e => cases hBlock
  | anonymous => cases hBlock

end Flow

end Box

theorem Element.unsigned_of_ofJson {value : Json} {e : Element Float} {root : Box Rat}
    (hLoad : ofJson value = .ok e) (hRoot : (e.map Number.exact).rootBox = .ok root) :
    root.Unsigned where
  fresh := fresh_of_rootBox hRoot
  styles := by
    intro b hb x hx
    obtain ⟨path, hPath⟩ := exists_path_of_rootBox hRoot hb hx
    exact nonNegative_of_ofJson hLoad hPath

/-- Laid out over the exact values of its lengths, a document that was loaded and whose root is a
block is sane: every block in the flow is. -/
theorem layout_sane {value : Json} {e : Element Float} (hLoad : Element.ofJson value = .ok e)
    (hBlock : e.display = .block) (containing : Dimensions Rat) :
    ∃ root, (e.map Number.exact).layout containing = .ok root ∧ ∀ content before b,
      Box.InFlow containing.content root content before b → b.type = .block → b.Sane content := by
  have hVisible : (e.map Number.exact).display ≠ .hidden := by
    rw [Element.display_map, hBlock]
    decide
  obtain ⟨fresh, hRoot⟩ := Element.exists_rootBox hVisible
  have hUnsigned := Element.unsigned_of_ofJson hLoad hRoot
  refine ⟨Box.layout (containing.withHeight Scalar.zero) fresh, ?_, ?_⟩
  · rw [Element.layout, hRoot]
    rfl
  · intro content before b hFlow hType
    exact hFlow.sane hUnsigned rfl hType

/-- A block of a given width in a viewport of 800. -/
theorem layout_sane_of_page :
    let page : Json := .object [("style", .string "display:block;width:9px;")]
    let display : Declaration Float := ⟨"display", .keyword "block"⟩
    let width : Declaration Float := ⟨"width", .length (numeralValue ['9'])⟩
    let e : Element Float := .mk "" (Style.ofDeclarations [display, width]) []
    Element.ofJson page = .ok e ∧ e.display = .block ∧
      ∃ root, (e.map Number.exact).layout (.ofViewport 800) = .ok root ∧ ∀ content before b,
        Box.InFlow (Dimensions.ofViewport 800).content root content before b → b.type = .block →
          b.Sane content := by
  intro page display width e
  have hDisplay : readDeclarations "display:block;".toList = .ok ([display], []) := by cbv
  have hWidth : readDeclarations "width:9px;".toList = .ok ([width], []) := by
    have hName : Name "width".toList [':'] :=
      ⟨by decide, List.all_eq_true.mp rfl, Ends.cons rfl _⟩
    have hUnit : Name "px".toList [';'] :=
      ⟨by decide, List.all_eq_true.mp rfl, Ends.cons rfl _⟩
    have hNumber : Grammar.Number ['9'] :=
      number_of_digits (List.cons_ne_nil _ _) (List.all_eq_true.mp rfl)
    have hDeclaration := IsDeclaration.mk hName .nil .nil (.length hNumber hUnit rfl) .nil
    have hNothing : readDeclarations [] = .ok ([], []) := by
      rw [readDeclarations_eq]
      rfl
    have hRead := readDeclarations_of_declaration .nil hDeclaration []
    rw [hNothing] at hRead
    exact hRead
  have hParse : Declaration.parseList "display:block;width:9px;" = .ok [display, width] := by
    have hBoth := readDeclarations_extend hDisplay "width:9px;".toList
    rw [hWidth] at hBoth
    exact Reading.result_eq_ok_iff.mpr ⟨[], hBoth⟩
  have hData : NodeData.ofJson page = .ok ⟨"", "display:block;width:9px;", []⟩ := by cbv
  have hLoad : Element.ofJson page = .ok e := by
    rw [Element.ofJson, Element.ofJsonAt_eq, hData]
    dsimp only
    rw [hParse, Element.ofJsonItems]
    rfl
  exact ⟨hLoad, rfl, layout_sane hLoad rfl _⟩

end BlockFlow
