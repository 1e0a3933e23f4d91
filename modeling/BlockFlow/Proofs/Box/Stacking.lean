import BlockFlow.Proofs.Box.Blocks
import BlockFlow.Proofs.Box.Sanity

/-! # How blocks are stacked

Among its siblings a block takes the room of its border box with the borders above and below it once
more; margins take none. So a block does not start where the one before it ends: the borders of the
first push the second down, its own margin pulls it up, and with a large margin the two overlap.
-/

namespace BlockFlow

/-- Where a rectangle ends, downward. -/
def Rect.bottom (r : Rect Rat) : Rat := r.y + r.height

namespace Box

/-- The height that a block takes among its siblings. -/
def room (b : Box Rat) : Rat :=
  b.dimensions.borderBox.height + b.dimensions.border.top + b.dimensions.border.bottom

/-- How the block children of a block of the given style stand below each other, whatever stands
between them. Without a given height the block ends where the room of the last of them does. -/
structure Stacking (style : Style Rat) (parent : Box Rat) : Prop where
  first : ∀ (a : Box Rat) (after : List (Box Rat)), parent.blocks = a :: after →
    a.dimensions.borderBox.y = parent.dimensions.content.y + a.dimensions.margin.top
  gap : ∀ (before : List (Box Rat)) (a b : Box Rat) (after : List (Box Rat)),
    parent.blocks = before ++ a :: b :: after →
    b.dimensions.borderBox.y - a.dimensions.borderBox.bottom =
      a.dimensions.border.top + a.dimensions.border.bottom + b.dimensions.margin.top -
        a.dimensions.margin.top
  overlap : ∀ (before : List (Box Rat)) (a b : Box Rat) (after : List (Box Rat)),
    parent.blocks = before ++ a :: b :: after →
    (b.dimensions.borderBox.y < a.dimensions.borderBox.bottom ↔
      a.dimensions.border.top + a.dimensions.border.bottom + b.dimensions.margin.top <
        a.dimensions.margin.top)
  last : style.height? = none →
    ∀ (before : List (Box Rat)) (a : Box Rat), parent.blocks = before ++ [a] →
    parent.dimensions.content.bottom - a.dimensions.borderBox.bottom =
      a.dimensions.border.top + a.dimensions.border.bottom - a.dimensions.margin.top
  height : style.height? = none →
    parent.dimensions.content.height = Scalar.sum (parent.blocks.map room)

/-! ## Only blocks take room -/

theorem sum_append_singleton (xs : List Rat) (x : Rat) :
    Scalar.sum (xs ++ [x]) = Scalar.sum xs + x := by
  rw [Scalar.sum, List.foldl_append]
  rfl

/-- Boxes without a height can be left out of a sum of heights. -/
theorem sum_filter {bs : List (Box Rat)}
    (h : ∀ b ∈ bs, b.type ≠ .block → b.dimensions.marginBox.height = 0) :
    Scalar.sum (bs.map fun b => b.dimensions.marginBox.height) =
      Scalar.sum ((bs.filter isBlock).map room) := by
  -- from the end, since that is where the sum grows
  induction bs using List.reverseRecOn with
  | nil => rfl
  | append_singleton bs b ih =>
    have hBs := ih fun c hc => h c (List.mem_append_left _ hc)
    rw [List.map_append, List.map_singleton, sum_append_singleton, hBs, List.filter_append]
    by_cases hBlock : b.type = .block
    · have hTrue : b.isBlock = true := decide_eq_true hBlock
      rw [List.filter_cons_of_pos hTrue, List.filter_nil, List.map_append, List.map_singleton,
        sum_append_singleton]
      rfl
    · have hFalse : ¬ b.isBlock = true := by simpa [isBlock] using hBlock
      rw [List.filter_cons_of_neg hFalse, List.filter_nil, List.append_nil,
        h b List.mem_concat_self hBlock, add_zero]

theorem children_eq_of_blocks {parent a : Box Rat} {before after : List (Box Rat)}
    (h : parent.blocks = before ++ a :: after) :
    a.type = .block ∧ ∃ above below, parent.children = above ++ a :: below ∧
      above.filter isBlock = before := by
  obtain ⟨left, right, hChildren, hLeft, hRight⟩ := List.filter_eq_append_iff.mp h
  obtain ⟨skipped, below, rfl, hSkipped, hBlock, -⟩ := List.filter_eq_cons_iff.mp hRight
  refine ⟨of_decide_eq_true hBlock, left ++ skipped, below, ?_, ?_⟩
  · rw [hChildren, List.append_assoc]
  · rw [List.filter_append, hLeft, List.filter_eq_nil_iff.mpr hSkipped, List.append_nil]

section Flow

variable {containing : Dimensions Rat} {outer content : Rect Rat} {fresh parent : Box Rat}
  {above : List (Box Rat)} (hFresh : fresh.Fresh)
  (hOuter : containing.content = { outer with height := Scalar.zero })
  (hParent : InFlow outer (layout containing fresh) content above parent)
  {x : Element Rat} (hKind : parent.kind = .block x)

include hFresh hOuter hParent hKind

theorem InFlow.marginBox_height_of_mem {b : Box Rat} (hb : b ∈ parent.children)
    (hType : b.type ≠ .block) : b.dimensions.marginBox.height = 0 := by
  obtain ⟨before, after, hSplit⟩ := List.append_of_mem hb
  have hBlock : parent.type = .block := congrArg BoxKind.type hKind
  obtain ⟨d, b₀, hFresh₀, rfl, -⟩ := (hParent.child hBlock hSplit).laid hFresh hOuter
  rw [type, kind_layout] at hType
  exact marginBox_height_of_type_ne d hFresh₀ hType

/-- A block stands below the room of the blocks before it, and its top margin below that. -/
theorem InFlow.borderBox_y {before after : List (Box Rat)} {a : Box Rat}
    (hBlocks : parent.blocks = before ++ a :: after) :
    a.dimensions.borderBox.y = parent.dimensions.content.y + Scalar.sum (before.map room) +
      a.dimensions.margin.top := by
  obtain ⟨hBlock, above, below, hChildren, rfl⟩ := children_eq_of_blocks hBlocks
  have hFlow := hParent.child (congrArg BoxKind.type hKind) hChildren
  have hFlat : ∀ b ∈ above, b.type ≠ .block → b.dimensions.marginBox.height = 0 := by
    intro b hb
    apply hParent.marginBox_height_of_mem hFresh hOuter hKind
    rw [hChildren]
    exact List.mem_append_left _ hb
  obtain ⟨y, hy⟩ := BoxKind.exists_eq_block hBlock
  have hY := (hFlow.geometry hFresh hOuter hy).y
  have hBorder : a.dimensions.borderBox.y =
      a.dimensions.content.y - a.dimensions.padding.top - a.dimensions.border.top := rfl
  rw [sum_filter hFlat] at hY
  linarith

theorem InFlow.height_eq (hAuto : x.style.height? = none) :
    parent.dimensions.content.height = Scalar.sum (parent.blocks.map room) := by
  have hHeight := (hParent.geometry hFresh hOuter hKind).height
  rw [hAuto, Option.getD_none] at hHeight
  rw [hHeight, blocks]
  exact sum_filter fun b hb => hParent.marginBox_height_of_mem hFresh hOuter hKind hb

theorem InFlow.stacking : parent.Stacking x.style := by
  have hPlaced (before : List (Box Rat)) (a : Box Rat) (after : List (Box Rat))
      (hBlocks : parent.blocks = before ++ a :: after) :=
    hParent.borderBox_y hFresh hOuter hKind hBlocks
  have hGap (before : List (Box Rat)) (a b : Box Rat) (after : List (Box Rat))
      (hBlocks : parent.blocks = before ++ a :: b :: after) :
      b.dimensions.borderBox.y - a.dimensions.borderBox.bottom =
        a.dimensions.border.top + a.dimensions.border.bottom + b.dimensions.margin.top -
          a.dimensions.margin.top := by
    have hA := hPlaced before a (b :: after) hBlocks
    have hB := hPlaced (before ++ [a]) b after (by rw [hBlocks, List.append_assoc]; rfl)
    rw [List.map_append, List.map_singleton, sum_append_singleton, room] at hB
    rw [Rect.bottom]
    linarith
  constructor
  case first =>
    intro a after hBlocks
    have hA := hPlaced [] a after hBlocks
    have hNone : Scalar.sum (([] : List (Box Rat)).map room) = 0 := rfl
    linarith
  case gap => exact hGap
  case overlap =>
    intro before a b after hBlocks
    have hApart := hGap before a b after hBlocks
    constructor
    · intro hOver
      linarith
    · intro hMargin
      linarith
  case last =>
    intro hAuto before a hBlocks
    have hA := hPlaced before a [] hBlocks
    have hHeight := hParent.height_eq hFresh hOuter hKind hAuto
    rw [hBlocks, List.map_append, List.map_singleton, sum_append_singleton, room] at hHeight
    rw [Rect.bottom, Rect.bottom]
    linarith
  case height => exact hParent.height_eq hFresh hOuter hKind

end Flow

end Box

/-- In a document that was laid out, the block children of every block in the flow are stacked. -/
theorem layout_stacking (containing : Dimensions Rat) {e : Element Rat} (h : e.display ≠ .hidden) :
    ∃ root, e.layout containing = .ok root ∧ ∀ content above parent,
      Box.InFlow containing.content root content above parent →
        ∀ x, parent.kind = .block x → parent.Stacking x.style := by
  obtain ⟨fresh, hRoot⟩ := Element.exists_rootBox h
  have hFresh := Element.fresh_of_rootBox hRoot
  refine ⟨Box.layout (containing.withHeight Scalar.zero) fresh, ?_, ?_⟩
  · rw [Element.layout, hRoot]
    rfl
  · intro content above parent hFlow x hKind
    exact hFlow.stacking hFresh rfl hKind

/-- A paragraph whose top margin is wider than its borders, a word, and a note, which starts above the
end of the paragraph. -/
theorem layout_stacking_of_page :
    let block : String × Value Rat := ("display", .keyword "block")
    let word : Element Rat := .mk "em" ⟨[]⟩ []
    let paragraph : Element Rat := .mk "p" ⟨[block, ("margin-top", .length 20),
      ("border-width", .length 3), ("height", .length 40)]⟩ [word]
    let note : Element Rat := .mk "p" ⟨[block, ("height", .length 10)]⟩ []
    let page : Element Rat := .mk "body" ⟨[block]⟩ [paragraph, word, note]
    page.display ≠ .hidden ∧ ∃ root, page.layout (.ofViewport 800) = .ok root ∧
      ∀ content above parent,
        Box.InFlow (Dimensions.ofViewport 800).content root content above parent →
          ∀ x, parent.kind = .block x → parent.Stacking x.style := by
  intro block word paragraph note page
  have hVisible : page.display ≠ .hidden := by decide
  exact ⟨hVisible, layout_stacking (.ofViewport 800) hVisible⟩

end BlockFlow
