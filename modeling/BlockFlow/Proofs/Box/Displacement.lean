import BlockFlow.Proofs.Box.Comparison
import Mathlib.Algebra.Order.Field.Rat
import Mathlib.Tactic.Linarith

/-! # Moving a document

A containing block hands its place on to the blocks in it and uses it for nothing else. So when it is
moved, all blocks in the flow are moved by as much, and nothing becomes wider or higher.
-/

namespace BlockFlow

def Rect.moved (dx dy : Rat) (r : Rect Rat) : Rect Rat := { r with x := r.x + dx, y := r.y + dy }

theorem Rect.expandedBy_moved (dx dy : Rat) (r : Rect Rat) (e : Edges Rat) :
    (r.moved dx dy).expandedBy e = (r.expandedBy e).moved dx dy := by
  have hX : r.x + dx - e.left = r.x - e.left + dx := by linarith
  have hY : r.y + dy - e.top = r.y - e.top + dy := by linarith
  simp only [expandedBy, moved]
  exact congrArg₂ (fun x y : Rat => (⟨x, y, _, _⟩ : Rect Rat)) hX hY

namespace Dimensions

/-- The content rectangle and the boxes around it are moved; the rings between them stay as wide. -/
structure MovedBy (dx dy : Rat) (d d' : Dimensions Rat) : Prop where
  content : d'.content = d.content.moved dx dy
  padding : d'.padding = d.padding
  border : d'.border = d.border
  margin : d'.margin = d.margin
  paddingBox : d'.paddingBox = d.paddingBox.moved dx dy
  borderBox : d'.borderBox = d.borderBox.moved dx dy
  marginBox : d'.marginBox = d.marginBox.moved dx dy

def moved (dx dy : Rat) (d : Dimensions Rat) : Dimensions Rat :=
  { d with content := d.content.moved dx dy }

theorem movedBy_moved (dx dy : Rat) (d : Dimensions Rat) : d.MovedBy dx dy (d.moved dx dy) := by
  have hPadding : (d.moved dx dy).paddingBox = d.paddingBox.moved dx dy :=
    Rect.expandedBy_moved dx dy _ _
  have hBorder : (d.moved dx dy).borderBox = d.borderBox.moved dx dy := by
    rw [borderBox, hPadding]
    exact Rect.expandedBy_moved dx dy _ _
  have hMargin : (d.moved dx dy).marginBox = d.marginBox.moved dx dy := by
    rw [marginBox, hBorder]
    exact Rect.expandedBy_moved dx dy _ _
  exact ⟨rfl, rfl, rfl, rfl, hPadding, hBorder, hMargin⟩

variable {dx dy : Rat} {d d' : Dimensions Rat}

theorem movedBy_iff : d.MovedBy dx dy d' ↔ d' = d.moved dx dy := by
  constructor
  · intro h
    obtain ⟨content, padding, border, margin⟩ := d'
    obtain ⟨rfl, rfl, rfl, rfl, -, -, -⟩ := h
    rfl
  · rintro rfl
    exact movedBy_moved dx dy d

theorem place_moved (h : d'.content = d.content.moved dx dy) (style : Style Rat)
    (old : Dimensions Rat) : d'.place style old = (d.place style old).moved dx dy := by
  have hX (a b c : Rat) : d.content.x + dx + a + b + c = d.content.x + a + b + c + dx := by linarith
  have hY (a b c : Rat) : d.content.y + dy + d.content.height + a + b + c =
      d.content.y + d.content.height + a + b + c + dy := by linarith
  simp only [place, moved, h, Rect.moved]
  exact congrArg₂ (fun x y : Rat =>
    (⟨⟨x, y, (style.widthValues.used d.content.width).width, old.content.height⟩, _, _, _⟩ :
      Dimensions Rat)) (hX _ _ _) (hY _ _ _)

end Dimensions

theorem layoutKeeps_movedBy (dx dy : Rat) : Box.LayoutKeeps
    (fun d d' => d'.content = d.content.moved dx dy) Eq (Dimensions.MovedBy dx dy) Eq where
  contains h := h.content
  place style h hOld := by
    obtain rfl := hOld
    exact Dimensions.movedBy_iff.mpr (Dimensions.place_moved h style _)
  grow h hChild := by
    rw [Dimensions.movedBy_iff] at h hChild ⊢
    rw [h, hChild]
    rfl
  -- a box that is no block does not move, but it adds its height all the same
  pass h hChild := by
    rw [Dimensions.movedBy_iff] at h ⊢
    rw [h, hChild]
    rfl
  settle style h := by
    rw [Dimensions.movedBy_iff] at h ⊢
    rw [h, Box.settle_eq, Box.settle_eq]
    rfl

/-- In two containing blocks of the same width, one away from the other by `dx` and `dy`, a document
gets the same boxes. Every block in the flow is away by just as much, and all else is the same. -/
theorem layout_displaced {containing containing' : Dimensions Rat} {dx dy : Rat}
    (hX : containing'.content.x = containing.content.x + dx)
    (hY : containing'.content.y = containing.content.y + dy)
    (hWidth : containing'.content.width = containing.content.width) {e : Element Rat}
    (h : e.display ≠ .hidden) :
    ∃ root root', e.layout containing = .ok root ∧ e.layout containing' = .ok root' ∧
      root'.bare = root.bare ∧ root.Alike (Dimensions.MovedBy dx dy) Eq root' := by
  obtain ⟨fresh, hRoot⟩ := Element.exists_rootBox h
  refine ⟨Box.layout (containing.withHeight Scalar.zero) fresh,
    Box.layout (containing'.withHeight Scalar.zero) fresh, ?_, ?_, ?_, ?_⟩
  · rw [Element.layout, hRoot]
    rfl
  · rw [Element.layout, hRoot]
    rfl
  · rw [Box.bare_layout, Box.bare_layout]
  · apply Box.alike_layout (layoutKeeps_movedBy dx dy) fresh fresh
    · obtain ⟨⟨x', y', width', height'⟩, padding', border', margin'⟩ := containing'
      obtain rfl : x' = _ := hX
      obtain rfl : y' = _ := hY
      obtain rfl : width' = _ := hWidth
      rfl
    · exact Box.alike_refl (fun _ => rfl) (fun _ => rfl) fresh

/-- A padded paragraph with a word in it, in two viewports, one of them with a height and borders. -/
theorem layout_displaced_of_page :
    let block : String × Value Rat := ("display", .keyword "block")
    let word : Element Rat := .mk "em" ⟨[]⟩ []
    let paragraph : Element Rat := .mk "p" ⟨[block, ("padding", .length 8)]⟩ [word]
    let page : Element Rat := .mk "body" ⟨[block]⟩ [paragraph, word, paragraph]
    let viewport : Dimensions Rat := .ofViewport 800
    let window : Dimensions Rat := ⟨⟨30, -5, 800, 600⟩, .zero, ⟨1, 1, 1, 1⟩, .zero⟩
    (window.content.x = viewport.content.x + 30 ∧ window.content.y = viewport.content.y + -5 ∧
        window.content.width = viewport.content.width ∧ page.display ≠ .hidden) ∧
      ∃ root root', page.layout viewport = .ok root ∧ page.layout window = .ok root' ∧
        root'.bare = root.bare ∧ root.Alike (Dimensions.MovedBy 30 (-5)) Eq root' := by
  intro block word paragraph page viewport window
  have hX : window.content.x = viewport.content.x + 30 := (zero_add _).symm
  have hY : window.content.y = viewport.content.y + -5 := (zero_add _).symm
  have hVisible : page.display ≠ .hidden := by decide
  exact ⟨⟨hX, hY, rfl, hVisible⟩, layout_displaced hX hY rfl hVisible⟩

end BlockFlow
