import BlockFlow.Proofs.Box.Unshared

/-! # Laying out again

Layout resets nothing. All that it reads of what a tree had before are heights: the height that a block
had is where the heights of its children are added, and a box that is no block keeps its dimensions and
adds its height with them. Nothing horizontal and no ring can come out otherwise for it.
-/

namespace BlockFlow

variable {ν : Type}

namespace Dimensions

/-- Only the vertical place and the height may differ. -/
structure SameAcross (d d' : Dimensions ν) : Prop where
  x : d.content.x = d'.content.x
  width : d.content.width = d'.content.width
  padding : d.padding = d'.padding
  border : d.border = d'.border
  margin : d.margin = d'.margin

/-- The numbers of which the height of a margin box is made are the same. -/
structure SameExtent (d d' : Dimensions ν) : Prop where
  height : d.content.height = d'.content.height
  paddingTop : d.padding.top = d'.padding.top
  paddingBottom : d.padding.bottom = d'.padding.bottom
  borderTop : d.border.top = d'.border.top
  borderBottom : d.border.bottom = d'.border.bottom

theorem SameAcross.refl (d : Dimensions ν) : d.SameAcross d := ⟨rfl, rfl, rfl, rfl, rfl⟩

theorem SameAcross.withHeight {d d' : Dimensions ν} (h : d.SameAcross d') (y y' : ν) :
    (d.withHeight y).SameAcross (d'.withHeight y') :=
  ⟨h.x, h.width, h.padding, h.border, h.margin⟩

variable [Scalar ν]

theorem SameExtent.marginBox_height {d d' : Dimensions ν} (h : d.SameExtent d') :
    d.marginBox.height = d'.marginBox.height := by
  simp only [marginBox, borderBox, paddingBox, Rect.expandedBy, h.height, h.paddingTop,
    h.paddingBottom, h.borderTop, h.borderBottom]

theorem SameAcross.place {d d' : Dimensions ν} (h : d.SameAcross d') (style : Style ν)
    (old old' : Dimensions ν) : (d.place style old).SameAcross (d'.place style old') := by
  constructor <;> simp only [Dimensions.place, h.x, h.width]

theorem place_eq_of_height {old old' : Dimensions ν} (h : old.content.height = old'.content.height)
    (d : Dimensions ν) (style : Style ν) : d.place style old = d.place style old' := by
  simp only [place, h]

end Dimensions

namespace Box

/-- What laying out a tree can see of what was there before: the heights of the root and of the blocks
in the flow, and those of the margin boxes of their other children, number by number. -/
def SameTraces (b b' : Box ν) : Prop :=
  b.AlikeBelow (fun d d' => d.content.height = d'.content.height)
    (fun x x' => x.dimensions.SameExtent x'.dimensions) b'

mutual

theorem alike_of_bare_eq [Scalar ν] : ∀ b b' : Box ν, b.bare = b'.bare →
    Alike (fun _ _ => True) (fun x x' => x.bare = x'.bare) b b'
  | mk kind d children, mk kind' d' children', h => by
    have hBare := h
    rw [bare, bare] at h
    obtain ⟨rfl, -, hChildren⟩ := Box.mk.inj h
    cases kind with
    | block e => exact .block trivial (alike_of_bareAll_eq children children' hChildren)
    | inline e => exact .beside nofun nofun hBare
    | anonymous => exact .beside nofun nofun hBare

theorem alike_of_bareAll_eq [Scalar ν] : ∀ bs bs' : List (Box ν), bareAll bs = bareAll bs' →
    List.Forall₂ (Alike (fun _ _ => True) fun x x' => x.bare = x'.bare) bs bs'
  | [], [], _ => .nil
  | b :: rest, b' :: rest', h => by
    rw [bareAll, bareAll] at h
    obtain ⟨hFirst, hRest⟩ := List.cons.inj h
    exact .cons (alike_of_bare_eq b b' hFirst) (alike_of_bareAll_eq rest rest' hRest)

end

variable [Scalar ν]

theorem alikeBelow_of_bare_eq {b b' : Box ν} (h : b.bare = b'.bare) :
    b.AlikeBelow (fun _ _ => True) (fun x x' => x.bare = x'.bare) b' := by
  obtain ⟨kind, d, children⟩ := b
  obtain ⟨kind', d', children'⟩ := b'
  rw [bare, bare] at h
  obtain ⟨rfl, -, hChildren⟩ := Box.mk.inj h
  exact ⟨rfl, trivial, alike_of_bareAll_eq children children' hChildren⟩

/-! ## What layout keeps -/

theorem layoutKeeps_eq : LayoutKeeps (ν := ν) Eq
    (fun d d' => d.content.height = d'.content.height) Eq
    fun x x' => x.dimensions.SameExtent x'.dimensions where
  contains h := h
  -- the old height is the one number that placing a block leaves as it was
  place style h hOld := by
    rw [h]
    exact Dimensions.place_eq_of_height hOld _ style
  grow h hChild := by rw [h, hChild]
  pass h hChild := by rw [h, Dimensions.grow, Dimensions.grow, hChild.marginBox_height]
  settle style h := by rw [h]

theorem layoutKeeps_sameAcross (T : Box ν → Box ν → Prop) :
    LayoutKeeps Dimensions.SameAcross (fun _ _ => True) Dimensions.SameAcross T where
  contains h := h
  place style h _ := h.place style _ _
  grow h _ := h.withHeight _ _
  pass h _ := h.withHeight _ _
  settle style h := by
    rw [settle_eq, settle_eq]
    exact h.withHeight _ _

mutual

/-- Only the blocks in the flow are touched. -/
theorem alike_layout_self (d : Dimensions ν) : ∀ b : Box ν,
    Alike (fun _ _ => True) Eq b (layout d b)
  | mk kind old children => by
    cases kind with
    | block e =>
      rw [layout_block]
      exact .block trivial (alike_layoutChildren_self _ children)
    | inline e =>
      have hType : (mk (.inline e) old children).type ≠ .block := nofun
      rw [layout_of_type_ne d hType]
      exact .beside hType hType rfl
    | anonymous =>
      have hType : (mk .anonymous old children).type ≠ .block := nofun
      rw [layout_of_type_ne d hType]
      exact .beside hType hType rfl

theorem alike_layoutChildren_self (d : Dimensions ν) : ∀ bs : List (Box ν),
    List.Forall₂ (Alike (fun _ _ => True) Eq) bs (layoutChildren d bs).1
  | [] => by
    rw [layoutChildren]
    exact .nil
  | b :: rest => by
    rw [layoutChildren_cons]
    exact .cons (alike_layout_self d b) (alike_layoutChildren_self _ rest)

end

theorem alikeBelow_layoutBlock_self {d : Dimensions ν} {b a : Box ν} (h : layoutBlock d b = .ok a) :
    b.AlikeBelow (fun _ _ => True) Eq a := by
  obtain ⟨e, -, rfl⟩ := eq_layoutStyled_of_layoutBlock h
  exact ⟨rfl, trivial, alike_layoutChildren_self _ b.children⟩

end Box

variable [Scalar ν]

/-- Two trees with the same elements are laid out in place, in the same containing block. The root and
the blocks in the flow get the same dimensions in both if the trees have the same traces, and else
dimensions that differ in the vertical place and the height at most. All other boxes keep theirs. So
doing it again changes nothing else. -/
theorem layoutBlock_again {s s' : Store ν} {id id' : Nat} {b b' : Box ν} (h : s.Unshared id b)
    (h' : s'.Unshared id' b') (hBare : b.bare = b'.bare) (hType : b.type ≠ .anonymous)
    (containing : Dimensions ν) :
    ∃ t a t' a', s.layoutBlock containing id = .ok t ∧ t.Unshared id a ∧
      s'.layoutBlock containing id' = .ok t' ∧ t'.Unshared id' a' ∧
      (b.SameTraces b' → a.AlikeBelow Eq (fun x x' => x.dimensions.SameExtent x'.dimensions) a') ∧
      a.AlikeBelow Dimensions.SameAcross (fun x x' => x.bare = x'.bare) a' ∧
      b.AlikeBelow (fun _ _ => True) Eq a ∧
      ∃ u c, t.layoutBlock containing id = .ok u ∧ u.Unshared id c ∧
        a.AlikeBelow Dimensions.SameAcross Eq c := by
  have hAlike := Box.alikeBelow_of_bare_eq hBare
  have hType' : b'.type ≠ .anonymous := by rwa [Box.type, ← hAlike.kind]
  obtain ⟨t, a, hStore, hLaid, ha⟩ := Store.exists_layoutBlock h hType containing
  obtain ⟨t', a', hStore', hLaid', ha'⟩ := Store.exists_layoutBlock h' hType' containing
  have hSelf := Box.alikeBelow_layoutBlock_self hLaid
  have hTypeLaid : a.type ≠ .anonymous := by rwa [Box.type, ← hSelf.kind]
  obtain ⟨u, c, hAgain, hLaidAgain, hc⟩ := Store.exists_layoutBlock ha hTypeLaid containing
  refine ⟨t, a, t', a', hStore, ha, hStore', ha', ?_, ?_, hSelf, u, c, hAgain, hc, ?_⟩
  · intro hTraces
    exact Box.alikeBelow_layoutBlock Box.layoutKeeps_eq rfl hTraces hLaid hLaid'
  · exact Box.alikeBelow_layoutBlock (Box.layoutKeeps_sameAcross _) (.refl containing) hAlike hLaid
      hLaid'
  · exact Box.alikeBelow_layoutBlock (Box.layoutKeeps_sameAcross _) (.refl containing) hSelf hLaid
      hLaidAgain

/-- A block with another block and a word in it, as it was made and with dimensions left from before
that have the same traces and else no number in common. -/
theorem layoutBlock_again_of_leftovers :
    let page : Element Rat := .mk "body" ⟨[("padding", .length 8)]⟩ []
    let note : Element Rat := .mk "p" ⟨[("height", .length 40)]⟩ []
    let word : Element Rat := .mk "em" ⟨[]⟩ []
    let left : Dimensions Rat := ⟨⟨1, 2, 3, 0⟩, ⟨5, 6, 0, 0⟩, ⟨9, 10, 0, 0⟩, ⟨13, 14, 15, 16⟩⟩
    let store (d : Dimensions Rat) : Store Rat := ⟨#[⟨.block page, d, [1, 2]⟩, ⟨.block note, d, []⟩,
      ⟨.anonymous, d, [3]⟩, ⟨.inline word, d, []⟩]⟩
    let tree (d : Dimensions Rat) : Box Rat := .mk (.block page) d [.mk (.block note) d [],
      .mk .anonymous d [.mk (.inline word) d []]]
    let viewport : Dimensions Rat := .ofViewport 800
    ((store .zero).Unshared 0 (tree .zero) ∧ (store left).Unshared 0 (tree left) ∧
        (tree .zero).bare = (tree left).bare ∧ (tree .zero).type ≠ .anonymous ∧
        (tree .zero).SameTraces (tree left)) ∧
      ∃ t a t' a', (store .zero).layoutBlock viewport 0 = .ok t ∧ t.Unshared 0 a ∧
        (store left).layoutBlock viewport 0 = .ok t' ∧ t'.Unshared 0 a' ∧
        a.AlikeBelow Eq (fun x x' => x.dimensions.SameExtent x'.dimensions) a' ∧
        a.AlikeBelow Dimensions.SameAcross (fun x x' => x.bare = x'.bare) a' ∧
        (tree .zero).AlikeBelow (fun _ _ => True) Eq a ∧
        ∃ u c, t.layoutBlock viewport 0 = .ok u ∧ u.Unshared 0 c ∧
          a.AlikeBelow Dimensions.SameAcross Eq c := by
  intro page note word left store tree viewport
  have hHangs (d : Dimensions Rat) : (store d).Hangs 0 (tree d) [0, 1, 2, 3] :=
    .mk rfl (.cons (.mk rfl .nil) (.cons (.mk rfl (.cons (.mk rfl .nil) .nil)) .nil))
  have hUnshared (d : Dimensions Rat) : (store d).Unshared 0 (tree d) :=
    ⟨[0, 1, 2, 3], hHangs d, by decide⟩
  have hBare : (tree .zero).bare = (tree left).bare := by rfl
  have hType : (tree .zero).type ≠ .anonymous := nofun
  have hTraces : (tree .zero).SameTraces (tree left) :=
    ⟨rfl, rfl, .cons (.block rfl .nil)
      (.cons (.beside nofun nofun ⟨rfl, rfl, rfl, rfl, rfl⟩) .nil)⟩
  obtain ⟨t, a, t', a', hStore, ha, hStore', ha', hSame, hAcross, hSelf, hAgain⟩ :=
    layoutBlock_again (hUnshared .zero) (hUnshared left) hBare hType viewport
  exact ⟨⟨hUnshared .zero, hUnshared left, hBare, hType, hTraces⟩,
    t, a, t', a', hStore, ha, hStore', ha', hSame hTraces, hAcross, hSelf, hAgain⟩

end BlockFlow
