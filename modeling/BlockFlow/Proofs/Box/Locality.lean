import BlockFlow.Proofs.Box.Blocks

/-! # What an edit of a document can move

Layout reads a document in its order: what stands before an edit is laid out without it, except that
the element with the edit and its ancestors grow with what they hold. A given height stops that, and
then nothing outside of the edit is moved.
-/

namespace BlockFlow

variable {ν : Type}

namespace Element

/-- The tree with one element changed, or the same tree if the path leads nowhere. -/
def modifyAt (f : Element ν → Element ν) : TreePath → Element ν → Element ν
  | [], e => f e
  | i :: path, mk tag style children => mk tag style (children.modify i (modifyAt f path))

/-- The element with other children from a number on. -/
def withChildrenFrom (i : Nat) (new : List (Element ν)) : Element ν → Element ν
  | mk tag style children => mk tag style (children.take i ++ new)

theorem style_withChildrenFrom (i : Nat) (new : List (Element ν)) (e : Element ν) :
    (e.withChildrenFrom i new).style = e.style := by
  obtain ⟨tag, style, children⟩ := e
  rfl

theorem children_withChildrenFrom (i : Nat) (new : List (Element ν)) (e : Element ν) :
    (e.withChildrenFrom i new).children = e.children.take i ++ new := by
  obtain ⟨tag, style, children⟩ := e
  rfl

section Modify

variable {f : Element ν → Element ν} (hStyle : ∀ x, (f x).style = x.style)

theorem children_modifyAt_cons (i : Nat) (path : TreePath) (e : Element ν) :
    (e.modifyAt f (i :: path)).children = e.children.modify i (modifyAt f path) := by
  obtain ⟨tag, style, children⟩ := e
  rfl

include hStyle

theorem style_modifyAt (path : TreePath) (e : Element ν) : (e.modifyAt f path).style = e.style := by
  obtain ⟨tag, style, children⟩ := e
  cases path with
  | nil => exact hStyle _
  | cons i path => rfl

theorem display_modifyAt (path : TreePath) (e : Element ν) :
    (e.modifyAt f path).display = e.display :=
  congrArg Style.display (style_modifyAt hStyle path e)

end Modify

/-- Two elements that are the same but for their tags and for a block among their children. -/
structure ApartIn (before after : List (Element ν)) (c c' e e' : Element ν) : Prop where
  style : e'.style = e.style
  children : e.children = before ++ c :: after
  children' : e'.children = before ++ c' :: after
  block : c.display = .block
  block' : c'.display = .block

theorem apartIn_modifyAt {f : Element ν → Element ν} (hStyle : ∀ x, (f x).style = x.style)
    {e c : Element ν} {m : Nat} (hChild : e.children[m]? = some c) (hc : c.display = .block)
    (path : TreePath) : ∃ before after, m = before.length ∧
      ApartIn before after c (c.modifyAt f path) e (e.modifyAt f (m :: path)) := by
  obtain ⟨hLt, -⟩ := List.getElem?_eq_some_iff.mp hChild
  obtain ⟨before, c₀, after, hChildren, rfl, hModify⟩ :=
    List.exists_of_modify (modifyAt f path) hLt
  obtain rfl : c₀ = c := by simpa [hChildren] using hChild
  rw [← children_modifyAt_cons] at hModify
  exact ⟨before, after, rfl, style_modifyAt hStyle _ e, hChildren, hModify, hc,
    (display_modifyAt hStyle path c₀).trans hc⟩

end Element

namespace Box

section Compare

variable [Scalar ν]

/-- How the blocks of two trees compare before the children, from the number `i` on, of the element at
a path: those of this element and of its ancestors are the same but for their heights, and those of
all other elements that come before are the same. The order of documents is that of the paths. -/
structure SameBefore (path : TreePath) (i : Nat) (b b' : Box ν) : Prop where
  along : ∀ q, q <+: path → (b.blockAt? q).map (fun x => x.dimensions.withHeight Scalar.zero) =
    (b'.blockAt? q).map fun x => x.dimensions.withHeight Scalar.zero
  before : ∀ q, q < path ++ [i] → ¬ q <+: path →
    (b.blockAt? q).map dimensions = (b'.blockAt? q).map dimensions

/-- The blocks of two trees are the same outside of these children. -/
def SameOutside (path : TreePath) (i : Nat) (b b' : Box ν) : Prop :=
  ∀ q, (∀ j, i ≤ j → ¬ path ++ [j] <+: q) →
    (b.blockAt? q).map dimensions = (b'.blockAt? q).map dimensions

end Compare

variable [Scalar ν] {containing : Dimensions ν}

/-! ## One block -/

theorem withHeight_layout (containing : Dimensions ν) (e : Element ν) (y : ν) :
    (layout containing e.blockBox).dimensions.withHeight y =
      (containing.place e.style .zero).withHeight y := by
  rw [dimensions_layout_blockBox, filled, settle_eq, layoutChildren_snd]
  rfl

theorem dimensions_layout_of_height {e : Element ν} {y : ν} (h : e.style.height? = some y) :
    (layout containing e.blockBox).dimensions = (containing.place e.style .zero).withHeight y := by
  rw [dimensions_layout_blockBox, filled, settle_eq, layoutChildren_snd, h]
  rfl

theorem filled_congr {style : Style ν} {before : List (Element ν)} {c c' : Element ν}
    (hc : c.display = .block) (hc' : c'.display = .block)
    (h : (layout (filled containing style before) c.blockBox).dimensions =
      (layout (filled containing style before) c'.blockBox).dimensions) (after : List (Element ν)) :
    filled containing style (before ++ c :: after) =
      filled containing style (before ++ c' :: after) := by
  have hLaid := layoutChildren_append_block (containing.place style .zero) hc before after
  have hLaid' := layoutChildren_append_block (containing.place style .zero) hc' before after
  rw [filled] at h
  rw [filled, filled, hLaid, hLaid']
  dsimp only
  rw [h]

theorem blockChild?_congr {e e' : Element ν} {j : Nat} (hChild : e.children[j]? = e'.children[j]?)
    (hFilled : filled containing e.style (e.children.take j) =
      filled containing e'.style (e'.children.take j)) :
    (layout containing e.blockBox).blockChild? j = (layout containing e'.blockBox).blockChild? j := by
  by_cases hBlock : ∃ c, e.children[j]? = some c ∧ c.display = .block
  · obtain ⟨c, hGet, hc⟩ := hBlock
    rw [blockChild?_layout hGet hc, blockChild?_layout (hChild ▸ hGet) hc, hFilled]
  · have hNone : ∀ c ∈ e.children[j]?, c.display ≠ .block := fun c hGet hc => hBlock ⟨c, hGet, hc⟩
    rw [blockChild?_eq_none hNone, blockChild?_eq_none (hChild ▸ hNone)]

/-! ## Two children in the same place -/

section Apart

variable {e e' c c' : Element ν} {before after : List (Element ν)} {path : TreePath} {i : Nat}

theorem blockAt?_through (containing : Dimensions ν) (hChildren : e.children = before ++ c :: after)
    (hc : c.display = .block) (q : TreePath) :
    (layout containing e.blockBox).blockAt? (before.length :: q) =
      (layout (filled containing e.style before) c.blockBox).blockAt? q := by
  have hGet : e.children[before.length]? = some c := by simp [hChildren]
  have hTake : e.children.take before.length = before := by simp [hChildren]
  rw [blockAt?, blockChild?_layout hGet hc, hTake]
  rfl

variable (hApart : Element.ApartIn before after c c' e e')

include hApart

theorem blockChild?_before {j : Nat} (hj : j < before.length) :
    (layout containing e.blockBox).blockChild? j =
      (layout containing e'.blockBox).blockChild? j := by
  apply blockChild?_congr
  · rw [hApart.children, hApart.children', List.getElem?_append_left hj,
      List.getElem?_append_left hj]
  · rw [hApart.style, hApart.children, hApart.children',
      List.take_append_of_le_length (Nat.le_of_lt hj),
      List.take_append_of_le_length (Nat.le_of_lt hj)]

theorem blockChild?_behind
    (h : (layout (filled containing e.style before) c.blockBox).dimensions =
      (layout (filled containing e.style before) c'.blockBox).dimensions)
    {j : Nat} (hj : before.length < j) :
    (layout containing e.blockBox).blockChild? j =
      (layout containing e'.blockBox).blockChild? j := by
  obtain ⟨k, rfl⟩ := Nat.exists_eq_add_of_lt hj
  apply blockChild?_congr
  · rw [hApart.children, hApart.children', List.getElem?_append_right (by omega),
      List.getElem?_append_right (by omega), Nat.add_assoc, Nat.add_sub_cancel_left]
    rfl
  · have hTake (x : Element ν) : (before ++ x :: after).take (before.length + k + 1) =
        before ++ x :: after.take k := by
      rw [Nat.add_assoc, List.take_length_add_append, List.take_succ_cons]
    rw [hApart.style, hApart.children, hApart.children', hTake, hTake,
      filled_congr hApart.block hApart.block' h]

theorem SameBefore.step
    (h : SameBefore path i (layout (filled containing e.style before) c.blockBox)
      (layout (filled containing e.style before) c'.blockBox)) :
    SameBefore (before.length :: path) i (layout containing e.blockBox)
      (layout containing e'.blockBox) := by
  have hThrough := blockAt?_through containing hApart.children hApart.block
  have hThrough' := blockAt?_through containing hApart.children' hApart.block'
  rw [hApart.style] at hThrough'
  constructor
  case along =>
    intro q hq
    rcases List.prefix_cons_iff.mp hq with rfl | ⟨q, rfl, hRest⟩
    · rw [blockAt?_nil, blockAt?_nil, Option.map_some, Option.map_some, withHeight_layout,
        withHeight_layout, hApart.style]
    · rw [hThrough, hThrough']
      exact h.along q hRest
  case before =>
    intro q hq hPrefix
    cases q with
    | nil => exact absurd List.nil_prefix hPrefix
    | cons j q =>
      rcases List.cons_lt_cons_iff.mp hq with hj | ⟨rfl, hRest⟩
      · rw [blockAt?, blockAt?, blockChild?_before hApart hj]
      · rw [hThrough, hThrough']
        exact h.before q hRest fun hPrefix' => hPrefix (List.cons_prefix_cons.mpr ⟨rfl, hPrefix'⟩)

theorem SameOutside.step
    (h : SameOutside path i (layout (filled containing e.style before) c.blockBox)
      (layout (filled containing e.style before) c'.blockBox)) :
    SameOutside (before.length :: path) i (layout containing e.blockBox)
      (layout containing e'.blockBox) := by
  have hThrough := blockAt?_through containing hApart.children hApart.block
  have hThrough' := blockAt?_through containing hApart.children' hApart.block'
  rw [hApart.style] at hThrough'
  -- the child itself is outside of the edit, so that it still has the same dimensions
  have hSame := h [] fun j _ hPrefix => by simp at hPrefix
  rw [blockAt?_nil, blockAt?_nil] at hSame
  have hSame := Option.some.inj hSame
  intro q hq
  cases q with
  | nil =>
    rw [blockAt?_nil, blockAt?_nil, Option.map_some, Option.map_some, dimensions_layout_blockBox,
      dimensions_layout_blockBox, hApart.style, hApart.children, hApart.children',
      filled_congr hApart.block hApart.block' hSame]
  | cons j q =>
    rcases Nat.lt_trichotomy j before.length with hj | rfl | hj
    · rw [blockAt?, blockAt?, blockChild?_before hApart hj]
    · rw [hThrough, hThrough']
      apply h q
      intro j hj hPrefix
      exact hq j hj (List.cons_prefix_cons.mpr ⟨rfl, hPrefix⟩)
    · rw [blockAt?, blockAt?, blockChild?_behind hApart hSame hj]

end Apart

/-! ## The edit -/

section Edit

variable {e n : Element ν} {path : TreePath} {i : Nat}

theorem blockChild?_withChildrenFrom (new : List (Element ν)) (hi : i ≤ e.children.length) {j : Nat}
    (hj : j < i) : (layout containing e.blockBox).blockChild? j =
      (layout containing (e.withChildrenFrom i new).blockBox).blockChild? j := by
  have hLength : i ≤ (e.children.take i).length := by simp [hi]
  apply blockChild?_congr
  · rw [Element.children_withChildrenFrom, List.getElem?_append_left (by omega),
      List.getElem?_take_of_lt hj]
  · rw [Element.style_withChildrenFrom, Element.children_withChildrenFrom,
      List.take_append_of_le_length (by omega), List.take_take, Nat.min_eq_left (by omega)]

theorem sameBefore_withChildrenFrom (new : List (Element ν)) (hi : i ≤ e.children.length) :
    SameBefore [] i (layout containing e.blockBox)
      (layout containing (e.withChildrenFrom i new).blockBox) := by
  constructor
  case along =>
    intro q hq
    rw [List.prefix_nil.mp hq, blockAt?_nil, blockAt?_nil, Option.map_some, Option.map_some,
      withHeight_layout, withHeight_layout, Element.style_withChildrenFrom]
  case before =>
    intro q hq hPrefix
    cases q with
    | nil => exact absurd List.nil_prefix hPrefix
    | cons j q =>
      rcases List.cons_lt_cons_iff.mp hq with hj | ⟨-, hNil⟩
      · rw [blockAt?, blockAt?, blockChild?_withChildrenFrom new hi hj]
      · exact absurd hNil (List.not_lt_nil q)

theorem sameOutside_withChildrenFrom (new : List (Element ν)) (hi : i ≤ e.children.length)
    (hHeight : e.style.height?.isSome) :
    SameOutside [] i (layout containing e.blockBox)
      (layout containing (e.withChildrenFrom i new).blockBox) := by
  obtain ⟨y, hy⟩ := Option.isSome_iff_exists.mp hHeight
  intro q hq
  cases q with
  | nil =>
    have hy' : (e.withChildrenFrom i new).style.height? = some y := by
      rw [Element.style_withChildrenFrom, hy]
    rw [blockAt?_nil, blockAt?_nil, Option.map_some, Option.map_some,
      dimensions_layout_of_height hy, dimensions_layout_of_height hy',
      Element.style_withChildrenFrom]
  | cons j q =>
    have hj : j < i := by
      by_contra hGe
      exact hq j (by omega) (List.cons_prefix_cons.mpr ⟨rfl, List.nil_prefix⟩)
    rw [blockAt?, blockAt?, blockChild?_withChildrenFrom new hi hj]

/-- Both comparisons are handed on from an element to its parent, up to the root. -/
theorem same_modifyAt (containing : Dimensions ν) (new : List (Element ν)) (hNode : e.at? path = some n)
    (hBlocks : ∀ q x, q <+: path → e.at? q = some x → x.display = .block)
    (hi : i ≤ n.children.length) :
    let e' := e.modifyAt (Element.withChildrenFrom i new) path
    SameBefore path i (layout containing e.blockBox) (layout containing e'.blockBox) ∧
      (n.style.height?.isSome →
        SameOutside path i (layout containing e.blockBox) (layout containing e'.blockBox)) := by
  induction path generalizing containing e with
  | nil =>
    obtain rfl := Option.some.inj hNode
    exact ⟨sameBefore_withChildrenFrom new hi, sameOutside_withChildrenFrom new hi⟩
  | cons m path ih =>
    obtain ⟨c, hChild, hInside⟩ := Option.bind_eq_some_iff.mp hNode
    have hInner : ∀ q x, q <+: path → c.at? q = some x → x.display = .block := by
      intro q x hq hx
      apply hBlocks (m :: q) x (List.cons_prefix_cons.mpr ⟨rfl, hq⟩)
      rw [Element.at?, hChild]
      exact hx
    have hc : c.display = .block := hInner [] c List.nil_prefix rfl
    obtain ⟨before, after, rfl, hApart⟩ :=
      Element.apartIn_modifyAt (Element.style_withChildrenFrom i new) hChild hc path
    obtain ⟨hBefore, hOutside⟩ := ih (filled containing e.style before) hInside hInner
    exact ⟨hBefore.step hApart, fun hHeight => (hOutside hHeight).step hApart⟩

end Edit

end Box

variable [Scalar ν]

/-- The children of a block are changed from the number `i` on, all its ancestors being blocks. What
comes before that keeps its dimensions, but for the heights of the block and of its ancestors; and if
the block has a given height then everything else keeps them. -/
theorem layout_local (containing : Dimensions ν) {e n : Element ν} {path : TreePath} {i : Nat}
    (new : List (Element ν)) (hNode : e.at? path = some n)
    (hBlocks : ∀ q x, q <+: path → e.at? q = some x → x.display = .block)
    (hi : i ≤ n.children.length) :
    let e' := e.modifyAt (Element.withChildrenFrom i new) path
    ∃ root root', e.layout containing = .ok root ∧ e'.layout containing = .ok root' ∧
      root.Addressed containing.content e ∧ root'.Addressed containing.content e' ∧
      root.SameBefore path i root' ∧ (n.style.height?.isSome → root.SameOutside path i root') := by
  intro e'
  have hRoot : e.display = .block := hBlocks [] e List.nil_prefix rfl
  have hRoot' : e'.display = .block :=
    (Element.display_modifyAt (Element.style_withChildrenFrom i new) path e).trans hRoot
  have hLaid := Element.layout_of_block hRoot containing
  have hLaid' := Element.layout_of_block hRoot' containing
  exact ⟨_, _, hLaid, hLaid', Element.addressed_layout hRoot hLaid,
    Element.addressed_layout hRoot' hLaid', Box.same_modifyAt _ new hNode hBlocks hi⟩

/-- A paragraph of a given height gets more text, between a first word and another paragraph. -/
theorem layout_local_of_page :
    let block : String × Value Rat := ("display", .keyword "block")
    let word : Element Rat := .mk "em" ⟨[]⟩ []
    let paragraph : Element Rat := .mk "p" ⟨[block, ("height", .length 40)]⟩ [word]
    let page : Element Rat := .mk "body" ⟨[block]⟩ [paragraph, paragraph]
    let page' := page.modifyAt (Element.withChildrenFrom 1 [word, paragraph]) [0]
    let viewport : Dimensions Rat := .ofViewport 800
    page.at? [0] = some paragraph ∧
      (∀ q x, q <+: [0] → page.at? q = some x → x.display = .block) ∧
      1 ≤ paragraph.children.length ∧
      ∃ root root', page.layout viewport = .ok root ∧ page'.layout viewport = .ok root' ∧
        root.Addressed viewport.content page ∧ root'.Addressed viewport.content page' ∧
        root.SameBefore [0] 1 root' ∧
        (paragraph.style.height?.isSome → root.SameOutside [0] 1 root') := by
  intro block word paragraph page page' viewport
  have hBlocks : ∀ q x, q <+: [0] → page.at? q = some x → x.display = .block := by
    intro q x hq hx
    rcases List.prefix_cons_iff.mp hq with rfl | ⟨q, rfl, hNil⟩
    · obtain rfl := Option.some.inj hx
      decide
    · rw [List.prefix_nil.mp hNil] at hx
      obtain rfl := Option.some.inj hx
      decide
  exact ⟨rfl, hBlocks, by decide, layout_local _ _ rfl hBlocks (by decide)⟩

end BlockFlow
