import BlockFlow.Proofs.Box.Flow
import BlockFlow.Proofs.Box.Grouping
import BlockFlow.Proofs.Styled.Paths
import Mathlib.Data.List.Induction

/-! # Blocks by path

The blocks among the children of a block belong to the block children of its element, in the same
order, whatever becomes of the inline boxes between them. So a path to an element whose ancestors are
all blocks is also a path to its block, and these are the blocks in the flow.
-/

namespace BlockFlow

variable {ν : Type}

def Element.isBlock (e : Element ν) : Bool := e.display = .block

namespace Box

def isBlock (b : Box ν) : Bool := b.type = .block

def blocks (b : Box ν) : List (Box ν) := b.children.filter isBlock

/-- The block of the child with that number of the element of a block. -/
def blockChild? (b : Box ν) (i : Nat) : Option (Box ν) :=
  match b.kind with
  | .block e =>
    if e.children[i]?.any Element.isBlock then
      b.blocks[(e.children.take i).countP Element.isBlock]?
    else none
  | _ => none

/-- The block of the element that a path leads to from the element of `b`, if this element and all
before it on the path are displayed as blocks. -/
def blockAt? (b : Box ν) : TreePath → Option (Box ν)
  | [] => if b.type = .block then some b else none
  | i :: path => (b.blockChild? i).bind fun c => c.blockAt? path

end Box

variable [Scalar ν]

/-- The blocks at paths are the blocks in the flow, and each is that of the element at its path. -/
def Box.Addressed (outer : Rect ν) (e : Element ν) (root : Box ν) : Prop :=
  ∀ b, (b.type = .block ∧ ∃ content before, Box.InFlow outer root content before b) ↔
    ∃ path x, e.at? path = some x ∧ b.kind = .block x ∧ root.blockAt? path = some b

/-! ## The box of a block element -/

theorem gatherInlines_append_block {b : Box ν} (hb : b.type = .block) (bs rest : List (Box ν)) :
    gatherInlines (bs ++ b :: rest) = gatherInlines bs ++ b :: gatherInlines rest := by
  induction bs with
  | nil =>
    rw [List.nil_append, gatherInlines_cons, if_neg (by simp [hb])]
    rfl
  | cons c bs ih =>
    rw [List.cons_append, gatherInlines_cons, gatherInlines_cons, ih]
    split
    · cases gatherInlines bs with
      | nil => exact Box.joinRun_of_head (by simp [hb])
      | cons o others =>
        obtain ⟨kind, d, run⟩ := o
        cases kind <;> rfl
    · rfl

namespace Element

def blockBox (e : Element ν) : Box ν := .mk (.block e) .zero (gatherInlines (boxes e.children))

theorem box?_of_block {e : Element ν} (h : e.display = .block) : e.box? = some e.blockBox := by
  obtain ⟨tag, style, children⟩ := e
  have hStyle : style.display = .block := h
  rw [box?, hStyle]
  rfl

theorem type_of_box? {e : Element ν} {b : Box ν} (hBox : e.box? = some b)
    (h : e.display ≠ .block) : b.type ≠ .block := by
  obtain ⟨tag, style, children⟩ := e
  have hStyle : style.display ≠ .block := h
  rw [box?] at hBox
  cases hDisplay : style.display with
  | block => exact absurd hDisplay hStyle
  | inline =>
    rw [hDisplay] at hBox
    obtain rfl := Option.some.inj hBox
    intro hType
    cases hType
  | hidden =>
    rw [hDisplay] at hBox
    cases hBox

theorem boxes_append (es others : List (Element ν)) :
    boxes (es ++ others) = boxes es ++ boxes others := by
  rw [boxes_eq_filterMap, boxes_eq_filterMap, boxes_eq_filterMap, List.filterMap_append]

end Element

namespace Box

/-! ## Children of a block one after another -/

theorem layoutChildren_append (d : Dimensions ν) (bs others : List (Box ν)) :
    layoutChildren d (bs ++ others) =
      ((layoutChildren d bs).1 ++ (layoutChildren (layoutChildren d bs).2 others).1,
        (layoutChildren (layoutChildren d bs).2 others).2) := by
  induction bs generalizing d with
  | nil => simp only [List.nil_append, layoutChildren]
  | cons b bs ih =>
    rw [List.cons_append, layoutChildren_cons, layoutChildren_cons, ih]
    rfl

/-- The dimensions of a block of the given style once these children have been laid out in it. -/
def filled (containing : Dimensions ν) (style : Style ν) (children : List (Element ν)) :
    Dimensions ν :=
  (layoutChildren (containing.place style .zero) (gatherInlines (Element.boxes children))).2

theorem dimensions_layout_blockBox (containing : Dimensions ν) (e : Element ν) :
    (layout containing e.blockBox).dimensions =
      (filled containing e.style e.children).settle e.style := by
  rw [Element.blockBox, layout_block]
  rfl

theorem layoutChildren_append_block (d : Dimensions ν) {c : Element ν} (hc : c.display = .block)
    (before after : List (Element ν)) :
    let reached := (layoutChildren d (gatherInlines (Element.boxes before))).2
    let laid := layout reached c.blockBox
    let rest := layoutChildren (reached.grow laid.dimensions) (gatherInlines (Element.boxes after))
    layoutChildren d (gatherInlines (Element.boxes (before ++ c :: after))) =
      ((layoutChildren d (gatherInlines (Element.boxes before))).1 ++ laid :: rest.1, rest.2) := by
  have hBoxes : Element.boxes (c :: after) = c.blockBox :: Element.boxes after := by
    rw [Element.boxes, Element.box?_of_block hc]
  rw [Element.boxes_append, hBoxes, gatherInlines_append_block rfl, layoutChildren_append,
    layoutChildren_cons]

/-! ## The blocks among the children -/

theorem filter_joinRun (b : Box ν) (bs : List (Box ν)) :
    (joinRun b bs).filter isBlock = bs.filter isBlock := by
  unfold joinRun
  split
  · rfl
  · rfl

theorem filter_gatherInlines (bs : List (Box ν)) :
    (gatherInlines bs).filter isBlock = bs.filter isBlock := by
  induction bs with
  | nil => rfl
  | cons b bs ih =>
    rw [gatherInlines_cons]
    split
    · next hb => rw [filter_joinRun, ih, List.filter_cons_of_neg (by simp [isBlock, hb])]
    · rw [List.filter_cons, List.filter_cons, ih]

theorem filter_boxes (es : List (Element ν)) :
    (Element.boxes es).filter isBlock = (es.filter Element.isBlock).map Element.blockBox := by
  induction es with
  | nil => rfl
  | cons e es ih =>
    rw [Element.boxes]
    by_cases hBlock : e.display = .block
    · have hTrue : e.isBlock = true := decide_eq_true hBlock
      rw [Element.box?_of_block hBlock, List.filter_cons_of_pos hTrue, List.map_cons, ← ih]
      rfl
    · have hFalse : e.isBlock = false := decide_eq_false hBlock
      rw [List.filter_cons_of_neg (by simp [hFalse]), ← ih]
      split
      · next hBox =>
        rw [List.filter_cons_of_neg (by simp [isBlock, Element.type_of_box? hBox hBlock])]
      · rfl

theorem kinds_filter_boxes (es : List (Element ν)) :
    ((Element.boxes es).filter isBlock).map kind =
      (es.filter Element.isBlock).map BoxKind.block := by
  rw [filter_boxes, List.map_map]
  rfl

theorem kinds_filter_layoutChildren (d : Dimensions ν) (bs : List (Box ν)) :
    ((layoutChildren d bs).1.filter isBlock).map kind = (bs.filter isBlock).map kind := by
  induction bs generalizing d with
  | nil => rw [layoutChildren]
  | cons b bs ih =>
    have hSame : (layout d b).isBlock = b.isBlock := by
      rw [isBlock, type, kind_layout]
      rfl
    rw [layoutChildren_cons, List.filter_cons, List.filter_cons, hSame]
    split
    · rw [List.map_cons, List.map_cons, kind_layout, ih]
    · exact ih _

theorem kinds_blocks (containing : Dimensions ν) (e : Element ν) :
    (layout containing e.blockBox).blocks.map kind =
      (e.children.filter Element.isBlock).map BoxKind.block := by
  rw [Element.blockBox, layout_block, blocks]
  dsimp only [children]
  rw [kinds_filter_layoutChildren, filter_gatherInlines, kinds_filter_boxes]

theorem blocks_getElem? {containing : Dimensions ν} {e c : Element ν} {i : Nat}
    (h : e.children[i]? = some c) (hc : c.display = .block) :
    (layout containing e.blockBox).blocks[(e.children.take i).countP Element.isBlock]? =
      some (layout (filled containing e.style (e.children.take i)) c.blockBox) := by
  obtain ⟨hLt, hGet⟩ := List.getElem?_eq_some_iff.mp h
  have hSplit : e.children = e.children.take i ++ c :: e.children.drop (i + 1) := by
    rw [← hGet, List.getElem_cons_drop, List.take_append_drop]
  have hLaid := layoutChildren_append_block (containing.place e.style .zero) hc
    (e.children.take i) (e.children.drop (i + 1))
  have hRank : (e.children.take i).countP Element.isBlock = ((layoutChildren
      (containing.place e.style .zero)
      (gatherInlines (Element.boxes (e.children.take i)))).1.filter isBlock).length := by
    rw [← List.length_map kind, kinds_filter_layoutChildren, filter_gatherInlines,
      kinds_filter_boxes, List.length_map, List.countP_eq_length_filter]
  have hBlock : (layout (filled containing e.style (e.children.take i)) c.blockBox).isBlock :=
    decide_eq_true (congrArg BoxKind.type (kind_layout _ c.blockBox))
  dsimp only at hLaid
  rw [← hSplit] at hLaid
  rw [hRank, Element.blockBox, layout_block, blocks]
  dsimp only [children]
  rw [hLaid, List.filter_append, List.getElem?_append_right (Nat.le_refl _), Nat.sub_self]
  exact congrArg (·[0]?) (List.filter_cons_of_pos hBlock)

/-! ## The block at a path -/

theorem blockChild?_layout {containing : Dimensions ν} {e c : Element ν} {i : Nat}
    (h : e.children[i]? = some c) (hc : c.display = .block) :
    (layout containing e.blockBox).blockChild? i =
      some (layout (filled containing e.style (e.children.take i)) c.blockBox) := by
  have hKind : (layout containing e.blockBox).kind = .block e := kind_layout _ _
  have hBlock : c.isBlock = true := decide_eq_true hc
  rw [blockChild?, hKind, ← blocks_getElem? h hc]
  dsimp only
  rw [h, Option.any_some, if_pos hBlock]

theorem blockChild?_eq_none {containing : Dimensions ν} {e : Element ν} {i : Nat}
    (h : ∀ c ∈ e.children[i]?, c.display ≠ .block) :
    (layout containing e.blockBox).blockChild? i = none := by
  have hKind : (layout containing e.blockBox).kind = .block e := kind_layout _ _
  rw [blockChild?, hKind]
  apply if_neg
  intro hAny
  cases hChild : e.children[i]? with
  | none =>
    rw [hChild] at hAny
    cases hAny
  | some c =>
    rw [hChild] at hAny
    exact h c hChild (of_decide_eq_true hAny)

theorem blockAt?_nil (containing : Dimensions ν) (e : Element ν) :
    (layout containing e.blockBox).blockAt? [] = some (layout containing e.blockBox) :=
  if_pos (congrArg BoxKind.type (kind_layout _ e.blockBox))

omit [Scalar ν] in
theorem blockAt?_append (b : Box ν) (path path' : TreePath) :
    b.blockAt? (path ++ path') = (b.blockAt? path).bind fun c => c.blockAt? path' := by
  induction path generalizing b with
  | nil =>
    rw [List.nil_append, blockAt?]
    split
    · rfl
    · next hb =>
      cases path' with
      | nil => exact if_neg hb
      | cons i path' =>
        obtain ⟨kind, d, children⟩ := b
        cases kind with
        | block e => exact absurd rfl hb
        | inline e => rfl
        | anonymous => rfl
  | cons i path ih =>
    rw [List.cons_append, blockAt?, blockAt?, Option.bind_assoc]
    exact congrArg _ (funext ih)

omit [Scalar ν] in
theorem mem_of_blockChild? {parent b : Box ν} {i : Nat} (h : parent.blockChild? i = some b) :
    parent.type = .block ∧ b.type = .block ∧ b ∈ parent.children := by
  obtain ⟨kind, d, children⟩ := parent
  cases kind with
  | block e =>
    obtain ⟨-, hGet⟩ := Option.ite_none_right_eq_some.mp h
    obtain ⟨hMem, hBlock⟩ := List.mem_filter.mp (List.mem_of_getElem? hGet)
    exact ⟨rfl, of_decide_eq_true hBlock, hMem⟩
  | inline e => cases h
  | anonymous => cases h

theorem exists_of_blockAt? {containing : Dimensions ν} {e : Element ν} {path : TreePath} {b : Box ν}
    (h : (layout containing e.blockBox).blockAt? path = some b) :
    ∃ x d, e.at? path = some x ∧ b = layout d x.blockBox := by
  induction path generalizing containing e with
  | nil =>
    rw [blockAt?_nil] at h
    exact ⟨e, containing, rfl, (Option.some.inj h).symm⟩
  | cons i path ih =>
    rw [blockAt?] at h
    by_cases hBlock : ∃ c, e.children[i]? = some c ∧ c.display = .block
    · obtain ⟨c, hChild, hc⟩ := hBlock
      rw [blockChild?_layout hChild hc] at h
      obtain ⟨x, d, hAt, hb⟩ := ih h
      refine ⟨x, d, ?_, hb⟩
      rw [Element.at?, hChild]
      exact hAt
    · rw [blockChild?_eq_none fun c hChild hc => hBlock ⟨c, hChild, hc⟩] at h
      cases h

theorem exists_index_of_filter {α : Type} {test : α → Bool} {as : List α} {k : Nat} {a : α}
    (h : (as.filter test)[k]? = some a) :
    test a = true ∧ ∃ i, as[i]? = some a ∧ (as.take i).countP test = k := by
  induction as generalizing k with
  | nil => cases h
  | cons first as ih =>
    cases hTest : test first with
    | true =>
      rw [List.filter_cons_of_pos hTest] at h
      cases k with
      | zero =>
        obtain rfl := Option.some.inj h
        exact ⟨hTest, 0, rfl, rfl⟩
      | succ k =>
        obtain ⟨ha, i, hGet, hCount⟩ := ih h
        refine ⟨ha, i + 1, hGet, ?_⟩
        rw [List.take_succ_cons, List.countP_cons_of_pos hTest, hCount]
    | false =>
      rw [List.filter_cons_of_neg (by simp [hTest])] at h
      obtain ⟨ha, i, hGet, hCount⟩ := ih h
      refine ⟨ha, i + 1, hGet, ?_⟩
      rw [List.take_succ_cons, List.countP_cons_of_neg (by simp [hTest]), hCount]

theorem exists_blockChild?_of_mem {containing : Dimensions ν} {e : Element ν} {b : Box ν}
    (hMem : b ∈ (layout containing e.blockBox).children) (hb : b.type = .block) :
    ∃ i, (layout containing e.blockBox).blockChild? i = some b := by
  have hBlocks : b ∈ (layout containing e.blockBox).blocks :=
    List.mem_filter.mpr ⟨hMem, decide_eq_true hb⟩
  obtain ⟨k, hk⟩ := List.getElem?_of_mem hBlocks
  have hKinds := congrArg (·[k]?) (kinds_blocks containing e)
  simp only [List.getElem?_map, hk, Option.map_some] at hKinds
  obtain ⟨c, hFilter, -⟩ := Option.map_eq_some_iff.mp hKinds.symm
  obtain ⟨hBlock, i, hChild, rfl⟩ := exists_index_of_filter hFilter
  have hc : c.display = .block := of_decide_eq_true hBlock
  refine ⟨i, ?_⟩
  rw [blockChild?_layout hChild hc, ← blocks_getElem? hChild hc, hk]

theorem exists_blockAt?_iff {containing : Dimensions ν} {outer : Rect ν} {e : Element ν} {b : Box ν} :
    (∃ path, (layout containing e.blockBox).blockAt? path = some b) ↔
      b.type = .block ∧
        ∃ content before, InFlow outer (layout containing e.blockBox) content before b := by
  constructor
  · rintro ⟨path, h⟩
    induction path using List.reverseRecOn generalizing b with
    | nil =>
      rw [blockAt?_nil] at h
      obtain rfl := Option.some.inj h
      exact ⟨congrArg BoxKind.type (kind_layout _ _), outer, [], .root⟩
    | append_singleton path i ih =>
      rw [blockAt?_append] at h
      obtain ⟨parent, hParent, hLast⟩ := Option.bind_eq_some_iff.mp h
      obtain ⟨c, hChild, hc⟩ := Option.bind_eq_some_iff.mp hLast
      obtain rfl := Option.some.inj (Option.ite_none_right_eq_some.mp hc).2
      obtain ⟨hBlock, hb, hMem⟩ := mem_of_blockChild? hChild
      obtain ⟨-, content, above, hFlow⟩ := ih hParent
      obtain ⟨before, after, hSplit⟩ := List.append_of_mem hMem
      exact ⟨hb, _, before, .child hFlow hBlock hSplit⟩
  · rintro ⟨hb, content, before, hFlow⟩
    induction hFlow with
    | root => exact ⟨[], if_pos hb⟩
    | @child _ _ parent before b after _ hBlock hSplit ih =>
      obtain ⟨path, hPath⟩ := ih hBlock
      obtain ⟨x, d, -, rfl⟩ := exists_of_blockAt? hPath
      have hMem : b ∈ (layout d x.blockBox).children := by
        rw [hSplit]
        exact List.mem_append_right _ List.mem_cons_self
      obtain ⟨i, hi⟩ := exists_blockChild?_of_mem hMem hb
      refine ⟨path ++ [i], ?_⟩
      rw [blockAt?_append, hPath, Option.bind_some, blockAt?, hi]
      exact if_pos hb

end Box

namespace Element

theorem layout_of_block {e : Element ν} (h : e.display = .block) (containing : Dimensions ν) :
    e.layout containing = .ok (Box.layout (containing.withHeight Scalar.zero) e.blockBox) := by
  rw [layout, rootBox, box?_of_block h]
  rfl

theorem addressed_layout {e : Element ν} {containing : Dimensions ν} {root : Box ν}
    (h : e.display = .block) (hLaid : e.layout containing = .ok root) :
    root.Addressed containing.content e := by
  rw [layout_of_block h] at hLaid
  obtain rfl := Except.ok.inj hLaid
  intro b
  rw [← Box.exists_blockAt?_iff]
  constructor
  · rintro ⟨path, hb⟩
    obtain ⟨x, d, hAt, rfl⟩ := Box.exists_of_blockAt? hb
    exact ⟨path, x, hAt, Box.kind_layout d x.blockBox, hb⟩
  · rintro ⟨path, -, -, -, hb⟩
    exact ⟨path, hb⟩

end Element

end BlockFlow
