import BlockFlow.Proofs.Box.Cells
import BlockFlow.Proofs.Box.Comparison
import Mathlib.Data.List.Perm.Subperm

/-! # Trees in a store

A tree hangs from a box of a store if its boxes are those that are reached from there. Where no box of
it is reached twice, laying it out in place does to the store what laying out the tree does to the
tree, and nothing to any other box.
-/

namespace BlockFlow

namespace Store

variable {ν : Type}

/-! ## The tree that hangs from a box -/

mutual

/-- The tree `b` hangs from the box with a number, and its boxes have these numbers, in the order of
the document. -/
inductive Hangs (s : Store ν) : Nat → Box ν → List Nat → Prop
  | mk {id kind d children bs ids} : s.get? id = some ⟨kind, d, children⟩ →
      HangAll s children bs ids → Hangs s id (.mk kind d bs) (id :: ids)

/-- Several trees hang from boxes, one from each. -/
inductive HangAll (s : Store ν) : List Nat → List (Box ν) → List Nat → Prop
  | nil : HangAll s [] [] []
  | cons {id rest b bs ids ids'} : Hangs s id b ids → HangAll s rest bs ids' →
      HangAll s (id :: rest) (b :: bs) (ids ++ ids')

end

/-- The tree hangs from the box, and no box of it is reached in two ways. -/
def Unshared (s : Store ν) (id : Nat) (b : Box ν) : Prop := ∃ ids, s.Hangs id b ids ∧ ids.Nodup

mutual

theorem Hangs.congr {s t : Store ν} : ∀ {b : Box ν} {id : Nat} {ids : List Nat},
    s.Hangs id b ids → (∀ i ∈ ids, t.get? i = s.get? i) → t.Hangs id b ids
  | .mk kind d bs, id, _, h, hSame => by
    cases h with
    | mk hCell hAll =>
      obtain ⟨hRoot, hBelow⟩ := List.forall_mem_cons.mp hSame
      exact .mk (hRoot.trans hCell) (hAll.congr hBelow)

theorem HangAll.congr {s t : Store ν} : ∀ {bs : List (Box ν)} {children ids : List Nat},
    s.HangAll children bs ids → (∀ i ∈ ids, t.get? i = s.get? i) → t.HangAll children bs ids
  | [], _, _, h, _ => by
    cases h
    exact .nil
  | b :: rest, _, _, h, hSame => by
    cases h with
    | cons hFirst hRest =>
      obtain ⟨hSameFirst, hSameRest⟩ := List.forall_mem_append.mp hSame
      exact .cons (hFirst.congr hSameFirst) (hRest.congr hSameRest)

end

mutual

theorem Hangs.lt_size {s : Store ν} : ∀ {b : Box ν} {id : Nat} {ids : List Nat},
    s.Hangs id b ids → ∀ i ∈ ids, i < s.size
  | .mk kind d bs, id, _, h => by
    cases h with
    | mk hCell hAll => exact List.forall_mem_cons.mpr ⟨lt_size_of_get? hCell, hAll.lt_size⟩

theorem HangAll.lt_size {s : Store ν} : ∀ {bs : List (Box ν)} {children ids : List Nat},
    s.HangAll children bs ids → ∀ i ∈ ids, i < s.size
  | [], _, _, h => by
    cases h
    exact List.forall_mem_nil _
  | b :: rest, _, _, h => by
    cases h with
    | cons hFirst hRest => exact List.forall_mem_append.mpr ⟨hFirst.lt_size, hRest.lt_size⟩

end

theorem Hangs.length_le_size {s : Store ν} {b : Box ν} {id : Nat} {ids : List Nat}
    (h : s.Hangs id b ids) (hNodup : ids.Nodup) : ids.length ≤ s.size := by
  have hSubset : ids ⊆ List.range s.size := fun i hi => List.mem_range.mpr (h.lt_size i hi)
  have hLength := (hNodup.subperm hSubset).length_le
  rwa [List.length_range] at hLength

theorem Hangs.get?_root {s : Store ν} {b : Box ν} {id : Nat} {ids : List Nat} (h : s.Hangs id b ids) :
    ∃ children, s.get? id = some ⟨b.kind, b.dimensions, children⟩ := by
  cases h with
  | mk hCell _ => exact ⟨_, hCell⟩

/-! ## Layout in place -/

variable [Scalar ν]

/-- What becomes of a child that a tree hangs from, and of its parent, once the tree is laid out. -/
structure ChildLaid (s : Store ν) (id child : Nat) (cell : Cell ν) (b : Box ν) (ids : List Nat)
    (t : Store ν) : Prop where
  hangs : t.Hangs child b ids
  parent : t.get? id = some { cell with dimensions := cell.dimensions.grow b.dimensions }
  elsewhere : ∀ i, i ≠ id → i ∉ ids → t.get? i = s.get? i

theorem childLaid_grow {s t : Store ν} {id child : Nat} {cell : Cell ν} {b : Box ν} {ids : List Nat}
    (hHangs : t.Hangs child b ids) (hId : id ∉ ids) (hCell : t.get? id = some cell)
    (hElsewhere : ∀ i, i ∉ ids → t.get? i = s.get? i) :
    ChildLaid s id child cell b ids (t.grow id child) := by
  obtain ⟨children, hChild⟩ := hHangs.get?_root
  have hGrown := get?_grow hCell hChild
  constructor
  case hangs =>
    apply hHangs.congr
    intro i hi
    exact get?_grow_of_ne t (ne_of_mem_of_not_mem hi hId) child
  case parent => exact hGrown
  case elsewhere =>
    intro i hNe hi
    rw [get?_grow_of_ne t hNe child, hElsewhere i hi]

theorem childLaid_layoutChild {s : Store ν} {depth id child : Nat} {cell : Cell ν} {b : Box ν}
    {ids : List Nat} (hHangs : s.Hangs child b ids) (hId : id ∉ ids) (hCell : s.get? id = some cell)
    (hInside : ∀ e, b.kind = .block e →
      (layoutStyled depth cell.dimensions child e.style s).Hangs child
          (b.layoutStyled cell.dimensions e.style) ids ∧
        ∀ i, i ∉ ids → (layoutStyled depth cell.dimensions child e.style s).get? i = s.get? i) :
    ChildLaid s id child cell (Box.layout cell.dimensions b) ids (layoutChild depth id s child) := by
  obtain ⟨below, hChild⟩ := hHangs.get?_root
  by_cases hType : b.type = .block
  · obtain ⟨e, hKind⟩ := BoxKind.exists_eq_block hType
    obtain ⟨hLaid, hElsewhere⟩ := hInside e hKind
    rw [layoutChild_of_block hCell hChild hKind, Box.layout_eq_layoutStyled _ hKind]
    exact childLaid_grow hLaid hId ((hElsewhere id hId).trans hCell) hElsewhere
  · rw [layoutChild_of_type_ne hChild hType, Box.layout_of_type_ne _ hType]
    exact childLaid_grow hHangs hId hCell fun _ _ => rfl

/-- What becomes of the children that trees hang from, and of their parent, once all are laid out. -/
structure ChildrenLaid (s : Store ν) (id : Nat) (children : List Nat) (cell : Cell ν)
    (d : Dimensions ν) (bs : List (Box ν)) (ids : List Nat) (t : Store ν) : Prop where
  hangs : t.HangAll children bs ids
  parent : t.get? id = some { cell with dimensions := d }
  elsewhere : ∀ i, i ≠ id → i ∉ ids → t.get? i = s.get? i

theorem ChildLaid.cons {s t u : Store ν} {id child : Nat} {others ids ids' : List Nat} {cell : Cell ν}
    {d d' : Dimensions ν} {b : Box ν} {bs : List (Box ν)} (hFirst : ChildLaid s id child cell b ids t)
    (hRest : ChildrenLaid t id others { cell with dimensions := d } d' bs ids' u) (hId : id ∉ ids)
    (hApart : ∀ i ∈ ids, i ∉ ids') :
    ChildrenLaid s id (child :: others) cell d' (b :: bs) (ids ++ ids') u := by
  constructor
  case hangs =>
    refine .cons (hFirst.hangs.congr ?_) hRest.hangs
    intro i hi
    exact hRest.elsewhere i (ne_of_mem_of_not_mem hi hId) (hApart i hi)
  case parent => exact hRest.parent
  case elsewhere =>
    intro i hNe hi
    obtain ⟨hiFirst, hiRest⟩ := not_or.mp (mt List.mem_append.mpr hi)
    rw [hRest.elsewhere i hNe hiRest, hFirst.elsewhere i hNe hiFirst]

omit [Scalar ν] in
theorem ChildrenLaid.settled {s t : Store ν} {id : Nat} {children ids : List Nat} {cell : Cell ν}
    {d : Dimensions ν} {bs : List (Box ν)} (h : ChildrenLaid s id children cell d bs ids t)
    (hChildren : cell.children = children) (hId : id ∉ ids) (f : Dimensions ν → Dimensions ν) :
    (t.modifyDimensions id f).Hangs id (.mk cell.kind (f d) bs) (id :: ids) ∧
      ∀ i, i ∉ id :: ids → (t.modifyDimensions id f).get? i = s.get? i := by
  subst hChildren
  constructor
  · apply Hangs.mk (get?_modify_self h.parent _)
    apply h.hangs.congr
    intro i hi
    exact get?_modify_of_ne t (ne_of_mem_of_not_mem hi hId) _
  · intro i hi
    obtain ⟨hNe, hi⟩ := not_or.mp (mt List.mem_cons.mpr hi)
    rw [modifyDimensions, get?_modify_of_ne t hNe, h.elsewhere i hNe hi]

mutual

/-- The tree below a box is laid out as it would be outside of the store. -/
theorem hangs_layoutStyled : ∀ (b : Box ν) {s : Store ν} {depth id : Nat} {ids : List Nat}
    (containing : Dimensions ν) (style : Style ν), s.Hangs id b ids → ids.Nodup →
    ids.length ≤ depth →
      (layoutStyled depth containing id style s).Hangs id (b.layoutStyled containing style) ids ∧
        ∀ i, i ∉ ids → (layoutStyled depth containing id style s).get? i = s.get? i
  | .mk kind old bs, s, depth, id, _, containing, style, h, hNodup, hDepth => by
    cases h with
    | @mk _ _ _ children _ ids hCell hAll =>
      obtain ⟨hId, hNodup⟩ := List.nodup_cons.mp hNodup
      obtain ⟨depth, rfl⟩ : ∃ n, depth = n + 1 := ⟨depth - 1, by simp at hDepth; omega⟩
      have hDepth : ids.length ≤ depth := by simpa using hDepth
      have hPlacedCell := get?_modify_self hCell fun cell =>
        { cell with dimensions := containing.place style cell.dimensions }
      have hPlaced : (s.modifyDimensions id (containing.place style)).HangAll children bs ids :=
        hAll.congr fun i hi => get?_modify_of_ne s (ne_of_mem_of_not_mem hi hId) _
      obtain ⟨hSettled, hElsewhere⟩ :=
        (childrenLaid_foldl bs hPlaced hPlacedCell hNodup hId hDepth).settled rfl hId (·.settle style)
      rw [layoutStyled_succ hCell]
      refine ⟨hSettled, fun i hi => ?_⟩
      rw [hElsewhere i hi]
      exact get?_modify_of_ne s (List.ne_of_not_mem_cons hi) _

theorem childrenLaid_foldl : ∀ (bs : List (Box ν)) {s : Store ν} {depth id : Nat} {cell : Cell ν}
    {children ids : List Nat}, s.HangAll children bs ids → s.get? id = some cell → ids.Nodup →
    id ∉ ids → ids.length ≤ depth →
      ChildrenLaid s id children cell (Box.layoutChildren cell.dimensions bs).2
        (Box.layoutChildren cell.dimensions bs).1 ids (children.foldl (layoutChild depth id) s)
  | [], s, depth, id, cell, _, _, h, hCell, _, _, _ => by
    cases h
    rw [Box.layoutChildren]
    exact ⟨.nil, hCell, fun _ _ _ => rfl⟩
  | b :: rest, s, depth, id, cell, _, _, h, hCell, hNodup, hId, hDepth => by
    cases h with
    | @cons child others _ _ ids ids' hFirst hRest =>
      obtain ⟨hNodupFirst, hNodupRest, hDisjoint⟩ := List.nodup_append.mp hNodup
      obtain ⟨hIdFirst, hIdRest⟩ := not_or.mp (mt List.mem_append.mpr hId)
      have hApart : ∀ i ∈ ids, i ∉ ids' := fun i hi hi' => hDisjoint i hi i hi' rfl
      rw [List.length_append] at hDepth
      have hDepthFirst : ids.length ≤ depth := by omega
      have hDepthRest : ids'.length ≤ depth := by omega
      have hLaid : ChildLaid s id child cell (Box.layout cell.dimensions b) ids
          (layoutChild depth id s child) :=
        childLaid_layoutChild hFirst hIdFirst hCell fun e _ =>
          hangs_layoutStyled b cell.dimensions e.style hFirst hNodupFirst hDepthFirst
      -- the trees behind it have not been touched
      have hBehind : (layoutChild depth id s child).HangAll others rest ids' := by
        apply hRest.congr
        intro i hi
        exact hLaid.elsewhere i (ne_of_mem_of_not_mem hi hIdRest) fun hi' => hApart i hi' hi
      have hAll := childrenLaid_foldl rest hBehind hLaid.parent hNodupRest hIdRest hDepthRest
      rw [List.foldl_cons, Box.layoutChildren_cons]
      exact hLaid.cons hAll hIdFirst hApart

end

/-- A tree is laid out in place as it would be by itself, if no box of it is reached in two ways. -/
theorem exists_layoutBlock {s : Store ν} {id : Nat} {b : Box ν} (h : s.Unshared id b)
    (hType : b.type ≠ .anonymous) (containing : Dimensions ν) :
    ∃ t a, s.layoutBlock containing id = .ok t ∧ b.layoutBlock containing = .ok a ∧
      t.Unshared id a := by
  obtain ⟨ids, hHangs, hNodup⟩ := h
  obtain ⟨children, hCell⟩ := hHangs.get?_root
  obtain ⟨e, hElement, hElement?⟩ := BoxKind.exists_element_of_type_ne hType
  have hStyle : s.style? id = some e.style := by
    rw [style?, hCell]
    exact congrArg (Option.map Element.style) hElement?
  obtain ⟨hLaid, -⟩ := hangs_layoutStyled b containing e.style hHangs hNodup
    (hHangs.length_le_size hNodup)
  refine ⟨_, _, ?_, ?_, ids, hLaid, hNodup⟩
  · rw [layoutBlock, hStyle]
  · rw [Box.layoutBlock_eq, hElement]
    rfl

end Store

end BlockFlow
