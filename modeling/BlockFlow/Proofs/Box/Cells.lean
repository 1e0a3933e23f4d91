import BlockFlow.Box.Store
import Mathlib.Tactic.ByContra

/-! # The cells of a store

What operations on a store do to its cells, one by one. Layout changes nothing in a cell but its
dimensions.
-/

namespace BlockFlow

namespace Store

variable {ν : Type}

theorem get?_push (s : Store ν) (cell : Cell ν) (i : Nat) :
    (s.push cell).get? i = if i = s.size then some cell else s.get? i :=
  Array.getElem?_push

theorem size_push (s : Store ν) (cell : Cell ν) : (s.push cell).size = s.size + 1 :=
  Array.size_push cell

theorem size_modify (s : Store ν) (id : Nat) (f : Cell ν → Cell ν) : (s.modify id f).size = s.size :=
  Array.size_modify

theorem get?_modify (s : Store ν) (id i : Nat) (f : Cell ν → Cell ν) :
    (s.modify id f).get? i = if id = i then (s.get? i).map f else s.get? i := by
  simp only [get?, modify, Array.getElem?_modify]

theorem get?_modify_self {s : Store ν} {id : Nat} {cell : Cell ν} (h : s.get? id = some cell)
    (f : Cell ν → Cell ν) : (s.modify id f).get? id = some (f cell) := by
  rw [get?_modify, if_pos rfl, h]
  rfl

theorem get?_modify_of_ne (s : Store ν) {id i : Nat} (h : i ≠ id) (f : Cell ν → Cell ν) :
    (s.modify id f).get? i = s.get? i := by
  rw [get?_modify, if_neg h.symm]

theorem get?_eq_none_iff {s : Store ν} {id : Nat} : s.get? id = none ↔ s.size ≤ id := by
  simp [get?, size]

theorem lt_size_of_get? {s : Store ν} {id : Nat} {cell : Cell ν} (h : s.get? id = some cell) :
    id < s.size := by
  by_contra hGe
  rw [get?_eq_none_iff.mpr (Nat.le_of_not_lt hGe)] at h
  cases h

theorem cell_unique {s : Store ν} {id : Nat} {cell cell' : Cell ν} (h : s.get? id = some cell)
    (h' : s.get? id = some cell') : cell = cell' :=
  Option.some.inj (h.symm.trans h')

theorem exists_get?_of_lt {s : Store ν} {id : Nat} (h : id < s.size) :
    ∃ cell, s.get? id = some cell :=
  ⟨s.cells[id], Array.getElem?_eq_getElem h⟩

/-! ## Boxes and their dimensions -/

/-- The boxes are the same and have the same children; only dimensions may be other ones. -/
def SameBoxes (s t : Store ν) : Prop :=
  ∀ i, (t.get? i).map (fun cell => (cell.kind, cell.children)) =
    (s.get? i).map fun cell => (cell.kind, cell.children)

theorem SameBoxes.refl (s : Store ν) : s.SameBoxes s := fun _ => rfl

theorem SameBoxes.trans {s t u : Store ν} (h : s.SameBoxes t) (h' : t.SameBoxes u) : s.SameBoxes u :=
  fun i => (h' i).trans (h i)

theorem sameBoxes_modifyDimensions (s : Store ν) (id : Nat) (f : Dimensions ν → Dimensions ν) :
    s.SameBoxes (s.modifyDimensions id f) := by
  intro i
  rw [modifyDimensions, get?_modify]
  split
  · cases s.get? i <;> rfl
  · rfl

theorem SameBoxes.exists_get? {s t : Store ν} (h : s.SameBoxes t) {id : Nat} {cell : Cell ν}
    (hCell : s.get? id = some cell) : ∃ d, t.get? id = some { cell with dimensions := d } := by
  have hSame := h id
  rw [hCell] at hSame
  obtain ⟨⟨kind, d, children⟩, hGet, hEq⟩ := Option.map_eq_some_iff.mp hSame
  obtain ⟨rfl, rfl⟩ := Prod.mk.inj hEq
  exact ⟨d, hGet⟩

theorem SameBoxes.symm {s t : Store ν} (h : s.SameBoxes t) : t.SameBoxes s := fun i => (h i).symm

/-! ## Layout in place -/

variable [Scalar ν]

/-- A child laid out in place, and the height of its parent grown by it. -/
def layoutChild (depth id : Nat) (s : Store ν) (child : Nat) : Store ν :=
  match s.get? child, s.dimensions? id with
  | some ⟨.block e, _, _⟩, some d => (layoutStyled depth d child e.style s).grow id child
  | _, _ => s.grow id child

theorem layoutStyled_succ {s : Store ν} {id : Nat} {cell : Cell ν} (h : s.get? id = some cell)
    (depth : Nat) (containing : Dimensions ν) (style : Style ν) :
    layoutStyled (depth + 1) containing id style s =
      (cell.children.foldl (layoutChild depth id)
        (s.modifyDimensions id (containing.place style))).modifyDimensions id (·.settle style) := by
  rw [layoutStyled, h]
  rfl

theorem get?_grow {s : Store ν} {id child : Nat} {cell inner : Cell ν} (h : s.get? id = some cell)
    (hChild : s.get? child = some inner) : (s.grow id child).get? id =
      some { cell with dimensions := cell.dimensions.grow inner.dimensions } := by
  rw [grow, dimensions?, hChild]
  exact get?_modify_self h _

theorem get?_grow_of_ne (s : Store ν) {id i : Nat} (h : i ≠ id) (child : Nat) :
    (s.grow id child).get? i = s.get? i := by
  unfold grow
  split
  · exact get?_modify_of_ne s h _
  · rfl

theorem sameBoxes_grow (s : Store ν) (id child : Nat) : s.SameBoxes (s.grow id child) := by
  unfold grow
  split
  · exact sameBoxes_modifyDimensions s id _
  · exact .refl s

theorem layoutChild_of_block {s : Store ν} {depth id child : Nat} {e : Element ν}
    {cell inner : Cell ν} (h : s.get? id = some cell) (hChild : s.get? child = some inner)
    (hKind : inner.kind = .block e) : layoutChild depth id s child =
      (layoutStyled depth cell.dimensions child e.style s).grow id child := by
  obtain ⟨kind, old, children⟩ := inner
  obtain rfl : kind = .block e := hKind
  rw [layoutChild, dimensions?, h, hChild]
  rfl

theorem layoutChild_of_type_ne {s : Store ν} {depth id child : Nat} {inner : Cell ν}
    (hChild : s.get? child = some inner) (hType : inner.kind.type ≠ .block) :
    layoutChild depth id s child = s.grow id child := by
  obtain ⟨kind, old, children⟩ := inner
  rw [layoutChild, hChild]
  cases kind with
  | block e => exact absurd rfl hType
  | inline e => rfl
  | anonymous => rfl

end Store

end BlockFlow
