import BlockFlow.Proofs.Box.Flow
import Mathlib.Data.List.Forall2

/-! # Two trees laid out side by side

Two trees of one shape are compared in two ways at once: the dimensions of the blocks in the flow by
one relation, and the boxes beside these by another. A relation that no step of layout breaks holds
of the dimensions of all blocks in the flow when both trees have been laid out.
-/

namespace BlockFlow

variable {ν : Type}

namespace Box

/-- Two trees of the same blocks in the flow, whose dimensions are related by `R`. Any other child of
such a block is related to the one in its place by `T`. -/
inductive Alike (R : Dimensions ν → Dimensions ν → Prop) (T : Box ν → Box ν → Prop) :
    Box ν → Box ν → Prop
  | block {e d d' children children'} : R d d' → List.Forall₂ (Alike R T) children children' →
      Alike R T (mk (.block e) d children) (mk (.block e) d' children')
  | beside {b b'} : b.type ≠ .block → b'.type ≠ .block → T b b' → Alike R T b b'

/-- Two boxes that are both taken for blocks, with trees below them that are alike. -/
structure AlikeBelow (R : Dimensions ν → Dimensions ν → Prop) (T : Box ν → Box ν → Prop)
    (b b' : Box ν) : Prop where
  kind : b.kind = b'.kind
  dimensions : R b.dimensions b'.dimensions
  children : List.Forall₂ (Alike R T) b.children b'.children

mutual

theorem alike_refl {R : Dimensions ν → Dimensions ν → Prop} {T : Box ν → Box ν → Prop}
    (hR : ∀ d, R d d) (hT : ∀ b, T b b) : ∀ b : Box ν, Alike R T b b
  | mk kind d children => by
    cases kind with
    | block e => exact .block (hR d) (alike_refl_children hR hT children)
    | inline e => exact .beside nofun nofun (hT _)
    | anonymous => exact .beside nofun nofun (hT _)

theorem alike_refl_children {R : Dimensions ν → Dimensions ν → Prop} {T : Box ν → Box ν → Prop}
    (hR : ∀ d, R d d) (hT : ∀ b, T b b) : ∀ bs : List (Box ν), List.Forall₂ (Alike R T) bs bs
  | [] => .nil
  | b :: rest => .cons (alike_refl hR hT b) (alike_refl_children hR hT rest)

end

variable [Scalar ν]

/-- Blocks whose containing blocks are related by `Q` and whose old dimensions are related by `S` get
dimensions related by `R`, and keep them so while their children are laid out. -/
structure LayoutKeeps (Q S R : Dimensions ν → Dimensions ν → Prop) (T : Box ν → Box ν → Prop) :
    Prop where
  contains : ∀ {d d'}, R d d' → Q d d'
  place : ∀ {d d' old old'} (style : Style ν), Q d d' → S old old' →
    R (d.place style old) (d'.place style old')
  grow : ∀ {d d' c c'}, R d d' → R c c' → R (d.grow c) (d'.grow c')
  pass : ∀ {d d'} {b b' : Box ν}, R d d' → T b b' → R (d.grow b.dimensions) (d'.grow b'.dimensions)
  settle : ∀ {d d'} (style : Style ν), R d d' → R (d.settle style) (d'.settle style)

variable {Q S R : Dimensions ν → Dimensions ν → Prop} {T : Box ν → Box ν → Prop}

theorem LayoutKeeps.grow_of_alike (h : LayoutKeeps Q S R T) {d d' : Dimensions ν} {b b' : Box ν}
    (hd : R d d') (hb : Alike R T b b') : R (d.grow b.dimensions) (d'.grow b'.dimensions) := by
  cases hb with
  | block hDimensions _ => exact h.grow hd hDimensions
  | beside _ _ hBeside => exact h.pass hd hBeside

mutual

theorem alike_layout (h : LayoutKeeps Q S R T) : ∀ {d d' : Dimensions ν} (b b' : Box ν), Q d d' →
    Alike S T b b' → Alike R T (layout d b) (layout d' b')
  | d, d', mk kind old children, b', hd, hAlike => by
    cases hAlike with
    | @block e _ old' _ children' hOld hChildren =>
      rw [layout_block, layout_block]
      have hPlaced := h.place e.style hd hOld
      obtain ⟨hFilled, hLaid⟩ := alike_layoutChildren h children children' hPlaced hChildren
      exact .block (h.settle e.style hFilled) hLaid
    | beside hType hType' hBeside =>
      rw [layout_of_type_ne d hType, layout_of_type_ne d' hType']
      exact .beside hType hType' hBeside

/-- One child after the other keeps the two blocks related that they are laid out in. -/
theorem alike_layoutChildren (h : LayoutKeeps Q S R T) : ∀ {d d' : Dimensions ν}
    (bs bs' : List (Box ν)), R d d' → List.Forall₂ (Alike S T) bs bs' →
    R (layoutChildren d bs).2 (layoutChildren d' bs').2 ∧
      List.Forall₂ (Alike R T) (layoutChildren d bs).1 (layoutChildren d' bs').1
  | d, d', [], bs', hd, hAlike => by
    cases hAlike
    rw [layoutChildren, layoutChildren]
    exact ⟨hd, .nil⟩
  | d, d', b :: rest, bs', hd, hAlike => by
    cases hAlike with
    | @cons _ b' _ rest' hFirst hRest =>
      rw [layoutChildren_cons, layoutChildren_cons]
      -- what the parents have become so far is what the children are laid out in
      have hLaid := alike_layout h b b' (h.contains hd) hFirst
      have hGrown := h.grow_of_alike hd hLaid
      obtain ⟨hFilled, hLaidRest⟩ := alike_layoutChildren h rest rest' hGrown hRest
      exact ⟨hFilled, .cons hLaid hLaidRest⟩

end

/-! ## Boxes taken for blocks -/

/-- A box laid out as a block of the given style, be it one or not. -/
def layoutStyled (containing : Dimensions ν) (style : Style ν) (b : Box ν) : Box ν :=
  let (children, d) := layoutChildren (containing.place style b.dimensions) b.children
  mk b.kind (d.settle style) children

theorem layout_eq_layoutStyled (containing : Dimensions ν) {e : Element ν} {b : Box ν}
    (h : b.kind = .block e) : layout containing b = layoutStyled containing e.style b := by
  obtain ⟨kind, old, children⟩ := b
  obtain rfl : kind = .block e := h
  exact layout_block containing e old children

theorem layoutBlock_eq (containing : Dimensions ν) (b : Box ν) :
    layoutBlock containing b = b.kind.element.map fun e => layoutStyled containing e.style b := by
  obtain ⟨kind, old, children⟩ := b
  cases kind with
  | block e => rfl
  | inline e => rfl
  | anonymous => rfl

theorem eq_layoutStyled_of_layoutBlock {containing : Dimensions ν} {b a : Box ν}
    (h : layoutBlock containing b = .ok a) :
    ∃ e, b.kind.element = .ok e ∧ a = layoutStyled containing e.style b := by
  rw [layoutBlock_eq] at h
  cases hElement : b.kind.element with
  | ok e =>
    rw [hElement] at h
    exact ⟨e, rfl, (Except.ok.inj h).symm⟩
  | error _ =>
    rw [hElement] at h
    cases h

theorem alikeBelow_layoutBlock (h : LayoutKeeps Q S R T) {d d' : Dimensions ν} {b b' a a' : Box ν}
    (hd : Q d d') (hAlike : AlikeBelow S T b b') (hLaid : layoutBlock d b = .ok a)
    (hLaid' : layoutBlock d' b' = .ok a') : AlikeBelow R T a a' := by
  obtain ⟨e, hElement, rfl⟩ := eq_layoutStyled_of_layoutBlock hLaid
  obtain ⟨e', hElement', rfl⟩ := eq_layoutStyled_of_layoutBlock hLaid'
  rw [← hAlike.kind, hElement] at hElement'
  obtain rfl := Except.ok.inj hElement'
  have hPlaced := h.place e.style hd hAlike.dimensions
  obtain ⟨hFilled, hBelow⟩ := alike_layoutChildren h b.children b'.children hPlaced hAlike.children
  exact ⟨hAlike.kind, h.settle e.style hFilled, hBelow⟩

end Box

end BlockFlow
