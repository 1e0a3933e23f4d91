import BlockFlow.Proofs.Box.Flow
import BlockFlow.Proofs.Box.Grouping

/-! # Styles written out

A block asks its style for its display, its width and its height, and for a value on each of its
sides, twelve of them in all. For each of the twelve a shorthand stands in, and behind that an
initial value. A style that gives these and nothing else is as good as the one it was written out
from: `layout_longhand`.
-/

namespace BlockFlow

variable {ν : Type}

/-! ## One style -/

/-- A property of one side of a block, with the property that stands in for it on all sides and the
value that it has if neither is given. -/
structure Longhand (ν : Type) where
  name : String
  shorthand : String
  initial : Value ν

def Longhand.value (p : Longhand ν) (s : Style ν) : Value ν := s.lookup p.name p.shorthand p.initial

/-- The margins beside a block are `auto` at first, and all else is zero. -/
def longhands [Scalar ν] : List (Longhand ν) :=
  let zero := .length Scalar.zero
  [⟨"margin-left", "margin", .auto⟩, ⟨"margin-right", "margin", .auto⟩,
    ⟨"margin-top", "margin", zero⟩, ⟨"margin-bottom", "margin", zero⟩,
    ⟨"border-left-width", "border-width", zero⟩, ⟨"border-right-width", "border-width", zero⟩,
    ⟨"border-top-width", "border-width", zero⟩, ⟨"border-bottom-width", "border-width", zero⟩,
    ⟨"padding-left", "padding", zero⟩, ⟨"padding-right", "padding", zero⟩,
    ⟨"padding-top", "padding", zero⟩, ⟨"padding-bottom", "padding", zero⟩]

namespace Style

/-- The style that gives these properties the values beside them, where there is one. -/
def ofRows (rows : List (String × Option (Value ν))) : Style ν :=
  ⟨rows.filterMap fun (name, value?) => value?.map (name, ·)⟩

theorem get?_ofRows_cons (n name : String) (value? : Option (Value ν))
    (rows : List (String × Option (Value ν))) :
    (ofRows ((n, value?) :: rows)).get? name =
      if name = n then value?.or ((ofRows rows).get? name) else (ofRows rows).get? name := by
  cases value? with
  | none =>
    rw [Option.none_or, ite_self]
    rfl
  | some v =>
    rw [Option.some_or]
    exact lookup_entry name n v _

theorem get?_ofRows_of_notMem {rows : List (String × Option (Value ν))} {name : String}
    (h : name ∉ rows.map Prod.fst) : (ofRows rows).get? name = none := by
  induction rows with
  | nil => rfl
  | cons row rows ih =>
    obtain ⟨hName, hRest⟩ := not_or.mp (mt List.mem_cons.mpr h)
    rw [get?_ofRows_cons, if_neg hName, ih hRest]

theorem get?_ofRows {rows : List (String × Option (Value ν))} (hRows : (rows.map Prod.fst).Nodup)
    {name : String} {value? : Option (Value ν)} (h : (name, value?) ∈ rows) :
    (ofRows rows).get? name = value? := by
  induction rows with
  | nil => cases h
  | cons row rows ih =>
    obtain ⟨hFresh, hRest⟩ := List.nodup_cons.mp hRows
    rw [get?_ofRows_cons]
    rcases List.mem_cons.mp h with rfl | h
    · rw [if_pos rfl, get?_ofRows_of_notMem hFresh, Option.or_none]
    · have hName : name ≠ row.1 := by
        rintro rfl
        exact hFresh (List.mem_map.mpr ⟨_, h, rfl⟩)
      rw [if_neg hName, ih hRest h]

variable [Scalar ν]

def longhandRows (s : Style ν) : List (String × Option (Value ν)) :=
  ("display", s.get? "display") :: ("height", s.get? "height") ::
    ("width", some ((s.get? "width").getD .auto)) ::
      longhands.map fun p => (p.name, some (p.value s))

/-- The style written out: its display and its height if it gives them, its width, which is `auto`
if it does not, and the value on each side. -/
def longhand (s : Style ν) : Style ν := ofRows s.longhandRows

theorem nodup_longhandRows (s : Style ν) : (s.longhandRows.map Prod.fst).Nodup := by
  have hNames : s.longhandRows.map Prod.fst = ["display", "height", "width",
      "margin-left", "margin-right", "margin-top", "margin-bottom",
      "border-left-width", "border-right-width", "border-top-width", "border-bottom-width",
      "padding-left", "padding-right", "padding-top", "padding-bottom"] := rfl
  rw [hNames]
  decide

theorem get?_longhand {s : Style ν} {name : String} {value? : Option (Value ν)}
    (h : (name, value?) ∈ s.longhandRows) : s.longhand.get? name = value? :=
  get?_ofRows (nodup_longhandRows s) h

theorem display_longhand (s : Style ν) : s.longhand.display = s.display := by
  have hRow : ("display", s.get? "display") ∈ s.longhandRows := List.mem_cons_self
  rw [display, get?_longhand hRow]
  rfl

theorem height?_longhand (s : Style ν) : s.longhand.height? = s.height? := by
  have hRow : ("height", s.get? "height") ∈ s.longhandRows :=
    List.mem_cons_of_mem _ List.mem_cons_self
  rw [height?, get?_longhand hRow]
  rfl

theorem width_longhand (s : Style ν) :
    (s.longhand.get? "width").getD .auto = (s.get? "width").getD .auto := by
  have hRow : ("width", some ((s.get? "width").getD .auto)) ∈ s.longhandRows :=
    List.mem_cons_of_mem _ (List.mem_cons_of_mem _ List.mem_cons_self)
  rw [get?_longhand hRow]
  rfl

theorem value_longhand (s : Style ν) : ∀ p ∈ longhands, p.value s.longhand = p.value s := by
  intro p hp
  have hRow : (p.name, some (p.value s)) ∈ s.longhandRows := by
    refine List.mem_cons_of_mem _ (List.mem_cons_of_mem _ (List.mem_cons_of_mem _ ?_))
    exact List.mem_map.mpr ⟨p, hp, rfl⟩
  rw [Longhand.value, lookup, get?_longhand hRow]
  rfl

example :
    let s : Style Rat := ⟨[("margin", .length 8), ("margin-left", .auto), ("color", .keyword "red")]⟩
    s.longhand.get? "margin-left" = some .auto ∧ s.longhand.get? "margin-top" = some (.length 8) ∧
      s.longhand.get? "padding-top" = some (.length 0) ∧ s.longhand.get? "margin" = none :=
  ⟨rfl, rfl, rfl, rfl⟩

end Style

namespace Dimensions

variable [Scalar ν]

theorem place_longhand (containing old : Dimensions ν) (s : Style ν) :
    containing.place s.longhand old = containing.place s old := by
  have hSides := s.value_longhand
  -- one equation for each side, in the form in which the side is looked up
  simp only [longhands, List.forall_mem_cons, Longhand.value] at hSides
  simp only [place, Style.widthValues, Style.edge, s.width_longhand, hSides]

theorem settle_longhand (d : Dimensions ν) (s : Style ν) : d.settle s.longhand = d.settle s := by
  rw [settle, settle, s.height?_longhand]

end Dimensions

/-! ## Trees with other styles -/

namespace Element

mutual

def restyle (f : Style ν → Style ν) : Element ν → Element ν
  | mk tag style children => mk tag (f style) (restyleAll f children)

def restyleAll (f : Style ν → Style ν) : List (Element ν) → List (Element ν)
  | [] => []
  | e :: rest => restyle f e :: restyleAll f rest

end

theorem style_restyle (f : Style ν → Style ν) (e : Element ν) : (e.restyle f).style = f e.style := by
  obtain ⟨tag, style, children⟩ := e
  rfl

end Element

/-- A box tree without its elements: its shape, and the type and the dimensions of each box. -/
inductive Frame (ν : Type)
  | mk (type : BoxType) (dimensions : Dimensions ν) (children : List (Frame ν))

def BoxKind.restyle (f : Style ν → Style ν) : BoxKind ν → BoxKind ν
  | block e => block (e.restyle f)
  | inline e => inline (e.restyle f)
  | anonymous => anonymous

theorem BoxKind.type_restyle (f : Style ν → Style ν) (kind : BoxKind ν) :
    (kind.restyle f).type = kind.type := by
  cases kind <;> rfl

namespace Box

mutual

def restyle (f : Style ν → Style ν) : Box ν → Box ν
  | mk kind d children => mk (kind.restyle f) d (restyleAll f children)

def restyleAll (f : Style ν → Style ν) : List (Box ν) → List (Box ν)
  | [] => []
  | b :: rest => restyle f b :: restyleAll f rest

end

mutual

def frame : Box ν → Frame ν
  | mk kind d children => .mk kind.type d (frameAll children)

def frameAll : List (Box ν) → List (Frame ν)
  | [] => []
  | b :: rest => frame b :: frameAll rest

end

variable (f : Style ν → Style ν)

mutual

theorem frame_restyle : ∀ b : Box ν, (b.restyle f).frame = b.frame
  | mk kind d children => by
    rw [restyle, frame, frame, BoxKind.type_restyle, frameAll_restyleAll children]

theorem frameAll_restyleAll : ∀ bs : List (Box ν), frameAll (restyleAll f bs) = frameAll bs
  | [] => rfl
  | b :: rest => by
    rw [restyleAll, frameAll, frameAll, frame_restyle b, frameAll_restyleAll rest]

end

theorem type_restyle (b : Box ν) : (b.restyle f).type = b.type := by
  obtain ⟨kind, d, children⟩ := b
  exact BoxKind.type_restyle f kind

theorem dimensions_restyle (b : Box ν) : (b.restyle f).dimensions = b.dimensions := by
  obtain ⟨kind, d, children⟩ := b
  rfl

variable [Scalar ν]

theorem restyleAll_joinRun (b : Box ν) (bs : List (Box ν)) :
    restyleAll f (joinRun b bs) = joinRun (b.restyle f) (restyleAll f bs) := by
  cases bs with
  | nil => rfl
  | cons c others =>
    obtain ⟨kind, d, run⟩ := c
    cases kind <;> rfl

end Box

variable [Scalar ν]

theorem gatherInlines_restyleAll (f : Style ν → Style ν) (bs : List (Box ν)) :
    gatherInlines (Box.restyleAll f bs) = Box.restyleAll f (gatherInlines bs) := by
  induction bs with
  | nil => rfl
  | cons b rest ih =>
    rw [Box.restyleAll, gatherInlines_cons, gatherInlines_cons, Box.type_restyle, ih]
    split
    · rw [Box.restyleAll_joinRun]
    · rw [Box.restyleAll]

/-! ## Boxes of trees with other styles -/

/-- A change of styles that neither the making of boxes nor their layout notices. -/
structure Style.Unnoticed (f : Style ν → Style ν) : Prop where
  display : ∀ s, (f s).display = s.display
  place : ∀ (containing old : Dimensions ν) (s : Style ν),
    containing.place (f s) old = containing.place s old
  settle : ∀ (d : Dimensions ν) (s : Style ν), d.settle (f s) = d.settle s

theorem Style.unnoticed_longhand : Unnoticed (longhand : Style ν → Style ν) where
  display := display_longhand
  place := Dimensions.place_longhand
  settle := Dimensions.settle_longhand

variable {f : Style ν → Style ν}

mutual

theorem Element.box?_restyle (hf : Style.Unnoticed f) :
    ∀ e : Element ν, (e.restyle f).box? = e.box?.map (Box.restyle f)
  | mk tag style children => by
    rw [restyle, box?, box?, hf.display, boxes_restyleAll hf children, gatherInlines_restyleAll]
    cases style.display with
    | block => simp [Box.restyle, BoxKind.restyle, restyle]
    | inline => simp [Box.restyle, BoxKind.restyle, restyle]
    | hidden => rfl

theorem Element.boxes_restyleAll (hf : Style.Unnoticed f) :
    ∀ es : List (Element ν), boxes (restyleAll f es) = Box.restyleAll f (boxes es)
  | [] => rfl
  | e :: rest => by
    rw [restyleAll, boxes, boxes, box?_restyle hf e, boxes_restyleAll hf rest]
    cases e.box? with
    | some b => rfl
    | none => rfl

end

namespace Box

mutual

theorem layout_restyle (hf : Style.Unnoticed f) (containing : Dimensions ν) :
    ∀ b : Box ν, layout containing (b.restyle f) = (layout containing b).restyle f
  | mk kind old children => by
    cases kind with
    | block e =>
      rw [layout_block, restyle, BoxKind.restyle, layout_block, Element.style_restyle, hf.place,
        hf.settle, layoutChildren_restyleAll hf, restyle]
      rfl
    | inline e =>
      have hType : (mk (.inline e) old children).type ≠ .block := nofun
      rw [layout_of_type_ne containing hType, layout_of_type_ne]
      rwa [type_restyle]
    | anonymous =>
      have hType : (mk .anonymous old children).type ≠ .block := nofun
      rw [layout_of_type_ne containing hType, layout_of_type_ne]
      rwa [type_restyle]

theorem layoutChildren_restyleAll (hf : Style.Unnoticed f) (d : Dimensions ν) :
    ∀ bs : List (Box ν), layoutChildren d (restyleAll f bs) =
      (restyleAll f (layoutChildren d bs).1, (layoutChildren d bs).2)
  | [] => by rw [restyleAll, layoutChildren, restyleAll]
  | b :: rest => by
    rw [restyleAll, layoutChildren_cons, layoutChildren_cons, layout_restyle hf, dimensions_restyle,
      layoutChildren_restyleAll hf, restyleAll]

end

end Box

theorem Element.layout_restyle_eq (hf : Style.Unnoticed f) (containing : Dimensions ν)
    (e : Element ν) :
    (e.restyle f).layout containing = (e.layout containing).map (Box.restyle f) := by
  have hRoot : (e.restyle f).rootBox = e.rootBox.map (Box.restyle f) := by
    rw [rootBox, rootBox, box?_restyle hf]
    cases e.box? with
    | some b => rfl
    | none => rfl
  rw [layout, layout, hRoot]
  cases e.rootBox with
  | ok b => exact congrArg Except.ok (Box.layout_restyle hf _ b)
  | error _ => rfl

/-! ## Trees written out -/

/-- The tree with the style of every element written out. -/
def Element.longhand (e : Element ν) : Element ν := e.restyle Style.longhand

/-- Shorthands and initial values are only a notation: a tree with all styles written out has the
same box tree, box by box of the same type and with the same dimensions, in every containing block
and in whatever numbers; and if its root is hidden, neither of the two has one. -/
theorem layout_longhand (containing : Dimensions ν) (e : Element ν) :
    (e.longhand.layout containing).map Box.frame = (e.layout containing).map Box.frame := by
  rw [Element.longhand, Element.layout_restyle_eq Style.unnoticed_longhand]
  cases e.layout containing with
  | ok root => exact congrArg Except.ok (Box.frame_restyle _ root)
  | error _ => rfl

end BlockFlow
