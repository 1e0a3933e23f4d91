import BlockFlow.Box.Generation

/-! # Boxes as they are made

Every box that is made for a document, and every box in it, is still without dimensions.
-/

namespace BlockFlow

variable {ν : Type}

/-- A box and those below it, at every depth. -/
inductive Box.Holds : Box ν → Box ν → Prop
  | self {b} : Holds b b
  | deeper {root c b} : c ∈ root.children → Holds c b → Holds root b

theorem Box.Holds.trans {a b c : Box ν} (hab : a.Holds b) (hbc : b.Holds c) : a.Holds c := by
  induction hab with
  | self => exact hbc
  | deeper hc _ ih => exact .deeper hc (ih hbc)

theorem Box.forall_holds_iff {P : Box ν → Prop} {root : Box ν} :
    (∀ b, root.Holds b → P b) ↔ P root ∧ ∀ c ∈ root.children, ∀ b, c.Holds b → P b := by
  constructor
  · intro h
    exact ⟨h root .self, fun c hc b hb => h b (.deeper hc hb)⟩
  · rintro ⟨hRoot, hChildren⟩ b hb
    cases hb with
    | self => exact hRoot
    | deeper hc hb => exact hChildren _ hc b hb

variable [Scalar ν]

def Box.Fresh (root : Box ν) : Prop := ∀ b, root.Holds b → b.dimensions = .zero

theorem Box.fresh_iff {root : Box ν} :
    root.Fresh ↔ root.dimensions = .zero ∧ ∀ c ∈ root.children, c.Fresh :=
  forall_holds_iff

namespace Box

mutual

/-- The boxes of a tree without their dimensions. -/
def bare : Box ν → Box ν
  | mk kind _ children => mk kind .zero (bareAll children)

def bareAll : List (Box ν) → List (Box ν)
  | [] => []
  | b :: rest => bare b :: bareAll rest

end

theorem bareAll_eq_map (bs : List (Box ν)) : bareAll bs = bs.map bare := by
  induction bs with
  | nil => rfl
  | cons b rest ih => rw [bareAll, ih, List.map_cons]

theorem kind_bare (b : Box ν) : b.bare.kind = b.kind := by
  obtain ⟨kind, dimensions, children⟩ := b
  rw [bare]
  rfl

theorem type_bare (b : Box ν) : b.bare.type = b.type :=
  congrArg BoxKind.type (kind_bare b)

mutual

theorem Fresh.bare_eq : ∀ {b : Box ν}, b.Fresh → b.bare = b
  | mk kind dimensions children => by
    intro h
    obtain rfl : dimensions = .zero := (fresh_iff.mp h).1
    have hChildren : ∀ c ∈ children, c.Fresh := (fresh_iff.mp h).2
    rw [bare, bareAll_eq hChildren]

theorem bareAll_eq : ∀ {bs : List (Box ν)}, (∀ b ∈ bs, b.Fresh) → bareAll bs = bs
  | [] => fun _ => by rw [bareAll]
  | b :: rest => by
    intro h
    obtain ⟨hb, hRest⟩ := List.forall_mem_cons.mp h
    rw [bareAll, hb.bare_eq, bareAll_eq hRest]

end

end Box

theorem fresh_gatherInlines {bs : List (Box ν)} (h : ∀ b ∈ bs, b.Fresh) :
    ∀ b ∈ gatherInlines bs, b.Fresh := by
  fun_induction gatherInlines bs with
  | case1 => exact h
  | case2 b rest hInline d run others hGather ih =>
    obtain ⟨hb, hRest⟩ := List.forall_mem_cons.mp h
    have hGathered := ih hRest
    rw [hGather] at hGathered
    obtain ⟨hRun, hOthers⟩ := List.forall_mem_cons.mp hGathered
    obtain ⟨hZero, hRun⟩ := Box.fresh_iff.mp hRun
    refine List.forall_mem_cons.mpr ⟨Box.fresh_iff.mpr ⟨hZero, ?_⟩, hOthers⟩
    exact List.forall_mem_cons.mpr ⟨hb, hRun⟩
  | case3 b rest hInline hNone ih =>
    obtain ⟨hb, hRest⟩ := List.forall_mem_cons.mp h
    refine List.forall_mem_cons.mpr ⟨Box.fresh_iff.mpr ⟨rfl, ?_⟩, ih hRest⟩
    exact List.forall_mem_singleton.mpr hb
  | case4 b rest hOther ih =>
    obtain ⟨hb, hRest⟩ := List.forall_mem_cons.mp h
    exact List.forall_mem_cons.mpr ⟨hb, ih hRest⟩

namespace Element

mutual

theorem fresh_box? : ∀ (e : Element ν), ∀ b ∈ e.box?, b.Fresh
  | mk tag style children => by
    intro b hb
    have hBoxes := fresh_boxes children
    unfold box? at hb
    split at hb
    · obtain rfl := Option.some.inj hb
      exact Box.fresh_iff.mpr ⟨rfl, fresh_gatherInlines hBoxes⟩
    · obtain rfl := Option.some.inj hb
      exact Box.fresh_iff.mpr ⟨rfl, hBoxes⟩
    · cases hb

theorem fresh_boxes : ∀ (es : List (Element ν)), ∀ b ∈ boxes es, b.Fresh
  | [] => by
    intro b hb
    cases hb
  | e :: rest => by
    intro b hb
    have hRest := fresh_boxes rest
    unfold boxes at hb
    split at hb
    · next hBox =>
      rcases List.mem_cons.mp hb with rfl | hb
      · exact fresh_box? e _ hBox
      · exact hRest b hb
    · exact hRest b hb

end

theorem exists_rootBox {e : Element ν} (h : e.display ≠ .hidden) :
    ∃ root, e.rootBox = .ok root := by
  obtain ⟨tag, style, children⟩ := e
  have hStyle : style.display ≠ .hidden := h
  unfold rootBox box?
  cases hDisplay : style.display with
  | block => exact ⟨_, rfl⟩
  | inline => exact ⟨_, rfl⟩
  | hidden => exact absurd hDisplay hStyle

theorem fresh_of_rootBox {e : Element ν} {root : Box ν} (h : e.rootBox = .ok root) :
    root.Fresh := by
  unfold rootBox at h
  split at h
  · next hBox =>
    obtain rfl := Except.ok.inj h
    exact fresh_box? e _ hBox
  · cases h

end Element

end BlockFlow
