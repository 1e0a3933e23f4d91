import BlockFlow.Proofs.Box.Grouping

/-! # Boxes and the elements they show

Without its anonymous boxes a box tree is the tree of the visible elements. The anonymous boxes can
be put back in one way only, so that a grouped tree is known from the elements that it shows:
`rootBox_forced`.
-/

namespace BlockFlow

variable {ν : Type}

/-- A tree of visible elements, each displayed as a block or inline. -/
inductive Outline (ν : Type)
  | block (element : Element ν) (children : List (Outline ν))
  | inline (element : Element ν) (children : List (Outline ν))

namespace Element

mutual

/-- The tree of an element without what is hidden in it; nothing if the element is hidden. -/
def visible : Element ν → List (Outline ν)
  | mk tag style children =>
    match style.display with
    | .block => [.block (mk tag style children) (visibleAll children)]
    | .inline => [.inline (mk tag style children) (visibleAll children)]
    | .hidden => []

def visibleAll : List (Element ν) → List (Outline ν)
  | [] => []
  | e :: rest => visible e ++ visibleAll rest

end

end Element

namespace Box

mutual

/-- The tree of a box with its children in the place of each anonymous box. -/
def shown : Box ν → List (Outline ν)
  | mk (.block e) _ children => [.block e (shownAll children)]
  | mk (.inline e) _ children => [.inline e (shownAll children)]
  | mk .anonymous _ children => shownAll children

def shownAll : List (Box ν) → List (Outline ν)
  | [] => []
  | b :: rest => shown b ++ shownAll rest

end

def Arranged (root : Box ν) : Prop := ∀ b, root.Holds b → b.Grouped

theorem arranged_iff {root : Box ν} :
    root.Arranged ↔ root.Grouped ∧ ∀ c ∈ root.children, c.Arranged :=
  forall_holds_iff

/-! ## What generation shows -/

variable [Scalar ν]

theorem shownAll_joinRun (b : Box ν) (bs : List (Box ν)) :
    shownAll (joinRun b bs) = shown b ++ shownAll bs := by
  unfold joinRun
  split
  · simp only [shownAll, shown, List.append_assoc]
  · simp only [shownAll, shown, List.append_nil]

end Box

variable [Scalar ν]

theorem shownAll_gatherInlines (bs : List (Box ν)) :
    Box.shownAll (gatherInlines bs) = Box.shownAll bs := by
  induction bs with
  | nil => rfl
  | cons b rest ih =>
    rw [gatherInlines_cons, Box.shownAll]
    split
    · rw [Box.shownAll_joinRun, ih]
    · rw [Box.shownAll, ih]

namespace Element

mutual

theorem shownAll_box? : ∀ e : Element ν, Box.shownAll e.box?.toList = e.visible
  | mk tag style children => by
    have hChildren := shownAll_boxes children
    rw [box?, visible]
    cases style.display with
    | block =>
      simp only [Option.toList, Box.shownAll, Box.shown, List.append_nil,
        shownAll_gatherInlines, hChildren]
    | inline =>
      simp only [Option.toList, Box.shownAll, Box.shown, List.append_nil, hChildren]
    | hidden => rfl

theorem shownAll_boxes : ∀ es : List (Element ν), Box.shownAll (boxes es) = visibleAll es
  | [] => rfl
  | e :: rest => by
    have hFirst := shownAll_box? e
    rw [boxes, visibleAll, ← hFirst]
    cases box? e with
    | some b =>
      simp only [Option.toList, Box.shownAll, List.append_nil, shownAll_boxes rest]
    | none => simp only [Option.toList, Box.shownAll, List.nil_append, shownAll_boxes rest]

end

end Element

/-! ## Grouping again -/

namespace Outline

mutual

/-- The box of an outline: the inline boxes among the children of a block are gathered. -/
def box : Outline ν → Box ν
  | block e children => .mk (.block e) .zero (gatherInlines (boxes children))
  | inline e children => .mk (.inline e) .zero (boxes children)

def boxes : List (Outline ν) → List (Box ν)
  | [] => []
  | o :: rest => box o :: boxes rest

end

theorem boxes_append (os others : List (Outline ν)) :
    boxes (os ++ others) = boxes os ++ boxes others := by
  induction os with
  | nil => rfl
  | cons o os ih => rw [List.cons_append, boxes, boxes, ih, List.cons_append]

end Outline

theorem gatherInlines_run {run bs : List (Box ν)} (hRun : run ≠ [])
    (hInline : ∀ c ∈ run, c.type = .inline)
    (hHead : ∀ c ∈ (gatherInlines bs).head?, c.type ≠ .anonymous) :
    gatherInlines (run ++ bs) = .mk .anonymous .zero run :: gatherInlines bs := by
  induction run with
  | nil => exact absurd rfl hRun
  | cons b run ih =>
    obtain ⟨hb, hRest⟩ := List.forall_mem_cons.mp hInline
    rw [List.cons_append, gatherInlines_cons, if_pos hb]
    cases run with
    | nil => rw [List.nil_append, Box.joinRun_of_head hHead]
    | cons c run =>
      rw [ih (List.cons_ne_nil _ _) hRest, Box.joinRun]

namespace Box

mutual

/-- Without dimensions a grouped tree is the tree of its outline. -/
theorem boxes_shown : ∀ b : Box ν, b.Arranged → b.type ≠ .anonymous →
    Outline.boxes b.shown = [b.bare]
  | mk kind d children => by
    intro h hType
    obtain ⟨hGrouped, hChildren⟩ := arranged_iff.mp h
    cases kind with
    | block e =>
      rw [shown, Outline.boxes, Outline.boxes, Outline.box, bare,
        gatherInlines_shownAll children hChildren (hGrouped.block rfl) hGrouped.apart]
    | inline e =>
      have hNone : ∀ c ∈ children, c.type ≠ .anonymous := by
        intro c hc hAnonymous
        cases hGrouped.holder c hc hAnonymous
      rw [shown, Outline.boxes, Outline.boxes, Outline.box, bare,
        boxes_shownAll children hChildren hNone]
    | anonymous => exact absurd rfl hType

theorem boxes_shownAll : ∀ bs : List (Box ν), (∀ b ∈ bs, b.Arranged) →
    (∀ b ∈ bs, b.type ≠ .anonymous) → Outline.boxes (shownAll bs) = bareAll bs
  | [] => fun _ _ => rfl
  | b :: rest => by
    intro h hNone
    obtain ⟨hb, hRest⟩ := List.forall_mem_cons.mp h
    obtain ⟨hbNone, hRestNone⟩ := List.forall_mem_cons.mp hNone
    rw [shownAll, Outline.boxes_append, boxes_shown b hb hbNone,
      boxes_shownAll rest hRest hRestNone, bareAll]
    rfl

/-- The runs of a block are longest runs of its inline boxes, as anonymous boxes stand apart. -/
theorem gatherInlines_shownAll : ∀ bs : List (Box ν), (∀ b ∈ bs, b.Arranged) →
    (∀ b ∈ bs, b.type ≠ .inline) →
    (bs.IsChain fun c d => c.type = .anonymous → d.type ≠ .anonymous) →
    gatherInlines (Outline.boxes (shownAll bs)) = bareAll bs
  | [] => fun _ _ _ => rfl
  | mk kind d children :: rest => by
    intro h hInline hApart
    obtain ⟨hb, hRest⟩ := List.forall_mem_cons.mp h
    obtain ⟨hbInline, hRestInline⟩ := List.forall_mem_cons.mp hInline
    obtain ⟨hNext, hRestApart⟩ := List.isChain_cons.mp hApart
    have hGather := gatherInlines_shownAll rest hRest hRestInline hRestApart
    cases kind with
    | block e =>
      have hBlock := boxes_shown (mk (.block e) d children) hb (by rintro ⟨⟩)
      have hType : (mk (.block e) d children).bare.type ≠ .inline := by
        rw [type_bare]
        exact hbInline
      rw [shownAll, Outline.boxes_append, hBlock, bareAll, ← hGather, List.singleton_append,
        gatherInlines_cons, if_neg hType]
    | inline e => exact absurd rfl hbInline
    | anonymous =>
      obtain ⟨hGrouped, hRun⟩ := arranged_iff.mp hb
      obtain ⟨hNonempty, hRunInline⟩ := hGrouped.anonymous rfl
      have hNone : ∀ c ∈ children, c.type ≠ .anonymous := by
        intro c hc
        rw [hRunInline c hc]
        rintro ⟨⟩
      have hBareRun : bareAll children ≠ [] := by
        rw [bareAll_eq_map]
        exact mt List.map_eq_nil_iff.mp hNonempty
      have hBare : ∀ c ∈ bareAll children, c.type = .inline := by
        rw [bareAll_eq_map]
        intro c hc
        obtain ⟨b, hb, rfl⟩ := List.mem_map.mp hc
        rw [type_bare, hRunInline b hb]
      have hHead : ∀ c ∈ (bareAll rest).head?, c.type ≠ .anonymous := by
        rw [bareAll_eq_map, List.head?_map]
        intro c hc
        obtain ⟨b, hb, rfl⟩ := Option.map_eq_some_iff.mp hc
        rw [type_bare]
        exact hNext b hb rfl
      rw [shownAll, shown, Outline.boxes_append, boxes_shownAll children hRun hNone,
        gatherInlines_run hBareRun hBare (hGather ▸ hHead),
        hGather, bareAll, bare]

end

/-- What a grouped tree shows says where its anonymous boxes are. -/
theorem bare_eq_of_shown_eq {b b' : Box ν} (h : b.Arranged) (h' : b'.Arranged)
    (hType : b.type ≠ .anonymous) (hType' : b'.type ≠ .anonymous)
    (hShown : b.shown = b'.shown) : b.bare = b'.bare := by
  have hBoxes := boxes_shown b h hType
  rw [hShown, boxes_shown b' h' hType'] at hBoxes
  exact (List.cons.inj hBoxes).1.symm

end Box

theorem Element.shown_of_rootBox {e : Element ν} {root : Box ν} (h : e.rootBox = .ok root) :
    root.shown = e.visible := by
  have hVisible := e.shownAll_box?
  unfold rootBox at h
  split at h
  · next hBox =>
    obtain rfl := Except.ok.inj h
    rw [← hVisible, hBox]
    exact (List.append_nil _).symm
  · cases h

theorem Element.rootBox_eq_error_iff {e : Element ν} :
    e.rootBox = .error .hiddenRoot ↔ e.display = .hidden := by
  constructor
  · intro h
    by_contra hVisible
    obtain ⟨root, hRoot⟩ := exists_rootBox hVisible
    rw [hRoot] at h
    cases h
  · intro h
    obtain ⟨tag, style, children⟩ := e
    have hStyle : style.display = .hidden := h
    rw [rootBox, box?, hStyle]

/-- Only a hidden root has no box. The box of any other root shows the tree of the visible elements,
each in its place, and every tree that shows the same and has its inline boxes grouped is that box,
but for the dimensions it may have got. -/
theorem rootBox_forced (e : Element ν) :
    (e.rootBox = .error .hiddenRoot ↔ e.display = .hidden) ∧
      (e.display ≠ .hidden → ∃ root, e.rootBox = .ok root ∧ root.shown = e.visible ∧
        root.type ≠ .anonymous ∧ root.Arranged ∧
        ∀ b : Box ν, b.type ≠ .anonymous → b.Arranged → b.shown = e.visible →
          b.bare = root) := by
  refine ⟨Element.rootBox_eq_error_iff, fun h => ?_⟩
  obtain ⟨root, hRoot⟩ := Element.exists_rootBox h
  obtain ⟨hNormal, hType⟩ := Element.normal_of_rootBox hRoot
  have hArranged : root.Arranged := fun b hb => (hNormal b hb).1
  have hShown := Element.shown_of_rootBox hRoot
  refine ⟨root, hRoot, hShown, hType, hArranged, fun b hbType hb hbShown => ?_⟩
  rw [Box.bare_eq_of_shown_eq hb hArranged hbType hType (hbShown.trans hShown.symm)]
  exact (Element.fresh_of_rootBox hRoot).bare_eq

end BlockFlow
