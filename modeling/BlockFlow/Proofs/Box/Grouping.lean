import BlockFlow.Proofs.Box.Fresh
import Mathlib.Data.List.Chain
import Mathlib.Data.List.Induction

/-! # How inline boxes are grouped

The children of a block come one after another: an inline box goes into the last child if that is
anonymous, and otherwise a new anonymous box is made for it. One such step keeps anonymous boxes
apart and filled with inline boxes; `rootBox_grouped` says so of every box of a document.
-/

namespace BlockFlow

variable {ν : Type}

namespace Box

/-! ## One box and its children -/

/-- How a box may have children. Two anonymous boxes never stand side by side. -/
structure Grouped (b : Box ν) : Prop where
  block : b.type = .block → ∀ c ∈ b.children, c.type ≠ .inline
  holder : ∀ c ∈ b.children, c.type = .anonymous → b.type = .block
  anonymous : b.type = .anonymous → b.children ≠ [] ∧ ∀ c ∈ b.children, c.type = .inline
  apart : b.children.IsChain fun c d => c.type = .anonymous → d.type ≠ .anonymous

/-- Boxes have elements that are displayed as the type of the box says, and anonymous boxes none. -/
structure Styled (b : Box ν) : Prop where
  block : b.type = .block → ∃ e, b.kind.element? = some e ∧ e.display = .block
  inline : b.type = .inline → ∃ e, b.kind.element? = some e ∧ e.display = .inline
  anonymous : b.type = .anonymous → b.kind.element? = none

def Normal (root : Box ν) : Prop := ∀ b, root.Holds b → b.Grouped ∧ b.Styled

theorem normal_iff {root : Box ν} :
    root.Normal ↔ (root.Grouped ∧ root.Styled) ∧ ∀ c ∈ root.children, c.Normal :=
  forall_holds_iff

theorem kind_eq_anonymous {kind : BoxKind ν} (h : kind.type = .anonymous) : kind = .anonymous := by
  cases kind with
  | block e => cases h
  | inline e => cases h
  | anonymous => rfl

theorem isChain_of_no_anonymous {bs : List (Box ν)} (h : ∀ c ∈ bs, c.type ≠ .anonymous) :
    bs.IsChain fun c d => c.type = .anonymous → d.type ≠ .anonymous := by
  refine (List.pairwise_of_forall_mem_list ?_).isChain
  intro c hc d _ hAnonymous
  exact absurd hAnonymous (h c hc)

theorem normal_inline {e : Element ν} {d : Dimensions ν} {children : List (Box ν)}
    (hDisplay : e.display = .inline)
    (h : ∀ c ∈ children, c.Normal ∧ c.type ≠ .anonymous) :
    (mk (.inline e) d children).Normal := by
  refine normal_iff.mpr ⟨⟨⟨?_, ?_, ?_, ?_⟩, ?_, fun _ => ⟨e, rfl, hDisplay⟩, ?_⟩,
    fun c hc => (h c hc).1⟩
  · rintro ⟨⟩
  · intro c hc hAnonymous
    exact absurd hAnonymous (h c hc).2
  · rintro ⟨⟩
  · exact isChain_of_no_anonymous fun c hc => (h c hc).2
  · rintro ⟨⟩
  · rintro ⟨⟩

theorem normal_anonymous {d : Dimensions ν} {run : List (Box ν)} (hRun : run ≠ [])
    (h : ∀ c ∈ run, c.Normal ∧ c.type = .inline) : (mk .anonymous d run).Normal := by
  refine normal_iff.mpr ⟨⟨⟨?_, ?_, fun _ => ⟨hRun, fun c hc => (h c hc).2⟩, ?_⟩,
    ?_, ?_, fun _ => rfl⟩, fun c hc => (h c hc).1⟩
  · rintro ⟨⟩
  · intro c hc hAnonymous
    rw [(h c hc).2] at hAnonymous
    cases hAnonymous
  · refine isChain_of_no_anonymous fun c hc => ?_
    rw [(h c hc).2]
    rintro ⟨⟩
  · rintro ⟨⟩
  · rintro ⟨⟩

/-- The children of a block are as they should be. -/
structure Row (bs : List (Box ν)) : Prop where
  normal : ∀ c ∈ bs, c.Normal
  noInline : ∀ c ∈ bs, c.type ≠ .inline
  apart : bs.IsChain fun c d => c.type = .anonymous → d.type ≠ .anonymous

theorem normal_block {e : Element ν} {d : Dimensions ν} {children : List (Box ν)}
    (hDisplay : e.display = .block) (h : Row children) : (mk (.block e) d children).Normal := by
  refine normal_iff.mpr ⟨⟨⟨fun _ => h.noInline, fun _ _ _ => rfl, ?_, h.apart⟩,
    fun _ => ⟨e, rfl, hDisplay⟩, ?_, ?_⟩, h.normal⟩
  · rintro ⟨⟩
  · rintro ⟨⟩
  · rintro ⟨⟩

theorem Row.concat {bs : List (Box ν)} {b : Box ν} (h : Row bs) (hb : b.Normal)
    (hType : b.type ≠ .inline)
    (hLast : ∀ c ∈ bs.getLast?, c.type = .anonymous → b.type ≠ .anonymous) :
    Row (bs ++ [b]) where
  normal := by
    intro c hc
    rcases List.mem_append.mp hc with hc | hc
    · exact h.normal c hc
    · rwa [List.mem_singleton.mp hc]
  noInline := by
    intro c hc
    rcases List.mem_append.mp hc with hc | hc
    · exact h.noInline c hc
    · rwa [List.mem_singleton.mp hc]
  apart := by
    refine h.apart.append (List.isChain_singleton b) ?_
    intro c hc d hd
    obtain rfl := Option.some.inj hd
    exact hLast c hc

theorem Row.left {bs : List (Box ν)} {b : Box ν} (h : Row (bs ++ [b])) : Row bs where
  normal c hc := h.normal c (List.mem_append_left _ hc)
  noInline c hc := h.noInline c (List.mem_append_left _ hc)
  apart := h.apart.left_of_append

/-! ## One more child -/

variable [Scalar ν]

/-- The children of a block with one more box: an inline box goes into an anonymous one, which is
the last child if that is anonymous and else a new one. -/
def addChild (bs : List (Box ν)) (b : Box ν) : List (Box ν) :=
  match b.type with
  | .inline =>
    match bs.getLast? with
    | some (mk .anonymous d run) => bs.dropLast ++ [mk .anonymous d (run ++ [b])]
    | _ => bs ++ [mk .anonymous .zero [b]]
  | _ => bs ++ [b]

theorem addChild_of_ne_inline {bs : List (Box ν)} {b : Box ν} (h : b.type ≠ .inline) :
    addChild bs b = bs ++ [b] := by
  unfold addChild
  split
  · next hType => exact absurd hType h
  · rfl

theorem addChild_anonymous {bs run : List (Box ν)} {d : Dimensions ν} {b : Box ν}
    (h : b.type = .inline) :
    addChild (bs ++ [mk .anonymous d run]) b = bs ++ [mk .anonymous d (run ++ [b])] := by
  simp [addChild, h]

theorem addChild_new {bs : List (Box ν)} {b : Box ν} (h : b.type = .inline)
    (hLast : ∀ c ∈ bs.getLast?, c.type ≠ .anonymous) :
    addChild bs b = bs ++ [mk .anonymous .zero [b]] := by
  unfold addChild
  rw [h]
  dsimp only
  split
  · next hSome => exact absurd rfl (hLast _ hSome)
  · rfl

theorem Row.addChild {bs : List (Box ν)} {b : Box ν} (h : Row bs) (hb : b.Normal)
    (hType : b.type ≠ .anonymous) : Row (addChild bs b) := by
  by_cases hInline : b.type = .inline
  · by_cases hLast : ∀ c ∈ bs.getLast?, c.type ≠ .anonymous
    · rw [addChild_new hInline hLast]
      refine h.concat (normal_anonymous (List.cons_ne_nil _ _) ?_) (by rintro ⟨⟩) ?_
      · exact List.forall_mem_singleton.mpr ⟨hb, hInline⟩
      · intro c hc hAnonymous
        exact absurd hAnonymous (hLast c hc)
    · push Not at hLast
      obtain ⟨⟨kind, d, run⟩, hLast, hAnonymous⟩ := hLast
      obtain ⟨init, rfl⟩ := List.getLast?_eq_some_iff.mp hLast
      obtain rfl : kind = .anonymous := kind_eq_anonymous hAnonymous
      have hRun := normal_iff.mp (h.normal _ List.mem_concat_self)
      rw [addChild_anonymous hInline]
      refine h.left.concat (normal_anonymous (by simp) ?_) (by rintro ⟨⟩) ?_
      · intro c hc
        rcases List.mem_append.mp hc with hc | hc
        · exact ⟨hRun.2 c hc, (hRun.1.1.anonymous rfl).2 c hc⟩
        · rw [List.mem_singleton.mp hc]
          exact ⟨hb, hInline⟩
      · intro c hc hAnonymous
        exact absurd rfl ((List.isChain_append.mp h.apart).2.2 c hc _ rfl hAnonymous)
  · rw [addChild_of_ne_inline hInline]
    exact h.concat hb hInline fun _ _ _ => hType

theorem addChild_nil (b : Box ν) :
    addChild [] b = if b.type = .inline then [mk .anonymous .zero [b]] else [b] := by
  split
  · next h => exact addChild_new h (by simp)
  · next h => exact addChild_of_ne_inline h

theorem addChild_run (d : Dimensions ν) (run : List (Box ν)) (b : Box ν) :
    addChild [mk .anonymous d run] b =
      if b.type = .inline then [mk .anonymous d (run ++ [b])] else [mk .anonymous d run, b] := by
  split
  · next h => exact @addChild_anonymous _ _ [] _ _ _ h
  · next h => exact addChild_of_ne_inline h

theorem addChild_cons {first : Box ν} {bs : List (Box ν)} {b : Box ν}
    (h : bs = [] → first.type ≠ .anonymous) : addChild (first :: bs) b = first :: addChild bs b := by
  cases bs with
  | nil =>
    by_cases hb : b.type = .inline
    · have hLast : ∀ c ∈ [first].getLast?, c.type ≠ .anonymous := by
        rintro _ ⟨⟩
        exact h rfl
      rw [addChild_new hb hLast, addChild_new hb (by simp)]
      rfl
    · rw [addChild_of_ne_inline hb, addChild_of_ne_inline hb]
      rfl
  | cons second bs =>
    unfold addChild
    rw [List.getLast?_cons_cons]
    split
    · split
      · rfl
      · rfl
    · rfl

theorem addChild_cons_cons {first second : Box ν} {bs : List (Box ν)} {b : Box ν} :
    addChild (first :: second :: bs) b = first :: addChild (second :: bs) b :=
  addChild_cons fun h => absurd h (List.cons_ne_nil _ _)

/-- The boxes behind an inline box, with that box at the start of their first run. -/
def joinRun (b : Box ν) : List (Box ν) → List (Box ν)
  | mk .anonymous d run :: others => mk .anonymous d (b :: run) :: others
  | others => mk .anonymous .zero [b] :: others

theorem joinRun_of_head {b : Box ν} {bs : List (Box ν)}
    (h : ∀ c ∈ bs.head?, c.type ≠ .anonymous) : joinRun b bs = mk .anonymous .zero [b] :: bs := by
  unfold joinRun
  split
  · exact absurd rfl (h _ rfl)
  · rfl

/-- A box joins the first run and another one the last, in either order. -/
theorem joinRun_addChild (c : Box ν) {b : Box ν} (hb : b.type ≠ .anonymous) (bs : List (Box ν)) :
    joinRun c (addChild bs b) = addChild (joinRun c bs) b := by
  cases bs with
  | nil =>
    have hNil : joinRun c [] = [mk .anonymous .zero [c]] := rfl
    rw [hNil, addChild_nil, addChild_run]
    split
    · rfl
    · exact joinRun_of_head (by simpa using hb)
  | cons o others =>
    by_cases ho : o.type = .anonymous
    · obtain ⟨kind, d, run⟩ := o
      obtain rfl : kind = .anonymous := kind_eq_anonymous ho
      cases others with
      | nil =>
        rw [addChild_run, joinRun, addChild_run]
        split
        · rfl
        · rfl
      | cons p others =>
        rw [addChild_cons_cons, joinRun, joinRun,
          addChild_cons_cons]
    · have hHead : ∀ x ∈ (o :: others).head?, x.type ≠ .anonymous := by
        rintro _ ⟨⟩
        exact ho
      have hHead' : ∀ x ∈ (o :: addChild others b).head?, x.type ≠ .anonymous := by
        rintro _ ⟨⟩
        exact ho
      rw [addChild_cons fun _ => ho, joinRun_of_head hHead', joinRun_of_head hHead,
        addChild_cons_cons, addChild_cons fun _ => ho]

end Box

/-! ## All children -/

variable [Scalar ν]

theorem gatherInlines_cons (b : Box ν) (rest : List (Box ν)) :
    gatherInlines (b :: rest) =
      if b.type = .inline then Box.joinRun b (gatherInlines rest) else b :: gatherInlines rest := by
  rw [gatherInlines]
  split
  · next h => rw [if_pos h]; rfl
  · next h => rw [if_neg h]

theorem gatherInlines_concat {bs : List (Box ν)} {b : Box ν} (h : ∀ c ∈ bs, c.type ≠ .anonymous)
    (hb : b.type ≠ .anonymous) : gatherInlines (bs ++ [b]) = Box.addChild (gatherInlines bs) b := by
  induction bs with
  | nil =>
    rw [List.nil_append, gatherInlines_cons, gatherInlines, Box.addChild_nil]
    rfl
  | cons c rest ih =>
    obtain ⟨hc, hRest⟩ := List.forall_mem_cons.mp h
    rw [List.cons_append, gatherInlines_cons, gatherInlines_cons, ih hRest]
    split
    · exact Box.joinRun_addChild c hb _
    · exact (Box.addChild_cons fun _ => hc).symm

theorem row_gatherInlines {bs : List (Box ν)} (h : ∀ c ∈ bs, c.Normal ∧ c.type ≠ .anonymous) :
    Box.Row (gatherInlines bs) := by
  induction bs using List.reverseRecOn with
  | nil => exact ⟨List.forall_mem_nil _, List.forall_mem_nil _, .nil⟩
  | append_singleton bs b ih =>
    have hBs : ∀ c ∈ bs, c.Normal ∧ c.type ≠ .anonymous := fun c hc =>
      h c (List.mem_append_left _ hc)
    obtain ⟨hNormal, hType⟩ := h b List.mem_concat_self
    rw [gatherInlines_concat (fun c hc => (hBs c hc).2) hType]
    exact (ih hBs).addChild hNormal hType

namespace Element

mutual

theorem normal_box? : ∀ (e : Element ν), ∀ b ∈ e.box?, b.Normal ∧ b.type ≠ .anonymous
  | mk tag style children => by
    intro b hb
    have hBoxes := normal_boxes children
    unfold box? at hb
    split at hb
    · next hDisplay =>
      obtain rfl := Option.some.inj hb
      exact ⟨Box.normal_block hDisplay (row_gatherInlines hBoxes), by rintro ⟨⟩⟩
    · next hDisplay =>
      obtain rfl := Option.some.inj hb
      exact ⟨Box.normal_inline hDisplay hBoxes, by rintro ⟨⟩⟩
    · cases hb

theorem normal_boxes : ∀ (es : List (Element ν)), ∀ b ∈ boxes es, b.Normal ∧ b.type ≠ .anonymous
  | [] => by
    intro b hb
    cases hb
  | e :: rest => by
    intro b hb
    have hRest := normal_boxes rest
    unfold boxes at hb
    split at hb
    · next hBox =>
      rcases List.mem_cons.mp hb with rfl | hb
      · exact normal_box? e _ hBox
      · exact hRest b hb
    · exact hRest b hb

end

theorem normal_of_rootBox {e : Element ν} {root : Box ν} (h : e.rootBox = .ok root) :
    root.Normal ∧ root.type ≠ .anonymous := by
  unfold rootBox at h
  split at h
  · next hBox =>
    obtain rfl := Except.ok.inj h
    exact normal_box? e _ hBox
  · cases h

end Element

/-- A visible element gets a box. In every box below it anonymous boxes stand in blocks only, apart
from each other, and gather the inline boxes of the block, so that no inline box is left beside
them; every other box belongs to an element of its display, and none has any dimensions yet. -/
theorem rootBox_grouped {e : Element ν} (h : e.display ≠ .hidden) :
    ∃ root, e.rootBox = .ok root ∧ root.type ≠ .anonymous ∧ ∀ b, root.Holds b →
      b.Grouped ∧ (b.type = .inline → ∀ c ∈ b.children, c.type ≠ .anonymous) ∧ b.Styled ∧
        b.dimensions = .zero := by
  obtain ⟨root, hRoot⟩ := Element.exists_rootBox h
  obtain ⟨hNormal, hType⟩ := Element.normal_of_rootBox hRoot
  refine ⟨root, hRoot, hType, fun b hb => ?_⟩
  obtain ⟨hGrouped, hStyled⟩ := hNormal b hb
  refine ⟨hGrouped, ?_, hStyled, Element.fresh_of_rootBox hRoot b hb⟩
  intro hInline c hc hAnonymous
  rw [hGrouped.holder c hc hAnonymous] at hInline
  cases hInline

/-- A paragraph with two words, a picture and a hidden note between them, and another word. -/
theorem rootBox_grouped_of_paragraph :
    let word : Element Rat := .mk "em" ⟨[]⟩ []
    let note : Element Rat := .mk "aside" ⟨[("display", .keyword "none")]⟩ [word]
    let picture : Element Rat := .mk "img" ⟨[("display", .keyword "block")]⟩ []
    let paragraph : Element Rat :=
      .mk "p" ⟨[("display", .keyword "block")]⟩ [word, note, word, picture, word]
    paragraph.display ≠ .hidden ∧ ∃ root, paragraph.rootBox = .ok root ∧ root.type ≠ .anonymous ∧
      ∀ b, root.Holds b → b.Grouped ∧
        (b.type = .inline → ∀ c ∈ b.children, c.type ≠ .anonymous) ∧ b.Styled ∧
          b.dimensions = .zero :=
  ⟨by decide, rootBox_grouped (by decide)⟩

end BlockFlow
