import BlockFlow.Proofs.Box.Blocks
import BlockFlow.Proofs.Number.Sums
import Mathlib.Algebra.Order.Field.Rat

/-! # What takes no room

What is not displayed as a block takes no room in the flow, and neither does what is in it: the
anonymous boxes among the children of a block have no height, and a running height does not notice
that nothing is added to it. So two documents with the same blocks are laid out alike, whatever else
they hold.
-/

namespace BlockFlow

/-! ## The flow of a document -/

/-- The blocks in the flow below a block, each with a label. -/
inductive Flow (α : Type)
  | mk (label : α) (inside : List (Flow α))

variable {ν α : Type}

namespace Element

mutual

/-- The flow of an element: its block and those in it, without all that is not displayed as a block
or stands in such an element. There is none if the element is not displayed as a block. -/
def flow (label : Element ν → α) : Element ν → List (Flow α)
  | mk tag style children =>
    match style.display with
    | .block => [.mk (label (mk tag style children)) (flowAll label children)]
    | _ => []

def flowAll (label : Element ν → α) : List (Element ν) → List (Flow α)
  | [] => []
  | e :: rest => flow label e ++ flowAll label rest

end

end Element

namespace Box

mutual

/-- The flow of a box tree: the blocks all of whose ancestors are blocks. -/
def flow (label : Element ν → Dimensions ν → α) : Box ν → List (Flow α)
  | mk (.block e) d children => [.mk (label e d) (flowAll label children)]
  | _ => []

def flowAll (label : Element ν → Dimensions ν → α) : List (Box ν) → List (Flow α)
  | [] => []
  | b :: rest => flow label b ++ flowAll label rest

end

end Box

namespace Element

variable (label : Element ν → α)

theorem flow_of_block {e : Element ν} (h : e.display = .block) :
    e.flow label = [.mk (label e) (flowAll label e.children)] := by
  obtain ⟨tag, style, children⟩ := e
  have hStyle : style.display = .block := h
  rw [flow, hStyle]
  rfl

theorem flow_of_display_ne {e : Element ν} (h : e.display ≠ .block) : e.flow label = [] := by
  obtain ⟨tag, style, children⟩ := e
  have hStyle : style.display ≠ .block := h
  rw [flow]
  cases hDisplay : style.display with
  | block => exact absurd hDisplay hStyle
  | inline => rfl
  | hidden => rfl

theorem flowAll_filter (es : List (Element ν)) :
    flowAll label (es.filter isBlock) = flowAll label es := by
  induction es with
  | nil => rfl
  | cons e rest ih =>
    by_cases hBlock : e.display = .block
    · have hTrue : e.isBlock = true := decide_eq_true hBlock
      rw [List.filter_cons_of_pos hTrue, flowAll, flowAll, ih]
    · have hFalse : ¬ e.isBlock = true := by simpa [isBlock] using hBlock
      rw [List.filter_cons_of_neg hFalse, flowAll, ih, flow_of_display_ne label hBlock]
      rfl

end Element

/-! ## Running totals -/

variable [Scalar ν]

/-- What a sum that starts at zero can be, if zeros that are added to it change nothing. -/
structure Scalar.RunningTotal (total : ν → Prop) : Prop where
  zero : total Scalar.zero
  add : ∀ {x}, total x → ∀ y, total (x + y)
  add_zero : ∀ {x}, total x → x + Scalar.zero = x

theorem Number.runningTotal : Scalar.RunningTotal (· ≠ negativeZero) where
  zero := by
    intro h
    have hSign := congrArg isNegative h
    rw [negativeZero, isNegative_ofMagnitude true (Nat.zero_le _)] at hSign
    cases hSign
  add hx y := add_ne_negativeZero hx y
  add_zero hx := add_zero_of_ne hx

theorem Rat.runningTotal : Scalar.RunningTotal fun _ : Rat => True where
  zero := trivial
  add _ _ := trivial
  add_zero _ := Rat.add_zero _

namespace Box

variable {total : ν → Prop} (hTotal : Scalar.RunningTotal total)

include hTotal

theorem marginBox_height_zero : (Dimensions.zero : Dimensions ν).marginBox.height = Scalar.zero := by
  have hZero := hTotal.add_zero hTotal.zero
  simp only [Dimensions.marginBox, Dimensions.borderBox, Dimensions.paddingBox, Rect.expandedBy,
    Dimensions.zero, Rect.zero, Edges.zero, hZero]

theorem total_stacked (bs : List (Box ν)) : total (stacked Scalar.zero bs) := by
  induction bs using List.reverseRecOn with
  | nil => exact hTotal.zero
  | append_singleton bs b ih =>
    rw [stacked, List.foldl_append]
    exact hTotal.add ih _

theorem grow_zero {d : Dimensions ν} (hd : total d.content.height) : d.grow .zero = d := by
  rw [Dimensions.grow, marginBox_height_zero hTotal, hTotal.add_zero hd]
  rfl

/-- Boxes without dimensions among the children of a block change nothing for the blocks. -/
theorem layoutChildren_filter {bs : List (Box ν)}
    (hFlat : ∀ b ∈ bs, b.type ≠ .block → b.dimensions = .zero) {d : Dimensions ν}
    (hd : total d.content.height) :
    layoutChildren d (bs.filter isBlock) =
      ((layoutChildren d bs).1.filter isBlock, (layoutChildren d bs).2) := by
  induction bs generalizing d with
  | nil => simp only [List.filter_nil, layoutChildren]
  | cons b rest ih =>
    obtain ⟨hb, hRest⟩ := List.forall_mem_cons.mp hFlat
    have hGrown := ih hRest (d := d.grow (layout d b).dimensions) (hTotal.add hd _)
    have hLaid : (layout d b).isBlock = b.isBlock := by
      rw [isBlock, type, kind_layout]
      rfl
    rw [layoutChildren_cons]
    by_cases hBlock : b.type = .block
    · have hTrue : b.isBlock = true := decide_eq_true hBlock
      rw [List.filter_cons_of_pos hTrue, layoutChildren_cons]
      dsimp only
      rw [List.filter_cons_of_pos (hLaid.trans hTrue), hGrown]
    · have hFalse : ¬ b.isBlock = true := by simpa [isBlock] using hBlock
      have hSame : d.grow b.dimensions = d := by rw [hb hBlock, grow_zero hTotal hd]
      rw [List.filter_cons_of_neg hFalse, layout_of_type_ne d hBlock, hSame]
      dsimp only
      rw [List.filter_cons_of_neg hFalse]
      exact ih hRest hd

omit [Scalar ν] hTotal in
theorem flow_of_type_ne (label : Element ν → Dimensions ν → α) {b : Box ν}
    (h : b.type ≠ .block) : b.flow label = [] := by
  obtain ⟨kind, d, children⟩ := b
  cases kind with
  | block e => exact absurd rfl h
  | inline e => rfl
  | anonymous => rfl

omit [Scalar ν] hTotal in
theorem flowAll_filter (label : Element ν → Dimensions ν → α) (bs : List (Box ν)) :
    flowAll label (bs.filter isBlock) = flowAll label bs := by
  induction bs with
  | nil => rfl
  | cons b rest ih =>
    by_cases hBlock : b.type = .block
    · have hTrue : b.isBlock = true := decide_eq_true hBlock
      rw [List.filter_cons_of_pos hTrue, flowAll, flowAll, ih]
    · have hFalse : ¬ b.isBlock = true := by simpa [isBlock] using hBlock
      rw [List.filter_cons_of_neg hFalse, flowAll, ih, flow_of_type_ne label hBlock]
      rfl

theorem layoutChildren_boxes (label : Element ν → Dimensions ν → α) (es : List (Element ν))
    {d : Dimensions ν} (hd : total d.content.height) :
    let boxes := gatherInlines (Element.boxes es)
    let blocks := (es.filter Element.isBlock).map Element.blockBox
    (layoutChildren d blocks).2 = (layoutChildren d boxes).2 ∧
      flowAll label (layoutChildren d blocks).1 = flowAll label (layoutChildren d boxes).1 := by
  have hFlat : ∀ b ∈ gatherInlines (Element.boxes es), b.type ≠ .block → b.dimensions = .zero :=
    fun b hb _ => fresh_gatherInlines (Element.fresh_boxes es) b hb b .self
  have hLaid := layoutChildren_filter hTotal hFlat hd
  rw [filter_gatherInlines, filter_boxes] at hLaid
  dsimp only
  rw [hLaid, flowAll_filter]
  exact ⟨rfl, rfl⟩

end Box

/-! ## Two documents with the same flow -/

section Styles

variable {s s' : Style ν} (h : s.get? = s'.get?)

include h

theorem Dimensions.place_congr (containing old : Dimensions ν) :
    containing.place s old = containing.place s' old := by
  simp only [Dimensions.place, Style.widthValues, Style.edge, Style.lookup, h]

omit [Scalar ν] in
theorem Dimensions.settle_congr (d : Dimensions ν) : d.settle s = d.settle s' := by
  rw [Dimensions.settle, Dimensions.settle, Style.height?, Style.height?, h]

end Styles

/-- The values that the style of an element gives to properties. -/
def Element.values (e : Element ν) : String → Option (Value ν) := e.style.get?

namespace Element

omit [Scalar ν] in
theorem eq_nil_of_flowAll {label : Element ν → α} {es : List (Element ν)}
    (hBlocks : ∀ e ∈ es, e.display = .block) (h : flowAll label es = []) : es = [] := by
  cases es with
  | nil => rfl
  | cons e rest =>
    rw [flowAll, flow_of_block label (hBlocks e List.mem_cons_self)] at h
    cases h

omit [Scalar ν] in
theorem exists_of_flowAll_cons {label : Element ν → α} {es : List (Element ν)} {t : Flow α}
    {ts : List (Flow α)} (hBlocks : ∀ e ∈ es, e.display = .block)
    (h : flowAll label es = t :: ts) :
    ∃ e rest, es = e :: rest ∧ e.flow label = [t] ∧ flowAll label rest = ts := by
  cases es with
  | nil => cases h
  | cons e rest =>
    have hFlow := flow_of_block label (hBlocks e List.mem_cons_self)
    rw [flowAll, hFlow] at h
    obtain ⟨hFirst, hRest⟩ := List.cons.inj h
    exact ⟨e, rest, rfl, hFirst ▸ hFlow, hRest⟩

end Element

namespace Box

theorem flow_layout_blockBox (label : Element ν → Dimensions ν → α) (d : Dimensions ν)
    (e : Element ν) :
    (layout d e.blockBox).flow label = [.mk (label e (layout d e.blockBox).dimensions)
      (flowAll label (layout d e.blockBox).children)] := by
  rw [Element.blockBox, layout_block]
  rfl

mutual

/-- Blocks with the same flow are laid out alike in the same place. -/
theorem flow_layout_congr {total : ν → Prop} (hTotal : Scalar.RunningTotal total) :
    ∀ (t : Flow (String → Option (Value ν))) (e e' : Element ν),
    e.display = .block → e'.display = .block → e.flow Element.values = [t] →
      e'.flow Element.values = [t] → ∀ d : Dimensions ν,
        (layout d e.blockBox).flow (fun _ d => d) = (layout d e'.blockBox).flow fun _ d => d
  | .mk values inside, e, e', he, he', hFlow, hFlow', d => by
    rw [Element.flow_of_block _ he] at hFlow
    rw [Element.flow_of_block _ he'] at hFlow'
    obtain ⟨hValues, hInside⟩ := Flow.mk.inj (List.cons.inj hFlow).1
    obtain ⟨hValues', hInside'⟩ := Flow.mk.inj (List.cons.inj hFlow').1
    have hStyle : e.style.get? = e'.style.get? := hValues.trans hValues'.symm
    have hZero : total (d.place e'.style .zero).content.height := hTotal.zero
    have hBlocks (e : Element ν) : ∀ c ∈ e.children.filter Element.isBlock, c.display = .block :=
      fun c hc => of_decide_eq_true (List.mem_filter.mp hc).2
    rw [← Element.flowAll_filter] at hInside hInside'
    obtain ⟨hGrown, hLaid⟩ := flowAll_layout_congr hTotal inside _ _ (hBlocks e) (hBlocks e')
      hInside hInside' (d.place e'.style .zero)
    -- in either of them only the block children count
    obtain ⟨hAll, hAllLaid⟩ := layoutChildren_boxes hTotal (fun _ d => d) e.children hZero
    obtain ⟨hAll', hAllLaid'⟩ := layoutChildren_boxes hTotal (fun _ d => d) e'.children hZero
    rw [Element.blockBox, Element.blockBox, layout_block, layout_block,
      Dimensions.place_congr hStyle, Dimensions.settle_congr hStyle, flow, flow,
      ← hAll, ← hAll', ← hAllLaid, ← hAllLaid', hGrown, hLaid]

theorem flowAll_layout_congr {total : ν → Prop} (hTotal : Scalar.RunningTotal total) :
    ∀ (ts : List (Flow (String → Option (Value ν)))) (es es' : List (Element ν)),
      (∀ e ∈ es, e.display = .block) → (∀ e ∈ es', e.display = .block) →
      Element.flowAll Element.values es = ts → Element.flowAll Element.values es' = ts →
        ∀ d : Dimensions ν,
          (layoutChildren d (es.map Element.blockBox)).2 =
              (layoutChildren d (es'.map Element.blockBox)).2 ∧
            flowAll (fun _ d => d) (layoutChildren d (es.map Element.blockBox)).1 =
              flowAll (fun _ d => d) (layoutChildren d (es'.map Element.blockBox)).1
  | [], es, es', hBlocks, hBlocks', hFlow, hFlow', d => by
    obtain rfl := Element.eq_nil_of_flowAll hBlocks hFlow
    obtain rfl := Element.eq_nil_of_flowAll hBlocks' hFlow'
    exact ⟨rfl, rfl⟩
  | t :: ts, es, es', hBlocks, hBlocks', hFlow, hFlow', d => by
    obtain ⟨e, rest, rfl, hFirst, hRest⟩ := Element.exists_of_flowAll_cons hBlocks hFlow
    obtain ⟨e', rest', rfl, hFirst', hRest'⟩ := Element.exists_of_flowAll_cons hBlocks' hFlow'
    obtain ⟨he, hBlocks⟩ := List.forall_mem_cons.mp hBlocks
    obtain ⟨he', hBlocks'⟩ := List.forall_mem_cons.mp hBlocks'
    have hSame := flow_layout_congr hTotal t e e' he he' hFirst hFirst' d
    have hDimensions : (layout d e.blockBox).dimensions = (layout d e'.blockBox).dimensions := by
      rw [flow_layout_blockBox, flow_layout_blockBox] at hSame
      exact (Flow.mk.inj (List.cons.inj hSame).1).1
    obtain ⟨hGrown, hLaid⟩ := flowAll_layout_congr hTotal ts rest rest' hBlocks hBlocks' hRest hRest'
      (d.grow (layout d e'.blockBox).dimensions)
    rw [List.map_cons, List.map_cons, layoutChildren_cons, layoutChildren_cons]
    dsimp only
    rw [flowAll, flowAll, hSame, hDimensions, hGrown, hLaid]
    exact ⟨rfl, rfl⟩

end

/-! ## The elements of the blocks -/

section Elements

variable (label : Element ν → α)

mutual

theorem flow_bare : ∀ b : Box ν, b.bare.flow (fun x _ => label x) = b.flow fun x _ => label x
  | mk (.block e) _ children => by rw [bare, flow, flow, flowAll_bareAll]
  | mk (.inline e) _ _ => rfl
  | mk .anonymous _ _ => rfl

theorem flowAll_bareAll : ∀ bs : List (Box ν),
    flowAll (fun x _ => label x) (bareAll bs) = flowAll (fun x _ => label x) bs
  | [] => rfl
  | b :: rest => by rw [bareAll, flowAll, flowAll, flow_bare, flowAll_bareAll]

end

theorem flowAll_gatherInlines (bs : List (Box ν)) :
    flowAll (fun x _ => label x) (gatherInlines bs) = flowAll (fun x _ => label x) bs := by
  rw [← flowAll_filter, filter_gatherInlines, flowAll_filter]

mutual

theorem flow_blockBox : ∀ e : Element ν, e.display = .block →
    e.blockBox.flow (fun x _ => label x) = e.flow label
  | .mk tag style children, h => by
    rw [Element.flow_of_block _ h, Element.blockBox, flow, flowAll_gatherInlines]
    dsimp only [Element.children]
    rw [flowAll_boxes children]

theorem flowAll_boxes : ∀ es : List (Element ν),
    flowAll (fun x _ => label x) (Element.boxes es) = Element.flowAll label es
  | [] => rfl
  | e :: rest => by
    rw [Element.boxes, Element.flowAll, ← flowAll_boxes rest]
    by_cases hBlock : e.display = .block
    · rw [Element.box?_of_block hBlock]
      dsimp only
      rw [flowAll, flow_blockBox e hBlock]
    · rw [Element.flow_of_display_ne label hBlock]
      split
      · next hBox =>
        rw [flowAll, flow_of_type_ne _ (Element.type_of_box? hBox hBlock)]
      · rfl

end

theorem flow_layout (containing : Dimensions ν) {e : Element ν} (h : e.display = .block) :
    (layout containing e.blockBox).flow (fun x _ => label x) = e.flow label := by
  rw [← flow_bare, bare_layout, flow_bare, flow_blockBox label e h]

end Elements

end Box

/-- Two documents whose blocks have the same values are laid out alike: each of them gets a box tree
with just its blocks in the flow, and these have the same dimensions in both. -/
def LayoutIgnoresInlines (ν : Type) [Scalar ν] : Prop :=
  ∀ (containing : Dimensions ν) (e e' : Element ν), e.display = .block → e'.display = .block →
    e.flow Element.values = e'.flow Element.values →
      ∃ root root', e.layout containing = .ok root ∧ e'.layout containing = .ok root' ∧
        root.flow (fun x _ => x) = e.flow (fun x => x) ∧
        root'.flow (fun x _ => x) = e'.flow (fun x => x) ∧
        root.flow (fun _ d => d) = root'.flow (fun _ d => d)

theorem layoutIgnoresInlines_of_runningTotal {total : ν → Prop}
    (hTotal : Scalar.RunningTotal total) : LayoutIgnoresInlines ν := by
  intro containing e e' h h' hFlow
  have hSame := Box.flow_layout_congr hTotal _ e e' h h' (Element.flow_of_block _ h)
    (hFlow ▸ Element.flow_of_block _ h) (containing.withHeight Scalar.zero)
  exact ⟨_, _, Element.layout_of_block h containing, Element.layout_of_block h' containing,
    Box.flow_layout (fun x => x) _ h, Box.flow_layout (fun x => x) _ h', hSame⟩

/-- Inline and hidden content changes nothing for the blocks around it, neither in floating-point
numbers, infinities and what is not a number included, nor in exact ones. In floating-point numbers
this is because the height that some boxes take up from zero on is never the negative zero, which
alone would notice that zero is added to it. -/
theorem layout_ignores_inlines :
    LayoutIgnoresInlines Float ∧ LayoutIgnoresInlines Rat ∧
      (∀ boxes : List (Box Float), Box.stacked 0 boxes ≠ Number.negativeZero) ∧
      ∀ x : Float, x ≠ Number.negativeZero → x + 0 = x :=
  ⟨layoutIgnoresInlines_of_runningTotal Number.runningTotal,
    layoutIgnoresInlines_of_runningTotal Rat.runningTotal,
    Box.total_stacked Number.runningTotal, fun _ hx => Number.add_zero_of_ne hx⟩

/-- A block among others, with a word that holds a wide and high block of its own before it and
something hidden behind it. -/
theorem layout_ignores_inlines_of_page :
    let block : String × Value Float := ("display", .keyword "block")
    let size : List (String × Value Float) := [("width", .length 900), ("height", .length 700)]
    let paragraph : Element Float := .mk "p" ⟨[block, ("height", .length 40)]⟩ []
    let word : Element Float := .mk "em" ⟨size⟩ [.mk "div" ⟨block :: size⟩ []]
    let secret : Element Float := .mk "" ⟨[("display", .keyword "none")]⟩ [paragraph]
    let page : Element Float := .mk "body" ⟨[block]⟩ [paragraph]
    let page' : Element Float := .mk "body" ⟨[block]⟩ [word, paragraph, secret]
    let viewport : Dimensions Float := .ofViewport 800
    page.flow Element.values = page'.flow Element.values ∧ ∃ root root',
      page.layout viewport = .ok root ∧ page'.layout viewport = .ok root' ∧
        root.flow (fun x _ => x) = page.flow (fun x => x) ∧
        root'.flow (fun x _ => x) = page'.flow (fun x => x) ∧
        root.flow (fun _ d => d) = root'.flow (fun _ d => d) := by
  intro block size paragraph word secret page page' viewport
  exact ⟨rfl, layout_ignores_inlines.1 viewport page page' rfl rfl rfl⟩

end BlockFlow
