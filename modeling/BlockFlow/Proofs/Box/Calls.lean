import BlockFlow.Proofs.Box.Acyclic

/-! # What layout does call by call

A box is asked for its element whenever its style is needed, also when its children have been laid out
already, and a box that has none ends all calls that are under way. Here layout is described in this
way, as a relation. No box below the one that is laid out ever ends it; so below a box without cycles
the calls come to one end, which is what layout in place computes.
-/

namespace BlockFlow

namespace Store

variable {ν : Type}

/-- What is to be laid out, where a containing block is given by what its dimensions are then. -/
inductive Call (ν : Type)
  | layout (containing : Dimensions ν) (id : Nat)
  | layoutBlock (containing : Dimensions ν) (id : Nat)
  | layoutChildren (id : Nat) (children : List Nat)

/-- What a call leaves behind: the store as it then is, and the error that ended it, if one did. -/
structure Result (ν : Type) where
  store : Store ν
  error? : Option BoxError

def Result.toExcept (r : Result ν) : Except BoxError (Store ν) :=
  match r.error? with
  | some error => .error error
  | none => .ok r.store

variable [Scalar ν]

inductive Runs : Call ν → Store ν → Result ν → Prop
  -- only a block is laid out, and the others are passed over
  | block {containing id s cell r} : s.get? id = some cell → cell.kind.type = .block →
      Runs (.layoutBlock containing id) s r → Runs (.layout containing id) s r
  | other {containing id s cell} : s.get? id = some cell → cell.kind.type ≠ .block →
      Runs (.layout containing id) s ⟨s, none⟩
  -- the element is asked for when the box is placed, and once more for its height
  | unstyled {containing id s cell error} : s.get? id = some cell →
      cell.kind.element = .error error → Runs (.layoutBlock containing id) s ⟨s, some error⟩
  | interrupted {containing id s cell e t error} : s.get? id = some cell →
      cell.kind.element = .ok e → Runs (.layoutChildren id cell.children)
        (s.modifyDimensions id (containing.place e.style)) ⟨t, some error⟩ →
      Runs (.layoutBlock containing id) s ⟨t, some error⟩
  | unsettled {containing id s cell e t filled error} : s.get? id = some cell →
      cell.kind.element = .ok e → Runs (.layoutChildren id cell.children)
        (s.modifyDimensions id (containing.place e.style)) ⟨t, none⟩ →
      t.get? id = some filled → filled.kind.element = .error error →
      Runs (.layoutBlock containing id) s ⟨t, some error⟩
  | settled {containing id s cell e t filled e'} : s.get? id = some cell →
      cell.kind.element = .ok e → Runs (.layoutChildren id cell.children)
        (s.modifyDimensions id (containing.place e.style)) ⟨t, none⟩ →
      t.get? id = some filled → filled.kind.element = .ok e' →
      Runs (.layoutBlock containing id) s ⟨t.modifyDimensions id (·.settle e'.style), none⟩
  -- each child is laid out in what its parent has become so far
  | done {id s} : Runs (.layoutChildren id []) s ⟨s, none⟩
  | next {id s d child rest t r} : s.dimensions? id = some d →
      Runs (.layout d child) s ⟨t, none⟩ → Runs (.layoutChildren id rest) (t.grow id child) r →
      Runs (.layoutChildren id (child :: rest)) s r
  | broken {id s d child rest t error} : s.dimensions? id = some d →
      Runs (.layout d child) s ⟨t, some error⟩ →
      Runs (.layoutChildren id (child :: rest)) s ⟨t, some error⟩

variable {call : Call ν} {s : Store ν} {r : Result ν} {id : Nat} {containing : Dimensions ν}

theorem Runs.sameBoxes (h : Runs call s r) : s.SameBoxes r.store := by
  induction h with
  | block _ _ _ ih => exact ih
  | other => exact .refl _
  | unstyled => exact .refl _
  | interrupted _ _ _ ih => exact (sameBoxes_modifyDimensions _ _ _).trans ih
  | unsettled _ _ _ _ _ ih => exact (sameBoxes_modifyDimensions _ _ _).trans ih
  | settled _ _ _ _ _ ih =>
    exact ((sameBoxes_modifyDimensions _ _ _).trans ih).trans (sameBoxes_modifyDimensions _ _ _)
  | done => exact .refl _
  | next _ _ _ ihChild ihRest => exact (ihChild.trans (sameBoxes_grow _ _ _)).trans ihRest
  | broken _ _ ih => exact ih

/-- Once its children are laid out, a box still has the element that it had before. -/
theorem Runs.kind_filled {ids : List Nat} {cell filled : Cell ν} {f : Dimensions ν → Dimensions ν}
    (h : Runs (.layoutChildren id ids) (s.modifyDimensions id f) r) (hCell : s.get? id = some cell)
    (hFilled : r.store.get? id = some filled) : filled.kind = cell.kind := by
  obtain ⟨d, hGet⟩ := ((sameBoxes_modifyDimensions s id f).trans h.sameBoxes).exists_get? hCell
  rw [hFilled] at hGet
  obtain rfl := Option.some.inj hGet
  rfl

/-- An error only comes from the box itself that is to be laid out as a block, and comes first. -/
theorem Runs.of_error (h : Runs call s r) {error : BoxError} (hError : r.error? = some error) :
    ∃ containing id cell, call = .layoutBlock containing id ∧ s.get? id = some cell ∧
      cell.kind.element = .error error ∧ r.store = s := by
  induction h with
  | block hCell hBlock _ ih =>
    -- a block has an element, so the call of its own cannot have failed at once
    obtain ⟨_, _, cell', hCall, hCell', hElement, -⟩ := ih hError
    cases hCall
    obtain rfl := cell_unique hCell hCell'
    obtain ⟨e, hKind⟩ := BoxKind.exists_eq_block hBlock
    rw [hKind] at hElement
    cases hElement
  | other => cases hError
  | unstyled hCell hElement =>
    obtain rfl := Option.some.inj hError
    exact ⟨_, _, _, rfl, hCell, hElement, rfl⟩
  | interrupted _ _ _ ih =>
    obtain ⟨_, _, _, hCall, -⟩ := ih hError
    cases hCall
  | unsettled hCell hElement hChildren hFilled hNone _ =>
    rw [hChildren.kind_filled hCell hFilled, hElement] at hNone
    cases hNone
  | settled => cases hError
  | done => cases hError
  | next _ _ _ _ ih =>
    obtain ⟨_, _, _, hCall, -⟩ := ih hError
    cases hCall
  | broken _ _ ih =>
    obtain ⟨_, _, _, hCall, -⟩ := ih hError
    cases hCall

/-! ## One call in terms of those it makes -/

theorem runs_layout_iff {cell : Cell ν} (hCell : s.get? id = some cell) :
    Runs (.layout containing id) s r ↔
      if cell.kind.type = .block then Runs (.layoutBlock containing id) s r else r = ⟨s, none⟩ := by
  constructor
  · intro h
    cases h with
    | block hCell' hBlock hRun =>
      obtain rfl := cell_unique hCell hCell'
      rwa [if_pos hBlock]
    | other hCell' hType =>
      obtain rfl := cell_unique hCell hCell'
      rw [if_neg hType]
  · split
    · next hBlock => exact .block hCell hBlock
    · next hType =>
      rintro rfl
      exact .other hCell hType

theorem runs_layoutBlock_iff_of_error {cell : Cell ν} {error : BoxError}
    (hCell : s.get? id = some cell) (hElement : cell.kind.element = .error error) :
    Runs (.layoutBlock containing id) s r ↔ r = ⟨s, some error⟩ := by
  constructor
  · intro h
    cases h with
    | unstyled hCell' hElement' =>
      obtain rfl := cell_unique hCell hCell'
      obtain rfl := Except.error.inj (hElement.symm.trans hElement')
      rfl
    | interrupted hCell' hElement' =>
      obtain rfl := cell_unique hCell hCell'
      cases hElement.symm.trans hElement'
    | unsettled hCell' hElement' =>
      obtain rfl := cell_unique hCell hCell'
      cases hElement.symm.trans hElement'
    | settled hCell' hElement' =>
      obtain rfl := cell_unique hCell hCell'
      cases hElement.symm.trans hElement'
  · rintro rfl
    exact .unstyled hCell hElement

theorem runs_layoutBlock_iff_of_ok {cell : Cell ν} {e : Element ν} (hCell : s.get? id = some cell)
    (hElement : cell.kind.element = .ok e) :
    Runs (.layoutBlock containing id) s r ↔
      ∃ t, Runs (.layoutChildren id cell.children)
          (s.modifyDimensions id (containing.place e.style)) ⟨t, none⟩ ∧
        r = ⟨t.modifyDimensions id (·.settle e.style), none⟩ := by
  constructor
  · intro h
    cases h with
    | unstyled hCell' hElement' =>
      obtain rfl := cell_unique hCell hCell'
      cases hElement.symm.trans hElement'
    | interrupted hCell' _ hChildren =>
      obtain ⟨_, _, _, hCall, -⟩ := hChildren.of_error rfl
      cases hCall
    | unsettled hCell' _ hChildren hFilled hElement' =>
      obtain rfl := cell_unique hCell hCell'
      rw [hChildren.kind_filled hCell hFilled, hElement] at hElement'
      cases hElement'
    | settled hCell' hElement' hChildren hFilled hStill =>
      obtain rfl := cell_unique hCell hCell'
      rw [hChildren.kind_filled hCell hFilled, hElement] at hStill
      obtain rfl := Except.ok.inj (hElement.symm.trans hElement')
      obtain rfl := Except.ok.inj hStill
      exact ⟨_, hChildren, rfl⟩
  · rintro ⟨t, hChildren, rfl⟩
    obtain ⟨d, hFilled⟩ :=
      ((sameBoxes_modifyDimensions s id _).trans hChildren.sameBoxes).exists_get? hCell
    exact .settled hCell hElement hChildren hFilled hElement

theorem runs_layoutChildren_nil_iff : Runs (.layoutChildren id []) s r ↔ r = ⟨s, none⟩ := by
  constructor
  · rintro ⟨⟩
    rfl
  · rintro rfl
    exact .done

theorem runs_layoutChildren_cons_iff {d : Dimensions ν} (hd : s.dimensions? id = some d) {child : Nat}
    {rest : List Nat} : Runs (.layoutChildren id (child :: rest)) s r ↔
      ∃ t, Runs (.layout d child) s ⟨t, none⟩ ∧
        Runs (.layoutChildren id rest) (t.grow id child) r := by
  constructor
  · intro h
    cases h with
    | next hd' hChild hRest =>
      obtain rfl := Option.some.inj (hd.symm.trans hd')
      exact ⟨_, hChild, hRest⟩
    | broken _ hChild =>
      obtain ⟨_, _, _, hCall, -⟩ := hChild.of_error rfl
      cases hCall
  · rintro ⟨t, hChild, hRest⟩
    exact .next hd hChild hRest

/-! ## Where the calls end -/

omit [Scalar ν] in
theorem SameBoxes.exists_treeWithin? {s t : Store ν} (h : s.SameBoxes t) {depth id : Nat}
    (hTree : ∃ b, s.treeWithin? depth id = some b) : ∃ b, t.treeWithin? depth id = some b := by
  induction depth generalizing id with
  | zero =>
    obtain ⟨b, hb⟩ := hTree
    cases hb
  | succ depth ih =>
    obtain ⟨cell, hCell, hChildren⟩ := exists_treeWithin?_succ_iff.mp hTree
    obtain ⟨d, hGet⟩ := h.exists_get? hCell
    exact exists_treeWithin?_succ_iff.mpr ⟨_, hGet, fun c hc => ih (hChildren c hc)⟩

/-- Down to a depth, there is one way in which a box is laid out as a block. -/
def OneWay (ν : Type) [Scalar ν] (depth : Nat) : Prop :=
  ∀ {s : Store ν} {id : Nat} {cell : Cell ν} {e : Element ν} (containing : Dimensions ν)
    (r : Result ν), s.get? id = some cell → cell.kind.element = .ok e →
    (∃ b, s.treeWithin? depth id = some b) →
      (Runs (.layoutBlock containing id) s r ↔ r = ⟨layoutStyled depth containing id e.style s, none⟩)

theorem OneWay.exists_child {depth child : Nat} (h : OneWay ν depth) {cell : Cell ν}
    (hCell : s.get? id = some cell) (hTree : ∃ b, s.treeWithin? depth child = some b) :
    ∃ t, (∀ t', Runs (.layout cell.dimensions child) s ⟨t', none⟩ ↔ t' = t) ∧
      layoutChild depth id s child = t.grow id child := by
  obtain ⟨inner, hInner⟩ : ∃ inner, s.get? child = some inner := by
    obtain ⟨b, hb⟩ := hTree
    cases depth with
    | zero => cases hb
    | succ depth =>
      obtain ⟨inner, hInner, -⟩ := exists_treeWithin?_succ_iff.mp ⟨b, hb⟩
      exact ⟨inner, hInner⟩
  by_cases hType : inner.kind.type = .block
  · obtain ⟨e, hKind⟩ := BoxKind.exists_eq_block hType
    have hElement : inner.kind.element = .ok e := by
      rw [hKind]
      rfl
    refine ⟨layoutStyled depth cell.dimensions child e.style s, fun t' => ?_,
      layoutChild_of_block hCell hInner hKind⟩
    rw [runs_layout_iff hInner, if_pos hType, h _ _ hInner hElement hTree, Result.mk.injEq]
    exact and_iff_left rfl
  · refine ⟨s, fun t' => ?_, layoutChild_of_type_ne hInner hType⟩
    rw [runs_layout_iff hInner, if_neg hType, Result.mk.injEq]
    exact and_iff_left rfl

theorem OneWay.runs_layoutChildren_iff {depth : Nat} (h : OneWay ν depth) {children : List Nat}
    {s : Store ν} {cell : Cell ν} (hCell : s.get? id = some cell)
    (hTrees : ∀ c ∈ children, ∃ b, s.treeWithin? depth c = some b) :
    Runs (.layoutChildren id children) s r ↔
      r = ⟨children.foldl (layoutChild depth id) s, none⟩ := by
  induction children generalizing s cell with
  | nil => exact runs_layoutChildren_nil_iff
  | cons child rest ih =>
    obtain ⟨hTree, hTreesRest⟩ := List.forall_mem_cons.mp hTrees
    obtain ⟨t, hRun, hGrow⟩ := h.exists_child hCell hTree
    have hSame : s.SameBoxes (t.grow id child) :=
      ((hRun t).mpr rfl).sameBoxes.trans (sameBoxes_grow t id child)
    obtain ⟨d, hGrown⟩ := hSame.exists_get? hCell
    have hRest := ih hGrown fun c hc => hSame.exists_treeWithin? (hTreesRest c hc)
    have hDimensions : s.dimensions? id = some cell.dimensions := by
      rw [dimensions?, hCell]
      rfl
    simp only [runs_layoutChildren_cons_iff hDimensions, hRun, exists_eq_left, hRest,
      List.foldl_cons, hGrow]

theorem oneWay (depth : Nat) : OneWay ν depth := by
  -- the depth of a tree, and not the box, goes down from a call to the calls that it makes
  induction depth with
  | zero =>
    rintro _ _ _ _ _ _ _ _ ⟨b, hb⟩
    cases hb
  | succ depth ih =>
    intro s id cell e containing r hCell hElement hTree
    obtain ⟨cell', hCell', hTrees⟩ := exists_treeWithin?_succ_iff.mp hTree
    obtain rfl := cell_unique hCell hCell'
    have hSame := sameBoxes_modifyDimensions s id (containing.place e.style)
    obtain ⟨d, hPlaced⟩ := hSame.exists_get? hCell
    have hChildren (r : Result ν) := ih.runs_layoutChildren_iff (r := r) hPlaced fun c hc =>
      hSame.exists_treeWithin? (hTrees c hc)
    simp only [runs_layoutBlock_iff_of_ok hCell hElement, layoutStyled_succ hCell, hChildren,
      Result.mk.injEq, and_true, exists_eq_left]

theorem runs_layout_iff_of_acyclic {cell : Cell ν} (hClosed : s.Closed) (hAcyclic : s.Acyclic id)
    (hCell : s.get? id = some cell) (containing : Dimensions ν) :
    Runs (.layout containing id) s r ↔ r = ⟨s.layout containing id, none⟩ := by
  have hTree := exists_box? hClosed (lt_size_of_get? hCell) hAcyclic
  rw [runs_layout_iff hCell, layout, hCell]
  obtain ⟨kind, d, children⟩ := cell
  cases kind with
  | block e => exact oneWay s.size containing r hCell rfl hTree
  | inline e => rfl
  | anonymous => rfl

/-- Laid out as a block, a box comes to one end, and to an error if it is itself anonymous. -/
theorem exists_runs_layoutBlock_iff {cell : Cell ν} (hClosed : s.Closed) (hAcyclic : s.Acyclic id)
    (hCell : s.get? id = some cell) (containing : Dimensions ν) :
    ∃ r, (∀ r', Runs (.layoutBlock containing id) s r' ↔ r' = r) ∧
      s.layoutBlock containing id = r.toExcept ∧
      r.error? = if cell.kind.type = .anonymous then some .noStyle else none := by
  have hStyle : s.style? id = cell.kind.element?.map Element.style := by
    rw [style?, hCell]
    rfl
  by_cases hType : cell.kind.type = .anonymous
  · have hKind := BoxKind.eq_anonymous hType
    have hElement : cell.kind.element = .error .noStyle := by
      rw [hKind]
      rfl
    refine ⟨⟨s, some .noStyle⟩, fun r' => runs_layoutBlock_iff_of_error hCell hElement, ?_,
      (if_pos hType).symm⟩
    rw [layoutBlock, hStyle, hKind]
    rfl
  · obtain ⟨e, hElement, hElement?⟩ := BoxKind.exists_element_of_type_ne hType
    have hTree := exists_box? hClosed (lt_size_of_get? hCell) hAcyclic
    refine ⟨⟨layoutStyled s.size containing id e.style s, none⟩,
      fun r' => oneWay s.size containing r' hCell hElement hTree, ?_, (if_neg hType).symm⟩
    rw [layoutBlock, hStyle, hElement?]
    rfl

end Store

end BlockFlow
