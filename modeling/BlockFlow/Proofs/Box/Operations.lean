import BlockFlow.Box.Generation
import BlockFlow.Proofs.Box.Calls

/-! # What can be done to a store of boxes

Boxes are made, generated for a document, put under others, given dimensions and laid out, in any
order. None of this takes from a box its element or leaves a child missing; hence, in all that can be
reached in this way, layout of a box without cycles is never interrupted.
-/

namespace BlockFlow

namespace Store

variable {ν : Type} {s t u : Store ν}

/-! ## Stores that grow -/

/-- Every box is still there and of the same kind, and no child is missing if none was. -/
structure GrownTo (s t : Store ν) : Prop where
  kept : ∀ {id cell}, s.get? id = some cell → ∃ cell', t.get? id = some cell' ∧ cell'.kind = cell.kind
  closed : s.Closed → t.Closed

theorem GrownTo.refl (s : Store ν) : s.GrownTo s := ⟨fun h => ⟨_, h, rfl⟩, id⟩

theorem GrownTo.trans (h : s.GrownTo t) (h' : t.GrownTo u) : s.GrownTo u where
  kept hCell := by
    obtain ⟨_, hCell', hKind⟩ := h.kept hCell
    obtain ⟨_, hCell'', hKind'⟩ := h'.kept hCell'
    exact ⟨_, hCell'', hKind'.trans hKind⟩
  closed := h'.closed ∘ h.closed

theorem GrownTo.lt_size (h : s.GrownTo t) {id : Nat} (hId : id < s.size) : id < t.size := by
  obtain ⟨_, hCell⟩ := exists_get?_of_lt hId
  obtain ⟨_, hCell', -⟩ := h.kept hCell
  exact lt_size_of_get? hCell'

theorem SameBoxes.grownTo (h : s.SameBoxes t) : s.GrownTo t where
  kept hCell := by
    obtain ⟨_, hCell'⟩ := h.exists_get? hCell
    exact ⟨_, hCell', rfl⟩
  closed hClosed := by
    rintro id child ⟨cell, hCell, hChild⟩
    obtain ⟨_, hCell'⟩ := h.symm.exists_get? hCell
    obtain ⟨inner, hInner⟩ := exists_get?_of_lt (hClosed id child ⟨_, hCell', hChild⟩)
    obtain ⟨_, hInner'⟩ := h.exists_get? hInner
    exact lt_size_of_get? hInner'

theorem grownTo_push {cell : Cell ν} (hChildren : ∀ c ∈ cell.children, c < s.size) :
    s.GrownTo (s.push cell) where
  kept {id cell'} hCell := by
    have hNe : id ≠ s.size := (lt_size_of_get? hCell).ne
    exact ⟨cell', by rw [get?_push, if_neg hNe, hCell], rfl⟩
  closed hClosed := by
    rintro id child ⟨cell', hCell, hChild⟩
    rw [get?_push] at hCell
    rw [size_push]
    apply Nat.lt_succ_of_lt
    split at hCell
    · obtain rfl := Option.some.inj hCell
      exact hChildren child hChild
    · exact hClosed id child ⟨cell', hCell, hChild⟩

theorem grownTo_modify {id : Nat} {f : Cell ν → Cell ν} (hKind : ∀ cell, (f cell).kind = cell.kind)
    (hChildren : ∀ cell, ∀ c ∈ (f cell).children, c ∈ cell.children ∨ c < s.size) :
    s.GrownTo (s.modify id f) where
  kept {i cell} hCell := by
    by_cases hId : i = id
    · subst hId
      exact ⟨_, get?_modify_self hCell f, hKind cell⟩
    · exact ⟨cell, by rw [get?_modify_of_ne s hId, hCell], rfl⟩
  closed hClosed := by
    rintro i child ⟨cell', hCell, hChild⟩
    rw [size_modify]
    by_cases hId : i = id
    · subst hId
      rw [get?_modify, if_pos rfl] at hCell
      obtain ⟨cell, hOld, rfl⟩ := Option.map_eq_some_iff.mp hCell
      exact (hChildren cell child hChild).elim (fun h => hClosed i child ⟨cell, hOld, h⟩) id
    · rw [get?_modify_of_ne s hId] at hCell
      exact hClosed i child ⟨cell', hCell, hChild⟩

theorem grownTo_append {child : Nat} (hChild : child < s.size) (parent : Nat) :
    s.GrownTo (s.append parent child) := by
  apply grownTo_modify
  · exact fun _ => rfl
  · intro cell c hc
    obtain hOld | hNew := List.mem_append.mp hc
    · exact .inl hOld
    · obtain rfl := List.mem_singleton.mp hNew
      exact .inr hChild

mutual

theorem grownTo_addTree (s : Store ν) : ∀ b : Box ν,
    s.GrownTo (s.addTree b).2 ∧ (s.addTree b).1 < (s.addTree b).2.size
  | .mk kind d children => by
    -- the root is there before its children have numbers, and without any
    obtain ⟨hGrown, hIds⟩ := grownTo_addTrees (s.push ⟨kind, d, []⟩) children
    have hPush : s.GrownTo (s.push ⟨kind, d, []⟩) := grownTo_push (List.forall_mem_nil _)
    have hRoot : s.size < (s.push ⟨kind, d, []⟩).size := by
      rw [size_push]
      exact Nat.lt_succ_self _
    rw [addTree]
    constructor
    · apply (hPush.trans hGrown).trans
      apply grownTo_modify
      · exact fun _ => rfl
      · exact fun _ c hc => .inr (hIds c hc)
    · rw [size_modify]
      exact hGrown.lt_size hRoot

theorem grownTo_addTrees (s : Store ν) : ∀ bs : List (Box ν),
    s.GrownTo (s.addTrees bs).2 ∧ ∀ id ∈ (s.addTrees bs).1, id < (s.addTrees bs).2.size
  | [] => ⟨.refl s, List.forall_mem_nil _⟩
  | b :: rest => by
    obtain ⟨hFirst, hRoot⟩ := grownTo_addTree s b
    obtain ⟨hRest, hIds⟩ := grownTo_addTrees (s.addTree b).2 rest
    exact ⟨hFirst.trans hRest, List.forall_mem_cons.mpr ⟨hRest.lt_size hRoot, hIds⟩⟩

end

variable [Scalar ν]

theorem grownTo_inlineContainer (s : Store ν) (id : Nat) : s.GrownTo (s.inlineContainer id).2 := by
  have hFresh : s.GrownTo ((s.push ⟨.anonymous, .zero, []⟩).append id s.size) := by
    refine (grownTo_push (List.forall_mem_nil _)).trans (grownTo_append ?_ id)
    rw [size_push]
    exact Nat.lt_succ_self _
  unfold inlineContainer
  split
  · dsimp only
    split
    · split
      · exact .refl s
      · exact hFresh
    · exact hFresh
  · exact .refl s

/-! ## Operations -/

/-- One operation on a store, and what it leaves behind. -/
inductive Step : Store ν → Result ν → Prop
  | made {s kind} (type : BoxType) (element? : Option (Element ν)) (d : Dimensions ν)
      (children : List Nat) : BoxKind.of? type element? = .ok kind →
      (∀ c ∈ children, c < s.size) → Step s ⟨s.push ⟨kind, d, children⟩, none⟩
  | rejected {s error} (type : BoxType) (element? : Option (Element ν)) :
      BoxKind.of? type element? = .error error → Step s ⟨s, some error⟩
  | generated {s b} (e : Element ν) : e.rootBox = .ok b → Step s ⟨(s.addTree b).2, none⟩
  | hidden {s error} (e : Element ν) : e.rootBox = .error error → Step s ⟨s, some error⟩
  | appended {s : Store ν} (parent child : Nat) : parent < s.size → child < s.size →
      Step s ⟨s.append parent child, none⟩
  | contained {s id} : id < s.size → Step s ⟨(s.inlineContainer id).2, none⟩
  | replaced {s id} (d : Dimensions ν) : id < s.size → Step s ⟨s.modifyDimensions id fun _ => d, none⟩
  | laidOut {s id r} (containing : Dimensions ν) : Runs (.layout containing id) s r → Step s r
  | laidOutAsBlock {s id r} (containing : Dimensions ν) : Runs (.layoutBlock containing id) s r →
      Step s r

/-- What operations one after another can make, whether or not some of them failed. -/
inductive Reached : Store ν → Prop
  | empty : Reached empty
  | step {s r} : Reached s → Step s r → Reached r.store

variable {r : Result ν}

theorem Step.grownTo (h : Step s r) : s.GrownTo r.store := by
  cases h with
  | made _ _ _ _ _ hChildren => exact grownTo_push hChildren
  | rejected => exact .refl s
  | generated => exact (grownTo_addTree s _).1
  | hidden => exact .refl s
  | appended _ _ _ hChild => exact grownTo_append hChild _
  | contained => exact grownTo_inlineContainer s _
  | replaced d => exact (sameBoxes_modifyDimensions s _ fun _ => d).grownTo
  | laidOut _ hRun => exact hRun.sameBoxes.grownTo
  | laidOutAsBlock _ hRun => exact hRun.sameBoxes.grownTo

/-- An operation that fails has not done anything yet. -/
theorem Step.store_eq (h : Step s r) {error : BoxError} (hError : r.error? = some error) :
    r.store = s := by
  cases h with
  | made => cases hError
  | rejected => rfl
  | generated => cases hError
  | hidden => rfl
  | appended => cases hError
  | contained => cases hError
  | replaced => cases hError
  | laidOut _ hRun =>
    obtain ⟨_, _, _, -, -, -, hStore⟩ := hRun.of_error hError
    exact hStore
  | laidOutAsBlock _ hRun =>
    obtain ⟨_, _, _, -, -, -, hStore⟩ := hRun.of_error hError
    exact hStore

theorem Reached.closed (h : s.Reached) : s.Closed := by
  induction h with
  | empty =>
    rintro id child ⟨cell, hCell, -⟩
    cases hCell
  | step _ hStep ih => exact hStep.grownTo.closed ih

/-- What boxes have an element, and how operations on a store can fail. A box without cycles is laid
out to an end, in one way only. -/
structure Unfailing (s : Store ν) : Prop where
  made : ∀ type element? (kind : BoxKind ν),
    BoxKind.of? type element? = .ok kind ↔ kind.type = type ∧ kind.element? = element?
  accepted : ∀ type (element? : Option (Element ν)),
    (∃ kind, BoxKind.of? type element? = .ok kind) ↔ (element?.isSome ↔ type ≠ .anonymous)
  styled : ∀ id cell, s.get? id = some cell →
    (cell.kind.element?.isSome ↔ cell.kind.type ≠ .anonymous)
  layout : ∀ id cell, s.get? id = some cell → s.Acyclic id → ∀ containing r,
    Runs (.layout containing id) s r ↔ r = ⟨s.layout containing id, none⟩
  layoutBlock : ∀ id cell, s.get? id = some cell → s.Acyclic id → ∀ containing,
    ∃ r, (∀ r', Runs (.layoutBlock containing id) s r' ↔ r' = r) ∧
      s.layoutBlock containing id = r.toExcept ∧
      r.error? = if cell.kind.type = .anonymous then some .noStyle else none
  unharmed : ∀ r error, s.Step r → r.error? = some error → r.store = s

/-- Whatever was done to a store, layout in it does not fail midway. -/
theorem layout_unfailing (h : s.Reached) : s.Unfailing where
  made _ _ _ := BoxKind.of?_eq_ok_iff
  accepted _ _ := BoxKind.exists_of?_eq_ok_iff
  styled _ _ _ := BoxKind.isSome_element?_iff
  layout _ _ hCell hAcyclic containing _ :=
    runs_layout_iff_of_acyclic h.closed hAcyclic hCell containing
  layoutBlock _ _ hCell hAcyclic containing :=
    exists_runs_layoutBlock_iff h.closed hAcyclic hCell containing
  unharmed _ _ hStep hError := hStep.store_eq hError

/-- An anonymous box in an inline one, which is put in a block, and the same anonymous box once more
beside it. -/
theorem layout_unfailing_of_mixed :
    let body : Element Rat := .mk "body" ⟨[]⟩ []
    let word : Element Rat := .mk "em" ⟨[]⟩ []
    let mixed : Store Rat := ⟨#[⟨.anonymous, .zero, []⟩, ⟨.inline word, .zero, [0]⟩,
      ⟨.block body, .zero, [1, 0]⟩]⟩
    mixed.Reached ∧ mixed.Acyclic 2 ∧ mixed.Unfailing := by
  intro body word mixed
  have hReached : mixed.Reached :=
    (((Reached.empty.step (.made .anonymous none .zero [] rfl (by decide))).step
      (.made .inline (some word) .zero [0] rfl (by decide))).step
      (.made .block (some body) .zero [1] rfl (by decide))).step
      (.appended 2 0 (by decide) (by decide))
  have hBefore : ∀ id child, mixed.HasChild id child → child < id := by
    rintro (_ | _ | _ | id) child ⟨cell, hCell, hChild⟩
    case zero | succ.zero | succ.succ.zero =>
      obtain rfl := Option.some.inj hCell
      revert child
      decide
    case succ.succ.succ => cases hCell
  exact ⟨hReached, acyclic_of_lt hBefore 2, layout_unfailing hReached⟩

end Store

end BlockFlow
