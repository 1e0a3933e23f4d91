import BlockFlow.Proofs.Box.Fresh
import BlockFlow.Proofs.Styled.Paths

/-! # Where boxes come from

A box that is no anonymous one belongs to an element of the tree that it was made for.
-/

namespace BlockFlow

variable {ν : Type} [Scalar ν]

theorem holds_of_gatherInlines {bs : List (Box ν)} {b x : Box ν} {e : Element ν}
    (hb : b ∈ gatherInlines bs) (hx : b.Holds x) (he : x.kind.element? = some e) :
    ∃ c ∈ bs, c.Holds x := by
  fun_induction gatherInlines bs generalizing b with
  | case1 => cases hb
  | case2 c rest _ d run others hGather ih =>
    rcases List.mem_cons.mp hb with rfl | hb
    · cases hx with
      | self => cases he
      | deeper hy hx =>
        rcases List.mem_cons.mp hy with rfl | hy
        · exact ⟨_, List.mem_cons_self, hx⟩
        · have hRun : Box.mk .anonymous d run ∈ gatherInlines rest := by
            rw [hGather]
            exact List.mem_cons_self
          obtain ⟨c', hc', hHolds⟩ := ih hRun (.deeper hy hx)
          exact ⟨c', List.mem_cons_of_mem _ hc', hHolds⟩
    · have hOther : b ∈ gatherInlines rest := by
        rw [hGather]
        exact List.mem_cons_of_mem _ hb
      obtain ⟨c', hc', hHolds⟩ := ih hOther hx
      exact ⟨c', List.mem_cons_of_mem _ hc', hHolds⟩
  | case3 c rest _ hNone ih =>
    rcases List.mem_cons.mp hb with rfl | hb
    · cases hx with
      | self => cases he
      | deeper hy hx =>
        rw [List.mem_singleton.mp hy] at hx
        exact ⟨_, List.mem_cons_self, hx⟩
    · obtain ⟨c', hc', hHolds⟩ := ih hb hx
      exact ⟨c', List.mem_cons_of_mem _ hc', hHolds⟩
  | case4 c rest _ ih =>
    rcases List.mem_cons.mp hb with rfl | hb
    · exact ⟨_, List.mem_cons_self, hx⟩
    · obtain ⟨c', hc', hHolds⟩ := ih hb hx
      exact ⟨c', List.mem_cons_of_mem _ hc', hHolds⟩

namespace Element

mutual

theorem exists_path_of_box? : ∀ (e : Element ν), ∀ b ∈ e.box?, ∀ {x : Box ν} {e' : Element ν},
    b.Holds x → x.kind.element? = some e' → ∃ path, e.at? path = some e'
  | mk tag style children => by
    intro b hb x e' hx he
    have hBoxes := exists_path_of_boxes children
    unfold box? at hb
    split at hb
    · obtain rfl := Option.some.inj hb
      cases hx with
      | self => exact ⟨[], he⟩
      | deeper hc hx =>
        obtain ⟨c, hc, hx⟩ := holds_of_gatherInlines hc hx he
        obtain ⟨i, path, hPath⟩ := hBoxes c hc hx he
        exact ⟨i :: path, hPath⟩
    · obtain rfl := Option.some.inj hb
      cases hx with
      | self => exact ⟨[], he⟩
      | deeper hc hx =>
        obtain ⟨i, path, hPath⟩ := hBoxes _ hc hx he
        exact ⟨i :: path, hPath⟩
    · cases hb

theorem exists_path_of_boxes : ∀ (es : List (Element ν)), ∀ b ∈ boxes es,
    ∀ {x : Box ν} {e' : Element ν}, b.Holds x → x.kind.element? = some e' →
      ∃ i path, atAll? es (i :: path) = some e'
  | [] => by
    intro b hb
    cases hb
  | e :: rest => by
    intro b hb x e' hx he
    have hRest {c : Box ν} (hc : c ∈ boxes rest) (hx : c.Holds x) :
        ∃ i path, atAll? (e :: rest) (i :: path) = some e' := by
      obtain ⟨i, path, hPath⟩ := exists_path_of_boxes rest c hc hx he
      exact ⟨i + 1, path, hPath⟩
    unfold boxes at hb
    split at hb
    · next hBox =>
      rcases List.mem_cons.mp hb with rfl | hb
      · obtain ⟨path, hPath⟩ := exists_path_of_box? e _ hBox hx he
        exact ⟨0, path, hPath⟩
      · exact hRest hb hx
    · exact hRest hb hx

end

theorem exists_path_of_rootBox {e e' : Element ν} {root x : Box ν} (h : e.rootBox = .ok root)
    (hx : root.Holds x) (he : x.kind.element? = some e') : ∃ path, e.at? path = some e' := by
  unfold rootBox at h
  split at h
  · next hBox =>
    obtain rfl := Except.ok.inj h
    exact exists_path_of_box? e _ hBox hx he
  · cases h

end Element

end BlockFlow
