import BlockFlow.Sheet.Selector

/-! # The order of the selectors of a rule

A rule keeps its selectors from the highest rank to the lowest and does not move those of one rank
past each other. This determines the order of a group: `Ranked` says so without an algorithm, and
`ranked_iff` says that sorting the group is the one way to meet it.
-/

namespace BlockFlow

namespace Specificity

theorem atMost_iff (a b : Specificity) :
    a.atMost b = true ↔ a.ids < b.ids ∨ a.ids = b.ids ∧
      (a.classes < b.classes ∨ a.classes = b.classes ∧ a.tags ≤ b.tags) := by
  simp [atMost]

theorem atMost_refl (a : Specificity) : a.atMost a = true := by
  rw [atMost_iff]
  omega

theorem atMost_trans {a b c : Specificity} (hab : a.atMost b = true) (hbc : b.atMost c = true) :
    a.atMost c = true := by
  rw [atMost_iff] at *
  omega

theorem atMost_total (a b : Specificity) : (a.atMost b || b.atMost a) = true := by
  rw [Bool.or_eq_true, atMost_iff, atMost_iff]
  omega

theorem atMost_antisymm {a b : Specificity} (hab : a.atMost b = true) (hba : b.atMost a = true) :
    a = b := by
  rw [atMost_iff] at *
  obtain ⟨ids, classes, tags⟩ := a
  obtain ⟨ids', classes', tags'⟩ := b
  simp only [Specificity.mk.injEq] at *
  omega

end Specificity

namespace Selector

/-- No selector is of a higher rank than one before it. -/
def Descending (selectors : List Selector) : Prop :=
  selectors.Pairwise fun a b => b.specificity.atMost a.specificity = true

/-- The selectors of a rank, in their order. -/
def ofRank (rank : Specificity) (selectors : List Selector) : List Selector :=
  selectors.filter fun s => s.specificity = rank

/-- The selectors of a group as written, brought into the order in which a rule keeps them. -/
structure Ranked (written ranked : List Selector) : Prop where
  descending : Descending ranked
  kept : ∀ rank, ofRank rank ranked = ofRank rank written

theorem mem_ofRank {rank : Specificity} {s : Selector} {selectors : List Selector} :
    s ∈ ofRank rank selectors ↔ s ∈ selectors ∧ s.specificity = rank := by
  simp [ofRank]

theorem ofRank_cons_self (s : Selector) (selectors : List Selector) :
    ofRank s.specificity (s :: selectors) = s :: ofRank s.specificity selectors := by
  simp [ofRank]

theorem mem_of_ofRank_eq {left right : List Selector}
    (h : ∀ rank, ofRank rank left = ofRank rank right) {s : Selector} (hs : s ∈ left) :
    s ∈ right := by
  have hmem : s ∈ ofRank s.specificity left := mem_ofRank.mpr ⟨hs, rfl⟩
  rw [h] at hmem
  exact (mem_ofRank.mp hmem).1

theorem eq_of_ofRank_eq {left right : List Selector} (hl : Descending left)
    (hr : Descending right) (h : ∀ rank, ofRank rank left = ofRank rank right) : left = right := by
  induction left generalizing right with
  | nil =>
    cases right with
    | nil => rfl
    | cons b right => cases mem_of_ofRank_eq (fun rank => (h rank).symm) List.mem_cons_self
  | cons a left ih =>
    cases right with
    | nil => cases mem_of_ofRank_eq h List.mem_cons_self
    | cons b right =>
      obtain ⟨ha, hLeft⟩ := List.pairwise_cons.mp hl
      obtain ⟨hb, hRight⟩ := List.pairwise_cons.mp hr
      -- each head is in the other group, behind a head of no lower rank
      have hba : b.specificity.atMost a.specificity = true := by
        have hmem := mem_of_ofRank_eq (fun rank => (h rank).symm) (List.mem_cons_self : b ∈ b :: right)
        rcases List.mem_cons.mp hmem with rfl | hmem
        · exact Specificity.atMost_refl _
        · exact ha b hmem
      have hab : a.specificity.atMost b.specificity = true := by
        rcases List.mem_cons.mp (mem_of_ofRank_eq h (List.mem_cons_self : a ∈ a :: left)) with rfl | hmem
        · exact Specificity.atMost_refl _
        · exact hb a hmem
      have hrank : a.specificity = b.specificity := Specificity.atMost_antisymm hab hba
      have hhead := h a.specificity
      rw [ofRank_cons_self, hrank, ofRank_cons_self] at hhead
      obtain rfl := (List.cons.inj hhead).1
      have htail : ∀ rank, ofRank rank left = ofRank rank right := by
        intro rank
        have hrank := h rank
        simp only [ofRank, List.filter_cons] at hrank
        split at hrank
        · exact (List.cons.inj hrank).2
        · exact hrank
      rw [ih hLeft hRight htail]

theorem descending_bySpecificity (selectors : List Selector) :
    Descending (bySpecificity selectors) := by
  apply List.pairwise_mergeSort
  · intro a b c hab hbc
    exact Specificity.atMost_trans hbc hab
  · intro a b
    exact Specificity.atMost_total _ _

theorem ofRank_bySpecificity (rank : Specificity) (selectors : List Selector) :
    ofRank rank (bySpecificity selectors) = ofRank rank selectors := by
  have hperm : (bySpecificity selectors).Perm selectors := List.mergeSort_perm _ _
  have hpair : (ofRank rank selectors).Pairwise
      fun a b => b.specificity.atMost a.specificity = true := by
    refine List.Pairwise.imp_of_mem ?_ (List.pairwise_of_forall (R := fun _ _ => True) (by simp))
    intro a b ha hb _
    rw [(mem_ofRank.mp ha).2, (mem_ofRank.mp hb).2]
    exact Specificity.atMost_refl _
  have hsub : (ofRank rank selectors).Sublist (bySpecificity selectors) := by
    apply List.sublist_mergeSort
    · intro a b c hab hbc
      exact Specificity.atMost_trans hbc hab
    · intro a b
      exact Specificity.atMost_total _ _
    · exact hpair
    · exact List.filter_sublist
  have hsub' := hsub.filter fun s => decide (s.specificity = rank)
  simp only [ofRank, List.filter_filter, Bool.and_self] at hsub'
  exact (hsub'.eq_of_length (hperm.filter _).length_eq.symm).symm

/-- A group has one order by rank, and sorting gives it. -/
theorem ranked_iff {written ranked : List Selector} :
    Ranked written ranked ↔ ranked = bySpecificity written := by
  constructor
  · rintro ⟨hdesc, hkept⟩
    apply eq_of_ofRank_eq hdesc (descending_bySpecificity written)
    intro rank
    rw [hkept, ofRank_bySpecificity]
  · rintro rfl
    exact ⟨descending_bySpecificity written, fun rank => ofRank_bySpecificity rank written⟩

theorem bySpecificity_eq_self_iff {selectors : List Selector} :
    bySpecificity selectors = selectors ↔ Descending selectors := by
  constructor
  · intro h
    rw [← h]
    exact descending_bySpecificity selectors
  · intro h
    exact (ranked_iff.mp ⟨h, fun _ => rfl⟩).symm

end Selector

end BlockFlow
