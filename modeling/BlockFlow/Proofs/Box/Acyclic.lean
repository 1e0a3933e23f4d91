import BlockFlow.Proofs.Box.Cells
import Mathlib.Data.List.Chain
import Mathlib.Data.List.Perm.Subperm
import Mathlib.Logic.Relation

/-! # Boxes that are not among their own descendants

A box below which there is no cycle has a tree, and no path in that tree is longer than there are boxes:
a longer one would come to a box for the second time.
-/

namespace BlockFlow

namespace Store

variable {ν : Type} {s : Store ν}

def HasChild (s : Store ν) (id child : Nat) : Prop :=
  ∃ cell, s.get? id = some cell ∧ child ∈ cell.children

/-- No child is missing. -/
def Closed (s : Store ν) : Prop := ∀ id child, s.HasChild id child → child < s.size

/-- No box that is reached from this one is among its own descendants. -/
def Acyclic (s : Store ν) (id : Nat) : Prop :=
  ∀ x, Relation.ReflTransGen s.HasChild id x → ¬ Relation.TransGen s.HasChild x x

theorem Closed.lt_size_of_reached (h : s.Closed) {id x : Nat} (hId : id < s.size)
    (hx : Relation.ReflTransGen s.HasChild id x) : x < s.size := by
  cases hx with
  | refl => exact hId
  | tail _ hChild => exact h _ _ hChild

/-- There is no cycle where all boxes come after their children. -/
theorem acyclic_of_lt (h : ∀ id child, s.HasChild id child → child < id) (id : Nat) :
    s.Acyclic id := by
  intro x _ hCycle
  have hLt : ∀ y, Relation.TransGen s.HasChild x y → y < x := by
    intro y hy
    induction hy with
    | single hChild => exact h _ _ hChild
    | tail _ hChild ih => exact (h _ _ hChild).trans ih
  exact (hLt x hCycle).false

theorem exists_mapM_iff {α β : Type} {f : α → Option β} {as : List α} :
    (∃ bs, as.mapM f = some bs) ↔ ∀ a ∈ as, ∃ b, f a = some b := by
  induction as with
  | nil => simp
  | cons a as ih =>
    rw [List.forall_mem_cons, ← ih, List.mapM_cons]
    cases f a with
    | none => simp
    | some b => cases as.mapM f <;> simp

theorem exists_treeWithin?_succ_iff {depth id : Nat} :
    (∃ b, s.treeWithin? (depth + 1) id = some b) ↔
      ∃ cell, s.get? id = some cell ∧ ∀ c ∈ cell.children, ∃ b, s.treeWithin? depth c = some b := by
  rw [treeWithin?]
  constructor
  · rintro ⟨b, h⟩
    obtain ⟨cell, hCell, h⟩ := Option.bind_eq_some_iff.mp h
    obtain ⟨bs, hAll, -⟩ := Option.bind_eq_some_iff.mp h
    exact ⟨cell, hCell, exists_mapM_iff.mp ⟨bs, hAll⟩⟩
  · rintro ⟨cell, hCell, h⟩
    obtain ⟨bs, hAll⟩ := exists_mapM_iff.mpr h
    exact ⟨.mk cell.kind cell.dimensions bs, by simp [hCell, hAll]⟩

/-- A tree that does not end within a depth has a path of this length. -/
theorem exists_path (hClosed : s.Closed) {depth id : Nat} (hId : id < s.size)
    (h : ¬ ∃ b, s.treeWithin? depth id = some b) :
    ∃ path : List Nat, path.length = depth ∧ (id :: path).IsChain s.HasChild := by
  induction depth generalizing id with
  | zero => exact ⟨[], rfl, .singleton id⟩
  | succ depth ih =>
    rw [exists_treeWithin?_succ_iff] at h
    obtain ⟨cell, hCell⟩ := exists_get?_of_lt hId
    have hSome : ∃ c ∈ cell.children, ¬ ∃ b, s.treeWithin? depth c = some b := by
      by_contra hNone
      refine h ⟨cell, hCell, fun c hc => ?_⟩
      by_contra hEndless
      exact hNone ⟨c, hc, hEndless⟩
    obtain ⟨c, hc, hEndless⟩ := hSome
    have hChild : s.HasChild id c := ⟨cell, hCell, hc⟩
    obtain ⟨path, hLength, hPath⟩ := ih (hClosed id c hChild) hEndless
    exact ⟨c :: path, by rw [List.length_cons, hLength], .cons_cons hChild hPath⟩

theorem exists_box? (hClosed : s.Closed) {id : Nat} (hId : id < s.size) (hAcyclic : s.Acyclic id) :
    ∃ b, s.box? id = some b := by
  by_contra hNone
  obtain ⟨path, hLength, hPath⟩ := exists_path hClosed hId hNone
  have hBelow : (id :: path).Pairwise (Relation.TransGen s.HasChild) :=
    (hPath.imp fun _ _ => .single).pairwise
  have hReached : ∀ x ∈ id :: path, Relation.ReflTransGen s.HasChild id x := by
    rw [List.forall_mem_cons]
    exact ⟨.refl, fun x hx => ((List.pairwise_cons.mp hBelow).1 x hx).to_reflTransGen⟩
  have hNodup : (id :: path).Nodup := by
    apply hBelow.imp_of_mem
    rintro x y hx _ hxy rfl
    exact hAcyclic x (hReached x hx) hxy
  have hSubset : id :: path ⊆ List.range s.size := by
    intro x hx
    exact List.mem_range.mpr (hClosed.lt_size_of_reached hId (hReached x hx))
  -- the path has one box more than the store
  have hTooLong := (hNodup.subperm hSubset).length_le
  rw [List.length_range, List.length_cons, hLength] at hTooLong
  omega

end Store

end BlockFlow
