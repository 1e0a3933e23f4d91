import BlockFlow.Text.Place
import Mathlib.Data.List.Induction

/-! # Places and what precedes them

A place is known from the line feeds before it and from the characters behind the last of them. Each
further character moves it on, so that a place in a text says how much of the text precedes it.
-/

namespace BlockFlow.Text.Place

theorem within_append_right (source position extra : List Char) :
    within (source ++ extra) (position ++ extra) = within source position := by
  rw [within, within, List.length_append, List.length_append, Nat.add_sub_add_right,
    List.take_append_of_le_length (Nat.sub_le _ _)]

theorem within_append_left {source position : List Char} (h : position <:+ source)
    (before : List Char) : within (before ++ source) position =
      after ((before ++ source).take (before.length + (source.length - position.length))) := by
  rw [within, List.length_append, Nat.add_sub_assoc h.length_le]

/-- The line counts the line feeds, and the column what stands behind the last one. -/
theorem after_eq (text : List Char) :
    after text = ⟨1 + text.count '\n', 1 + (text.reverse.takeWhile (· != '\n')).length⟩ := by
  induction text using List.reverseRecOn with
  | nil => rfl
  | append_singleton text c ih =>
    rw [after_concat, ih, advance, List.count_append, List.reverse_concat]
    split
    · next hc =>
      subst hc
      rfl
    · next hc =>
      rw [List.count_singleton, if_neg (by simpa using hc),
        List.takeWhile_cons_of_pos (by simpa using hc), List.length_cons]
      rfl

/-- The order in which places come in a text. -/
def Before (p q : Place) : Prop := p.line < q.line ∨ p.line = q.line ∧ p.column < q.column

theorem Before.trans {p q r : Place} (hpq : p.Before q) (hqr : q.Before r) : p.Before r := by
  unfold Before at *
  omega

theorem Before.ne {p q : Place} (h : p.Before q) : p ≠ q := by
  rintro rfl
  unfold Before at h
  omega

theorem before_advance (p : Place) (c : Char) : p.Before (p.advance c) := by
  unfold Before advance
  split
  · exact .inl (Nat.lt_succ_self _)
  · exact .inr ⟨rfl, Nat.lt_succ_self _⟩

theorem after_before_append (text : List Char) {extra : List Char} (h : extra ≠ []) :
    (after text).Before (after (text ++ extra)) := by
  induction extra using List.reverseRecOn with
  | nil => exact absurd rfl h
  | append_singleton extra c ih =>
    have hLast := before_advance (after (text ++ extra)) c
    rw [← List.append_assoc, after_concat]
    by_cases hExtra : extra = []
    · rw [hExtra, List.append_nil] at hLast ⊢
      exact hLast
    · exact (ih hExtra).trans hLast

theorem after_take_before {text : List Char} {m n : Nat} (h : m < n) (hn : n ≤ text.length) :
    (after (text.take m)).Before (after (text.take n)) := by
  have hTake := List.take_append_drop m (text.take n)
  have hMore : (text.take n).drop m ≠ [] := by
    rw [← List.length_pos_iff, List.length_drop, List.length_take_of_le hn]
    omega
  rw [List.take_take, Nat.min_eq_left (Nat.le_of_lt h)] at hTake
  rw [← hTake]
  exact after_before_append _ hMore

/-- A place determines how much of the text precedes it. -/
theorem after_take_inj {text : List Char} {m n : Nat} (hm : m ≤ text.length)
    (hn : n ≤ text.length) : after (text.take m) = after (text.take n) ↔ m = n := by
  constructor
  · intro h
    rcases Nat.lt_trichotomy m n with hLt | rfl | hGt
    · exact absurd h (after_take_before hLt hn).ne
    · rfl
    · exact absurd h.symm (after_take_before hGt hm).ne
  · rintro rfl
    rfl

end BlockFlow.Text.Place
