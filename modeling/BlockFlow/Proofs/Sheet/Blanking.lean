import BlockFlow.Text.Place

/-! # Blanking out parts of a text

A span is blanked out by putting a space for each of its characters, except that line feeds stay:
every place in the text keeps its line and its column.
-/

namespace BlockFlow

/-- The characters of a text from one index up to another. -/
structure Span where
  start : Nat
  stop : Nat

namespace Span

def Covers (s : Span) (i : Nat) : Prop := s.start ≤ i ∧ i < s.stop

instance (s : Span) (i : Nat) : Decidable (s.Covers i) := inferInstanceAs (Decidable (_ ∧ _))

end Span

def blankChar (c : Char) : Char := if c = '\n' then c else ' '

/-- The text with some spans blanked out. -/
def blankOut (spans : List Span) (text : List Char) : List Char :=
  text.mapIdx fun i c => if ∃ s ∈ spans, s.Covers i then blankChar c else c

theorem blankChar_eq_newline_iff (c : Char) : blankChar c = '\n' ↔ c = '\n' := by
  unfold blankChar
  split
  · rfl
  · next h => exact iff_of_false (by decide) h

theorem blankChar_blankChar (c : Char) : blankChar (blankChar c) = blankChar c := by
  by_cases h : c = '\n'
  · simp [blankChar, h]
  · simp [blankChar, h]

@[simp] theorem length_blankOut (spans : List Span) (text : List Char) :
    (blankOut spans text).length = text.length :=
  List.length_mapIdx

theorem getElem?_blankOut (spans : List Span) (text : List Char) (i : Nat) :
    (blankOut spans text)[i]? =
      text[i]?.map fun c => if ∃ s ∈ spans, s.Covers i then blankChar c else c :=
  List.getElem?_mapIdx

theorem blankOut_nil (text : List Char) : blankOut [] text = text := by
  apply List.ext_getElem?
  intro i
  simp [getElem?_blankOut]

theorem blankOut_cons (s : Span) (spans : List Span) (text : List Char) :
    blankOut (s :: spans) text = blankOut spans (blankOut [s] text) := by
  apply List.ext_getElem?
  intro i
  simp only [getElem?_blankOut, Option.map_map, List.mem_cons, List.not_mem_nil, or_false,
    exists_eq_or_imp, exists_eq_left]
  congr 1
  funext c
  by_cases hFirst : s.Covers i <;> by_cases hOthers : ∃ t ∈ spans, t.Covers i <;>
    simp [hFirst, hOthers, blankChar_blankChar]

theorem drop_blankOut {spans : List Span} {n : Nat} (h : ∀ s ∈ spans, s.stop ≤ n)
    (text : List Char) : (blankOut spans text).drop n = text.drop n := by
  apply List.ext_getElem?
  intro i
  have hOut : ¬ ∃ s ∈ spans, s.Covers (n + i) := by
    rintro ⟨s, hs, -, hStop⟩
    have hBefore := h s hs
    omega
  rw [List.getElem?_drop, List.getElem?_drop, getElem?_blankOut]
  simp only [if_neg hOut, Option.map_id']

theorem blankOut_append (before bad after : List Char) :
    blankOut [⟨before.length, before.length + bad.length⟩] (before ++ (bad ++ after)) =
      before ++ (bad.map blankChar ++ after) := by
  apply List.ext_getElem?
  intro i
  rw [getElem?_blankOut]
  simp only [List.mem_singleton, exists_eq_left, Span.Covers]
  by_cases hBefore : i < before.length
  · have hOut : ¬ (before.length ≤ i ∧ i < before.length + bad.length) := by omega
    rw [List.getElem?_append_left hBefore, List.getElem?_append_left hBefore]
    simp [hOut]
  · have hStart : before.length ≤ i := Nat.not_lt.mp hBefore
    rw [List.getElem?_append_right hStart, List.getElem?_append_right hStart]
    by_cases hBad : i - before.length < bad.length
    · have hIn : before.length ≤ i ∧ i < before.length + bad.length := by omega
      have hBad' : i - before.length < (bad.map blankChar).length := by rwa [List.length_map]
      rw [List.getElem?_append_left hBad, List.getElem?_append_left hBad', List.getElem?_map]
      simp [hIn]
    · have hOut : ¬ (before.length ≤ i ∧ i < before.length + bad.length) := by omega
      have hStop : bad.length ≤ i - before.length := Nat.not_lt.mp hBad
      have hStop' : (bad.map blankChar).length ≤ i - before.length := by rwa [List.length_map]
      rw [List.getElem?_append_right hStop, List.getElem?_append_right hStop', List.length_map]
      simp [hOut]

namespace Text.Place

/-- Places depend on nothing but the number of characters and the line feeds among them. -/
theorem after_mapIdx {f : Nat → Char → Char} (h : ∀ i c, f i c = '\n' ↔ c = '\n')
    (text : List Char) : after (text.mapIdx f) = after text := by
  unfold after
  generalize start = p
  induction text generalizing p f with
  | nil => rfl
  | cons c text ih =>
    have hAdvance : p.advance (f 0 c) = p.advance c := by
      simp only [advance, h]
    rw [List.mapIdx_cons, List.foldl_cons, List.foldl_cons, hAdvance]
    exact ih (fun i c => h (i + 1) c) _

theorem after_take_blankOut (spans : List Span) (text : List Char) (n : Nat) :
    after ((blankOut spans text).take n) = after (text.take n) := by
  have hTake : (blankOut spans text).take n = blankOut spans (text.take n) := by
    apply List.ext_getElem?
    intro i
    simp only [List.getElem?_take, getElem?_blankOut]
    split <;> rfl
  rw [hTake]
  apply after_mapIdx
  intro i c
  split
  · exact blankChar_eq_newline_iff c
  · rfl

theorem within_blankOut (spans : List Span) (text rest : List Char) :
    within (blankOut spans text) rest = within text rest := by
  rw [within, within, length_blankOut, after_take_blankOut]

theorem within_drop {text : List Char} {n : Nat} (h : n ≤ text.length) :
    within text (text.drop n) = after (text.take n) := by
  rw [within, List.length_drop, Nat.sub_sub_self h]

end Text.Place

end BlockFlow
