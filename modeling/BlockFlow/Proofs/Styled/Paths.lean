import BlockFlow.Proofs.Sheet.Tokens
import BlockFlow.Styled.Tree

/-! # Paths in a tree

A path leads from the root of a tree to one of its elements, and in the data of a tree to what one of
its nodes is made from. The text of a path says which path it is.
-/

namespace BlockFlow

namespace Element

variable {ν : Type}

/-- The element that a path leads to. -/
def at? (e : Element ν) : TreePath → Option (Element ν)
  | [] => some e
  | i :: path => e.children[i]?.bind fun child => child.at? path

/-- The element that a path leads to, in a tree with several roots. -/
def atAll? (es : List (Element ν)) : TreePath → Option (Element ν)
  | [] => none
  | i :: path => es[i]?.bind fun e => e.at? path

end Element

namespace TreePath

/-- What the text of a path adds for the number of a child. -/
def stepChars (i : Nat) : List Char := ".children[".toList ++ (Nat.toDigits 10 i ++ [']'])

theorem toList_text (path : TreePath) :
    path.text.toList = "root".toList ++ path.flatMap stepChars := by
  have hStep (i : Nat) : (".children[" ++ toString i ++ "]").toList = stepChars i := by
    simp only [String.toList_append, Nat.toString_eq_repr, Nat.toList_repr, List.append_assoc]
    rfl
  rw [text, String.join_cons, String.toList_append, String.toList_join, List.flatMap_map]
  simp only [hStep]

/-- The bracket behind a number ends it. -/
theorem stepChars_append_inj {i j : Nat} {rest rest' : List Char}
    (h : stepChars i ++ rest = stepChars j ++ rest') : i = j ∧ rest = rest' := by
  have hTest (n : Nat) : ∀ c ∈ Nat.toDigits 10 n, (c != ']') = true := by
    intro c hc
    apply bne_iff_ne.mpr
    rintro rfl
    have hDigit := Nat.isDigit_of_mem_toDigits (by decide) (by decide) hc
    exact nomatch hDigit
  have hEnd (rest : List Char) : ∀ c ∈ (']' :: rest).head?, (c != ']') = false := by
    intro c hc
    obtain rfl := Option.some.inj hc
    rfl
  unfold stepChars at h
  simp only [List.append_assoc, List.append_cancel_left_eq, List.singleton_append] at h
  have hDigits := congrArg (List.takeWhile (· != ']')) h
  rw [takeWhile_run (hTest i) (hEnd rest), takeWhile_run (hTest j) (hEnd rest')] at hDigits
  rw [hDigits, List.append_cancel_left_eq] at h
  refine ⟨?_, (List.cons.inj h).2⟩
  rw [← Nat.ofDigitChars_ten_toDigits (n := i), hDigits, Nat.ofDigitChars_ten_toDigits]

theorem text_injective : Function.Injective text := by
  intro path path' h
  have hChars := congrArg String.toList h
  rw [toList_text, toList_text, List.append_cancel_left_eq] at hChars
  clear h
  induction path generalizing path' with
  | nil =>
    cases path' with
    | nil => rfl
    | cons j path' => cases hChars
  | cons i path ih =>
    cases path' with
    | nil => cases hChars
    | cons j path' =>
      rw [List.flatMap_cons, List.flatMap_cons] at hChars
      obtain ⟨rfl, hRest⟩ := stepChars_append_inj hChars
      rw [ih hRest]

end TreePath

end BlockFlow
