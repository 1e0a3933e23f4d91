/-! # Similar words

How alike two words are: their longest common run, the earliest one of that length, is set aside,
the parts before it and after it are compared in the same way, and the characters matched in all are
counted. A word is suggested for another when at least three fifths of the characters of both match.
-/

namespace BlockFlow.Text

def commonStart : List Char → List Char → Nat
  | a :: as, b :: bs => if a = b then commonStart as bs + 1 else 0
  | _, _ => 0

/-- A common run of two words: where it starts in each, and its length. -/
structure CommonRun where
  left : Nat
  right : Nat
  length : Nat
  deriving Repr, DecidableEq

/-- The longest common run: of several, the first in the left word, then in the right one. -/
def longestRun (left right : List Char) : CommonRun :=
  (List.range left.length).foldl
    (fun best i => (List.range right.length).foldl
      (fun best j =>
        let length := commonStart (left.drop i) (right.drop j)
        if best.length < length then ⟨i, j, length⟩ else best)
      best)
    ⟨0, 0, 0⟩

/-- The number of characters that two words have in common, at most `depth` runs deep. -/
def matchedWithin : (depth : Nat) → List Char → List Char → Nat
  | 0, _, _ => 0
  | depth + 1, left, right =>
    let run := longestRun left right
    if run.length = 0 then 0
    else matchedWithin depth (left.take run.left) (right.take run.right) + run.length
      + matchedWithin depth (left.drop (run.left + run.length))
          (right.drop (run.right + run.length))

def matched (left right : List Char) : Nat :=
  matchedWithin (left.length + 1) left right

/-- At least three fifths of the characters of the two words match. -/
def alike (left right : String) : Bool :=
  let matching := 2 * matched left.toList right.toList
  3 * (left.length + right.length) ≤ 5 * matching

/-- The words alike to a given one, the most alike first and at most three of them. -/
def suggestions (word : String) (known : List String) : List String :=
  let score (k : String) : Nat × Nat := (matched k.toList word.toList, k.length + word.length)
  let closer (a b : String) : Bool :=
    let (m, l) := score a
    let (m', l') := score b
    m' * l < m * l' || (m' * l == m * l' && b ≤ a)
  ((known.filter fun k => alike k word).mergeSort closer).take 3

end BlockFlow.Text
