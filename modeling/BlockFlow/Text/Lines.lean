/-! # Line ends

A text file may end its lines with a line feed, a carriage return, or both in that order; once
read, every line ends with a line feed.
-/

namespace BlockFlow.Text

def unifyLineEnds : List Char → List Char
  | [] => []
  | '\r' :: '\n' :: rest => '\n' :: unifyLineEnds rest
  | '\r' :: rest => '\n' :: unifyLineEnds rest
  | c :: rest => c :: unifyLineEnds rest

theorem not_mem_unifyLineEnds (text : List Char) : '\r' ∉ unifyLineEnds text := by
  fun_induction unifyLineEnds text with
  | case1 => simp
  | case2 rest ih => simp [ih]
  | case3 rest _ ih => simp [ih]
  | case4 c rest _ h ih =>
    simp only [List.mem_cons, not_or]
    exact ⟨fun hc => h hc.symm, ih⟩

end BlockFlow.Text
