import BlockFlow.Proofs.Number.Written
import BlockFlow.Sheet.Value

/-! # The text of lengths

A finite length is written as a numeral without a power of ten, and its unit. The numeral is what is
left of the number's own text when that is written out and a zero that stands alone behind its point
is dropped. Both denote the same rational number, so the length is read back with its sign, and
lengths of different bits have different texts.
-/

namespace BlockFlow

open Number

/-- How a length is written: the numeral denotes the same rational number as the number's text in
answers does, and both are read as the number. -/
structure Value.WrittenWith (x : Float) (n : Numeral) : Prop where
  text : (length x).text = String.ofList (n.chars ++ ['p', 'x'])
  /-- The digits behind the point do not end in a zero; in particular they are not a single zero. -/
  fraction : ∀ c ∈ n.fraction.getLast?, c ≠ '0'
  rational : rational? n.chars = some n.value
  rational_answer : rational? (Form.answer.writeChars x) = some n.value
  read : read? (String.ofList n.chars) = some x
  read_answer : read? (Form.answer.write x) = some x
  /-- The answer's decimal is written out, and a zero that stands alone behind the point is dropped. -/
  written_out : ∃ d, readDecimal? (Form.answer.writeMagnitude (magnitude x)) = some d ∧
    withoutPointZero (d.plain []) = n.unsigned

theorem Value.writtenWith_numeral {x : Float} (h : isFinite x = true) :
    WrittenWith x (numeral x) where
  text := by rw [text, chars, ← chars_numeral h]
  fraction := ne_zero_of_getLast?_numeral h
  rational := (numeral x).rational?_chars
  rational_answer := rational?_answer h
  read := read?_numeral h
  read_answer := read?_answer h
  written_out := by
    obtain ⟨d, hDenotes, -, hPlain⟩ := exists_denotes_answer h
    exact ⟨d, hDenotes.read, hPlain⟩

theorem Value.WrittenWith.eq_of_text {x y : Float} {n n' : Numeral} (h : WrittenWith x n)
    (h' : WrittenWith y n') (hText : (length x).text = (length y).text) : x = y := by
  rw [h.text, h'.text, String.ofList_inj] at hText
  have hRead := h.read
  rw [List.append_cancel_right hText, h'.read] at hRead
  exact (Option.some.inj hRead).symm

/-- The text of a finite length is a numeral without a power of ten and its unit. The numeral denotes
exactly the rational number that the number's own text denotes, and is read as the number itself.
Lengths of different bits have different texts. -/
theorem length_text_exact {x : Float} (hx : isFinite x = true) :
    (∃ n, Value.WrittenWith x n) ∧
      ∀ y, isFinite y = true → x.toBits ≠ y.toBits →
        (Value.length x).text ≠ (Value.length y).text := by
  have hWritten := Value.writtenWith_numeral hx
  refine ⟨⟨_, hWritten⟩, fun y hy hBits hText => hBits ?_⟩
  rw [hWritten.eq_of_text (Value.writtenWith_numeral hy) hText]

/-- The least positive number and its opposite. -/
theorem length_text_exact_of_least :
    let least := ofMagnitude false 1
    let opposite := ofMagnitude true 1
    isFinite least = true ∧ (∃ n, Value.WrittenWith least n) ∧
      isFinite opposite = true ∧ least.toBits ≠ opposite.toBits ∧
      (Value.length least).text ≠ (Value.length opposite).text := by
  have hFinite (negative : Bool) : isFinite (ofMagnitude negative 1) = true := by
    rw [isFinite, magnitude_ofMagnitude negative (by decide)]
    decide
  have hBits : (ofMagnitude false 1).toBits ≠ (ofMagnitude true 1).toBits := by
    decide +kernel
  obtain ⟨hWritten, hTexts⟩ := length_text_exact (hFinite false)
  exact ⟨hFinite false, hWritten, hFinite true, hBits, hTexts _ (hFinite true) hBits⟩

example : (Value.length (ofMagnitude false 1)).text =
    String.ofList ("0.".toList ++ List.replicate 323 '0' ++ "5px".toList) := by
  decide +kernel

example : (Value.length (ofMagnitude true 0x4341C37937E08000)).text = "-10000000000000000px" := by
  decide +kernel

end BlockFlow
