import BlockFlow.Proofs.Sheet.Recognition
import BlockFlow.Proofs.Sheet.Resynchronisation

/-! # Text behind a mark

A semicolon or a closing brace ends every name, number, color and run of blanks before it. As long
as one stands in the text, a declaration is read in the same way whatever is put behind the text,
whether it is well formed or not.
-/

namespace BlockFlow

open Grammar

def Marked (text : List Char) : Prop := ∃ c ∈ text, isInsideDeclaration c = false

namespace Marked

variable {text read rest rest' extra : List Char}

theorem ne_nil (h : Marked text) : text ≠ [] := by
  rintro rfl
  obtain ⟨c, hc, -⟩ := h
  cases hc

theorem behind (h : Marked (read ++ rest)) (hRead : Inside read) : Marked rest := by
  obtain ⟨c, hc, hMark⟩ := h
  rcases List.mem_append.mp hc with hc | hc
  · rw [hRead c hc] at hMark
    cases hMark
  · exact ⟨c, hc, hMark⟩

theorem of_suffix (h : Marked rest) (hs : rest <:+ text) : Marked text := by
  obtain ⟨c, hc, hMark⟩ := h
  exact ⟨c, hs.subset hc, hMark⟩

/-- What is read without a mark from a longer text is read from the marked one. -/
theorem split (h : Marked text) (hRead : Inside read) (hText : text ++ extra = read ++ rest') :
    ∃ rest, text = read ++ rest ∧ rest' = rest ++ extra := by
  rcases List.append_eq_append_iff.mp hText with ⟨more, rfl, -⟩ | ⟨rest, rfl, rfl⟩
  · obtain ⟨c, hc, hMark⟩ := h
    rw [hRead c (List.mem_append_left _ hc)] at hMark
    cases hMark
  · exact ⟨rest, rfl, rfl⟩

/-- A test that both marks fail is failed in the text. -/
theorem exists_not (h : Marked text) (test : Char → Bool) (hSemicolon : test ';' = false)
    (hBrace : test '\x7d' = false) : ∃ c ∈ text, test c = false := by
  by_contra hNone
  obtain ⟨c, hc, hMark⟩ := h
  have hInside : Inside text := inside_of_test test hSemicolon hBrace (by simpa using hNone)
  rw [hInside c hc] at hMark
  cases hMark

end Marked

/-! ## Runs -/

section Runs

variable {test : Char → Bool} {text : List Char}

theorem dropWhile_ne_nil_of_exists (h : ∃ c ∈ text, test c = false) :
    text.dropWhile test ≠ [] := by
  intro hNil
  obtain ⟨c, hc, hTest⟩ := h
  rw [← List.takeWhile_append_dropWhile (p := test) (l := text), hNil, List.append_nil] at hc
  rw [mem_takeWhile test text c hc] at hTest
  cases hTest

theorem takeWhile_append_of_exists (h : ∃ c ∈ text, test c = false) (extra : List Char) :
    (text ++ extra).takeWhile test = text.takeWhile test := by
  rw [List.takeWhile_append, if_neg]
  intro hLength
  obtain ⟨c, hc, hTest⟩ := h
  rw [← (List.takeWhile_prefix test).eq_of_length hLength] at hc
  rw [mem_takeWhile test text c hc] at hTest
  cases hTest

theorem dropWhile_append_of_ne_nil (h : text.dropWhile test ≠ []) (extra : List Char) :
    (text ++ extra).dropWhile test = text.dropWhile test ++ extra := by
  rw [List.dropWhile_append, if_neg]
  rwa [List.isEmpty_iff]

theorem dropWhile_append_of_exists (h : ∃ c ∈ text, test c = false) (extra : List Char) :
    (text ++ extra).dropWhile test = text.dropWhile test ++ extra :=
  dropWhile_append_of_ne_nil (dropWhile_ne_nil_of_exists h) extra

theorem skipBlanks_append (h : Text.skipBlanks text ≠ []) (extra : List Char) :
    Text.skipBlanks (text ++ extra) = Text.skipBlanks text ++ extra :=
  dropWhile_append_of_ne_nil h extra

end Runs

/-! ## More text behind a reading -/

def Failure.extend (extra : List Char) (failure : Failure) : Failure :=
  ⟨failure.fault, failure.position ++ extra, failure.rest ++ extra⟩

namespace Reading

variable {α β : Type}

/-- The same reading of a text with more behind it. -/
def extend (extra : List Char) : Reading α → Reading α
  | .ok (a, rest) => .ok (a, rest ++ extra)
  | .error failure => .error (failure.extend extra)

theorem extend_map (extra : List Char) (f : α → β) (r : Reading α) :
    (r.map f).extend extra = (r.extend extra).map f := by
  cases r <;> rfl

theorem extend_andThen {extra : List Char} {r r' : Reading α} {k : α → List Char → Reading β}
    (h : r' = r.extend extra)
    (hk : ∀ a rest, r = .ok (a, rest) → k a (rest ++ extra) = (k a rest).extend extra) :
    r'.andThen k = (r.andThen k).extend extra := by
  subst h
  cases r with
  | ok p => exact hk p.1 p.2 rfl
  | error failure => rfl

end Reading

variable {text : List Char}

theorem readName_append (missing : Fault) (h : Marked text) (extra : List Char) :
    readName missing (text ++ extra) = (readName missing text).extend extra := by
  have hMark := h.exists_not isNameChar rfl rfl
  have hLeading : leadingName (text ++ extra) = leadingName text :=
    takeWhile_append_of_exists hMark extra
  have hAfter : afterName (text ++ extra) = afterName text ++ extra :=
    dropWhile_append_of_exists hMark extra
  unfold readName
  rw [hLeading, hAfter]
  split
  · rfl
  · rfl

theorem readMark_append (mark : Char) (missing : Fault) (h : text ≠ []) (extra : List Char) :
    readMark mark missing (text ++ extra) = (readMark mark missing text).extend extra := by
  obtain ⟨c, rest, rfl⟩ := List.exists_cons_of_ne_nil h
  rw [List.cons_append, readMark, readMark]
  split
  · rfl
  · rfl

theorem readLength_append (h : Marked text) (extra : List Char) :
    readLength (text ++ extra) = (readLength text).extend extra := by
  have hMark := h.exists_not isNumberChar rfl rfl
  have hNumber := takeWhile_append_of_exists hMark extra
  have hAfterNumber := dropWhile_append_of_exists hMark extra
  have hBehind : Marked (text.dropWhile isNumberChar) := by
    rw [← List.takeWhile_append_dropWhile (p := isNumberChar) (l := text)] at h
    exact h.behind (inside_of_test _ rfl rfl (mem_takeWhile isNumberChar text))
  have hMark' := hBehind.exists_not isNameChar rfl rfl
  have hUnit : leadingName (text.dropWhile isNumberChar ++ extra) =
      leadingName (text.dropWhile isNumberChar) := takeWhile_append_of_exists hMark' extra
  have hAfterUnit : afterName (text.dropWhile isNumberChar ++ extra) =
      afterName (text.dropWhile isNumberChar) ++ extra := dropWhile_append_of_exists hMark' extra
  unfold readLength
  dsimp only
  rw [hNumber, hAfterNumber, hUnit, hAfterUnit]
  split
  · rfl
  · split
    · rfl
    · rfl

/-- A color is read in the same way with more behind the text, if what is read of the longer text
without a mark is read of the shorter one. -/
theorem readColor_append_of_split {extra : List Char}
    (hSplit : ∀ {read rest'}, Inside read → text ++ extra = read ++ rest' →
      ∃ rest, text = read ++ rest ∧ rest' = rest ++ extra) :
    readColor (text ++ extra) = (readColor text).extend extra := by
  unfold readColor
  cases hColor : leadingColor? text with
  | some p =>
    obtain ⟨c, rest⟩ := p
    obtain ⟨r, g, b, red, green, blue, rfl, hr, hg, hb, rfl⟩ := leadingColor?_eq_some_iff.mp hColor
    have hLonger : leadingColor? (r ++ g ++ b ++ rest ++ extra) = some (_, rest ++ extra) :=
      leadingColor?_eq_some_iff.mpr
        ⟨r, g, b, red, green, blue, List.append_assoc _ _ _, hr, hg, hb, rfl⟩
    rw [hLonger]
    rfl
  | none =>
    cases hLonger : leadingColor? (text ++ extra) with
    | none => rfl
    | some p =>
      obtain ⟨c, rest'⟩ := p
      obtain ⟨r, g, b, red, green, blue, hText, hr, hg, hb, rfl⟩ :=
        leadingColor?_eq_some_iff.mp hLonger
      obtain ⟨rest, rfl, rfl⟩ := hSplit ((hr.inside.append hg.inside).append hb.inside) hText
      have hShorter : leadingColor? (r ++ g ++ b ++ rest) = some (_, rest) :=
        leadingColor?_eq_some_iff.mpr ⟨r, g, b, red, green, blue, rfl, hr, hg, hb, rfl⟩
      rw [hColor] at hShorter
      cases hShorter

theorem readColor_append (h : Marked text) (extra : List Char) :
    readColor (text ++ extra) = (readColor text).extend extra :=
  readColor_append_of_split fun hRead hText => h.split hRead hText

theorem Value.read_append (h : Marked text) (extra : List Char) :
    Value.read (text ++ extra) = (Value.read text).extend extra := by
  obtain ⟨c, rest, rfl⟩ := List.exists_cons_of_ne_nil h.ne_nil
  rw [List.cons_append, Value.read, Value.read, ← List.cons_append]
  split
  · exact readLength_append h extra
  · split
    · next hHash =>
      have hRest : Marked ([c] ++ rest) := h
      exact readColor_append (hRest.behind (.cons (hHash ▸ rfl) .nil)) extra
    · rw [readName_append _ h, Reading.extend_map]

theorem Marked.skipBlanks (h : Marked text) : Marked (Text.skipBlanks text) := by
  obtain ⟨⟨blanks, hText, hBlanks⟩, -⟩ := skipBlanks_eq_iff.mp (rfl : Text.skipBlanks text = _)
  rw [hText] at h
  exact h.behind hBlanks.inside

theorem Declaration.readAfter_append (name : String) (h : Marked text) (extra : List Char) :
    Declaration.readAfter name (text ++ extra) =
      (Declaration.readAfter name text).extend extra := by
  unfold Declaration.readAfter
  have hColon := h.skipBlanks
  rw [skipBlanks_append hColon.ne_nil]
  refine Reading.extend_andThen (readMark_append _ _ hColon.ne_nil extra) fun _ rest hRest => ?_
  rw [readMark_eq_ok_iff.mp hRest] at hColon
  have hBehind : Marked ([':'] ++ rest) := hColon
  have hValue := (hBehind.behind (.cons rfl .nil)).skipBlanks
  rw [skipBlanks_append hValue.ne_nil]
  refine Reading.extend_andThen (Value.read_append hValue extra) fun value rest' hRest' => ?_
  obtain ⟨read, hText, hRead⟩ := Value.read_eq_ok_iff.mp hRest'
  rw [hText] at hValue
  have hSemicolon := (hValue.behind hRead.inside).skipBlanks
  rw [skipBlanks_append hSemicolon.ne_nil]
  exact Reading.extend_andThen (readMark_append _ _ hSemicolon.ne_nil extra) fun _ _ _ => rfl

theorem Declaration.read_append (h : Marked text) (extra : List Char) :
    Declaration.read (text ++ extra) = (Declaration.read text).extend extra := by
  refine Reading.extend_andThen (readName_append _ h extra) fun name rest hName => ?_
  obtain ⟨chars, rfl, hChars, -⟩ := readName_eq_ok_iff.mp hName
  exact Declaration.readAfter_append name (h.behind hChars.inside) extra

/-! ## Entries -/

def Skipped.extend (extra : List Char) (s : Skipped) : Skipped :=
  { s with position := s.position ++ extra }

def Entry.extend (extra : List Char) : Entry → Entry
  | .declaration d => .declaration d
  | .skipped s => .skipped (s.extend extra)

theorem skipDeclaration_append_of_marked (h : Marked text) (extra : List Char) :
    skipDeclaration (text ++ extra) = skipDeclaration text ++ extra := by
  have hDrop := dropWhile_append_of_exists h extra
  have hNonempty := dropWhile_ne_nil_of_exists h
  obtain ⟨d, rest, hRest⟩ := List.exists_cons_of_ne_nil hNonempty
  unfold skipDeclaration
  rw [hDrop, hRest, List.cons_append]
  by_cases hd : d = ';'
  · subst hd
    rfl
  · split
    · next hCons => exact absurd (List.cons.inj hCons).1 hd
    · split
      · next hCons => exact absurd (List.cons.inj hCons).1 hd
      · rfl

theorem Entry.recover_append (h : Marked text) (extra : List Char) :
    Entry.recover (text ++ extra) =
      ((Entry.recover text).1.extend extra, (Entry.recover text).2 ++ extra) := by
  have hRead := Declaration.read_append h extra
  cases hDeclaration : Declaration.read text with
  | ok p =>
    rw [hDeclaration] at hRead
    rw [Entry.recover, hRead, Entry.recover, hDeclaration]
    rfl
  | error failure =>
    rw [hDeclaration] at hRead
    have hLeading : leadingName (text ++ extra) = leadingName text :=
      takeWhile_append_of_exists (h.exists_not isNameChar rfl rfl) extra
    rw [Entry.recover_of_failure hRead, Entry.recover_of_failure hDeclaration,
      skipDeclaration_append_of_marked h, hLeading]
    rfl

theorem Entry.read_append (mode : Mode) (h : Marked text) (extra : List Char) :
    Entry.read mode (text ++ extra) =
      ((Entry.read mode text).extend extra).map (Entry.extend extra) := by
  cases mode with
  | strict =>
    rw [Entry.read, Entry.read, Declaration.read_append h]
    cases Declaration.read text <;> rfl
  | recovering =>
    rw [Entry.read, Entry.read, Entry.recover_append h]
    rfl

end BlockFlow
