import BlockFlow.Proofs.Sheet.Tokens

/-! # Reading the body of a rule

A declaration is read exactly if the grammar derives it. What follows a derived list of declarations
does not matter to it, so that in either mode reading goes on behind the list as if from the start.
-/

namespace BlockFlow

open Grammar

theorem Declaration.read_eq_ok_iff {text rest : List Char} {d : Declaration Float} :
    Declaration.read text = .ok (d, rest) ↔ ∃ read, text = read ++ rest ∧ IsDeclaration read d := by
  constructor
  · intro h
    obtain ⟨name, afterName, hName, h⟩ := Reading.andThen_eq_ok_iff.mp h
    obtain ⟨_, afterColon, hColon, h⟩ := Reading.andThen_eq_ok_iff.mp h
    obtain ⟨value, afterValue, hValue, h⟩ := Reading.andThen_eq_ok_iff.mp h
    obtain ⟨_, afterMark, hMark, h⟩ := Reading.andThen_eq_ok_iff.mp h
    obtain ⟨rfl, rfl⟩ := Prod.mk.inj (Except.ok.inj h)
    obtain ⟨chars, rfl, hChars, rfl⟩ := readName_eq_ok_iff.mp hName
    obtain ⟨blanks, rfl, hBlanks⟩ := (readMark_skipBlanks_eq_ok_iff rfl).mp hColon
    obtain ⟨read, hRead, hIsValue⟩ := Value.read_eq_ok_iff.mp hValue
    obtain ⟨⟨blanks', rfl, hBlanks'⟩, -⟩ := skipBlanks_eq_iff.mp hRead
    obtain ⟨blanks'', rfl, hBlanks''⟩ := (readMark_skipBlanks_eq_ok_iff rfl).mp hMark
    refine ⟨chars ++ blanks ++ ':' :: (blanks' ++ read ++ blanks'' ++ [';']), ?_,
      .mk (hChars.of_head (head?_append_cons _ _ _ _)) hBlanks hBlanks'
        (hIsValue.of_head (head?_append_cons _ _ _ _)) hBlanks''⟩
    simp only [List.append_assoc, List.cons_append, List.nil_append]
  · rintro ⟨read, rfl, h⟩
    obtain @⟨name, blanks, blanks', text, value, blanks'', hName, hBlanks, hBlanks', hValue,
      hBlanks''⟩ := h
    obtain ⟨c, more, rfl, hc⟩ := hValue.head
    have hText : name ++ blanks ++ ':' :: (blanks' ++ (c :: more) ++ blanks'' ++ [';']) ++ rest =
        name ++ (blanks ++ ':' :: (blanks' ++ c :: (more ++ (blanks'' ++ ';' :: rest)))) := by
      simp only [List.append_assoc, List.cons_append, List.nil_append]
    rw [hText]
    refine Reading.andThen_eq_ok_iff.mpr ⟨_, _, readName_eq_ok_iff.mpr ⟨name, rfl,
      hName.of_head (head?_append_cons _ _ _ _), rfl⟩, ?_⟩
    refine Reading.andThen_eq_ok_iff.mpr ⟨(), _, (readMark_skipBlanks_eq_ok_iff rfl).mpr
      ⟨blanks, rfl, hBlanks⟩, ?_⟩
    rw [skipBlanks_append_mark hBlanks' hc]
    refine Reading.andThen_eq_ok_iff.mpr ⟨_, _, Value.read_eq_ok_iff.mpr ⟨c :: more, rfl,
      hValue.of_head (head?_append_cons _ _ _ _)⟩, ?_⟩
    refine Reading.andThen_eq_ok_iff.mpr ⟨(), _, (readMark_skipBlanks_eq_ok_iff rfl).mpr
      ⟨blanks'', rfl, hBlanks''⟩, ?_⟩
    rfl

theorem Grammar.IsDeclaration.head {text : List Char} {d : Declaration Float}
    (h : IsDeclaration text d) : ∃ c more, text = c :: more ∧ isNameChar c = true := by
  obtain ⟨hName, _, _, _, _⟩ := h
  obtain ⟨c, more, rfl⟩ := List.exists_cons_of_ne_nil hName.nonempty
  exact ⟨c, _, rfl, hName.chars c List.mem_cons_self⟩

theorem Entry.read_of_declaration {text rest : List Char} {d : Declaration Float}
    (h : Declaration.read text = .ok (d, rest)) (mode : Mode) :
    Entry.read mode text = .ok (.declaration d, rest) := by
  cases mode with
  | strict => rw [Entry.read, h]; rfl
  | recovering => rw [Entry.read, Entry.recover, h]

theorem readBody_eq (mode : Mode) (text : List Char) :
    readBody mode text = match Text.skipBlanks text with
      | [] => ⟨[], .error (.here .unclosedRule [])⟩
      | c :: more =>
        if c = '\x7d' then ⟨[], .ok ([], more)⟩
        else match Entry.read mode (c :: more) with
          | .error failure => ⟨[], .error failure⟩
          | .ok (entry, rest) => (readBody mode rest).withEntry entry := by
  rw [readBody]
  split
  · next hSkip => simp only [hSkip]
  · next c more hSkip =>
    simp only [hSkip]
    split
    · rfl
    · split
      · next hRead => simp only [hRead]
      · next hRead => simp only [hRead]

namespace Outcome

variable {α β γ : Type}

theorem map_id (o : Outcome α) : o.map (fun a => a) = o := by
  obtain ⟨skipped, reading⟩ := o
  cases reading <;> rfl

theorem map_map (o : Outcome α) (f : α → β) (g : β → γ) : (o.map f).map g = o.map (g ∘ f) := by
  obtain ⟨skipped, reading⟩ := o
  cases reading <;> rfl

theorem andThen_map (o : Outcome α) (k : α → List Char → Outcome β) (g : β → γ) :
    (o.andThen k).map g = o.andThen fun a rest => (k a rest).map g := by
  obtain ⟨skipped, reading⟩ := o
  cases reading <;> rfl

theorem map_andThen (o : Outcome α) (f : α → β) (k : β → List Char → Outcome γ) :
    (o.map f).andThen k = o.andThen fun a => k (f a) := by
  obtain ⟨skipped, reading⟩ := o
  cases reading <;> rfl

theorem andThen_ok (a : α) (rest : List Char) (k : α → List Char → Outcome β) :
    andThen ⟨[], .ok (a, rest)⟩ k = k a rest := rfl

end Outcome

/-- Blanks and declarations are read in either mode, whatever follows them. -/
theorem readBody_append (mode : Mode) {blanks body : List Char} {ds : List (Declaration Float)}
    (hBlanks : Blanks blanks) (h : Spaced IsDeclaration body ds) (rest : List Char) :
    readBody mode (blanks ++ (body ++ rest)) = (readBody mode rest).map (ds ++ ·) := by
  induction h generalizing blanks with
  | nil =>
    have hSkip : Text.skipBlanks (blanks ++ rest) = Text.skipBlanks rest :=
      List.dropWhile_append_of_pos hBlanks
    rw [List.nil_append, readBody_eq mode (blanks ++ rest), hSkip, ← readBody_eq]
    exact (Outcome.map_id _).symm
  | @cons text d blanks' more ds hText hBlanks' _ ih =>
    obtain ⟨c, tail, rfl, hc⟩ := hText.head
    have hRead := Declaration.read_eq_ok_iff.mpr
      ⟨c :: tail, show _ = _ ++ (blanks' ++ (more ++ rest)) from rfl, hText⟩
    have hBrace : c ≠ '\x7d' := by
      rintro rfl
      cases hc
    rw [List.append_assoc, List.append_assoc, List.cons_append, readBody_eq,
      skipBlanks_append_mark hBlanks (isBlank_eq_false_of_isNameChar hc)]
    dsimp only
    rw [if_neg hBrace, ← List.cons_append, Entry.read_of_declaration hRead mode]
    dsimp only
    rw [ih hBlanks', Outcome.withEntry, Outcome.map_map]
    rfl

theorem readBody_of_brace (mode : Mode) (rest : List Char) :
    readBody mode ('\x7d' :: rest) = ⟨[], .ok ([], rest)⟩ := by
  rw [readBody_eq]
  rfl

theorem declarations_of_readBody {text rest : List Char} {ds : List (Declaration Float)}
    (h : (readBody .strict text).reading = .ok (ds, rest)) :
    ∃ blanks body, text = blanks ++ (body ++ '\x7d' :: rest) ∧ Blanks blanks ∧
      Spaced IsDeclaration body ds := by
  fun_induction readBody .strict text generalizing ds with
  | case1 text hSkip => cases h
  | case2 text more hSkip =>
    obtain ⟨rfl, rfl⟩ := Prod.mk.inj (Except.ok.inj h)
    obtain ⟨⟨blanks, rfl, hBlanks⟩, -⟩ := skipBlanks_eq_iff.mp hSkip
    exact ⟨blanks, [], rfl, hBlanks, .nil⟩
  | case3 text c more hSkip hBrace failure hRead => cases h
  | case4 text c more hSkip hBrace entry after hRead _ ih =>
    obtain ⟨d, hDeclaration, rfl⟩ := Reading.map_eq_ok_iff.mp hRead
    obtain ⟨others, hOthers, rfl⟩ := Reading.map_eq_ok_iff.mp h
    obtain ⟨blanks', body, rfl, hBlanks', hBody⟩ := ih hOthers
    obtain ⟨read, hText, hRead⟩ := Declaration.read_eq_ok_iff.mp hDeclaration
    obtain ⟨⟨blanks, rfl, hBlanks⟩, -⟩ := skipBlanks_eq_iff.mp hSkip
    refine ⟨blanks, read ++ blanks' ++ body, ?_, hBlanks, .cons hRead hBlanks' hBody⟩
    rw [hText, List.append_assoc, List.append_assoc]

end BlockFlow
