import BlockFlow.Proofs.Sheet.Frontier
import BlockFlow.Proofs.Sheet.Groups

/-! # Faulty selectors

A group of selectors goes wrong behind a mark without a name, at a character that is neither a comma
nor a brace, or at the end of the text. As a selector may have no part, a brace completes whatever
was read before.
-/

namespace BlockFlow

open Grammar

variable {outer text : List Char} {failure : Failure}

def Phrase.selectors : Phrase where
  completes text := ∃ selectors, Group text selectors ['\x7b']
  reads text := (readSelectors text).Succeeds

theorem Reading.map_eq_error_iff {α β : Type} {f : α → β} {r : Reading α} :
    r.map f = .error failure ↔ r = .error failure := by
  constructor
  · intro h
    cases r with
    | ok p => cases h
    | error inner => exact congrArg Except.error (Except.error.inj h)
  · rintro rfl
    rfl

theorem SelectorPart.exists_of_read?_eq_error (h : read? text = some (.error failure)) :
    ∃ mark missing rest, text = mark :: rest ∧
      (mark = '#' ∧ missing = .missingId ∨ mark = '.' ∧ missing = .missingClass) ∧
      Ends rest ∧ failure = .here missing rest := by
  unfold read? at h
  split at h
  · cases h
  · next rest =>
    obtain ⟨hEnds, rfl⟩ :=
      readName_eq_error_iff.mp (Reading.map_eq_error_iff.mp (Option.some.inj h))
    exact ⟨'#', .missingId, rest, rfl, .inl ⟨rfl, rfl⟩, hEnds, rfl⟩
  · next rest =>
    obtain ⟨hEnds, rfl⟩ :=
      readName_eq_error_iff.mp (Reading.map_eq_error_iff.mp (Option.some.inj h))
    exact ⟨'.', .missingClass, rest, rfl, .inr ⟨rfl, rfl⟩, hEnds, rfl⟩
  · cases h
  · split at h
    · cases h
    · cases h

theorem SelectorPart.read?_of_ends {mark : Char} {missing : Fault} {rest : List Char}
    (h : mark = '#' ∧ missing = .missingId ∨ mark = '.' ∧ missing = .missingClass)
    (hEnds : Ends rest) : read? (mark :: rest) = some (.error (.here missing rest)) := by
  rcases h with ⟨rfl, rfl⟩ | ⟨rfl, rfl⟩
  · rw [read?, readName_eq_error_iff.mpr ⟨hEnds, rfl⟩]
    rfl
  · rw [read?, readName_eq_error_iff.mpr ⟨hEnds, rfl⟩]
    rfl

theorem SelectorPart.read?_cons_eq_none_iff {c : Char} {rest : List Char} :
    read? (c :: rest) = none ↔ c ≠ '#' ∧ c ≠ '.' ∧ c ≠ '*' ∧ isNameChar c = false := by
  by_cases hHash : c = '#'
  · simp [read?, hHash]
  · by_cases hPoint : c = '.'
    · simp [read?, hPoint]
    · by_cases hStar : c = '*'
      · simp [read?, hStar]
      · simp [read?, hHash, hPoint, hStar]

theorem SelectorPart.read?_eq_none_of_head {next next' : List Char} (h : read? next = none)
    (hHead : next'.head? = next.head?) : read? next' = none := by
  cases next' with
  | nil => rfl
  | cons c next' =>
    obtain ⟨next, rfl⟩ := List.head?_eq_some_iff.mp hHead.symm
    rw [read?_cons_eq_none_iff] at *
    exact h

theorem readParts_append {read next : List Char} {parts : List SelectorPart}
    (h : Parts read parts next) : readParts (read ++ next) = (readParts next).map (parts ++ ·) := by
  induction h with
  | nil => exact (Reading.map_id _).symm
  | @cons first part more parts next hPart _ ih =>
    have hRead : SelectorPart.read? (first ++ more ++ next) = some (.ok (part, more ++ next)) :=
      SelectorPart.read?_eq_some_ok_iff.mpr ⟨first, List.append_assoc _ _ _, hPart⟩
    rw [readParts]
    split
    · next hSome => rw [hRead] at hSome; cases hSome
    · next hSome => rw [hRead] at hSome; cases hSome
    · next hSome =>
      rw [hRead] at hSome
      obtain ⟨rfl, rfl⟩ := Prod.mk.inj (Except.ok.inj (Option.some.inj hSome))
      rw [ih, Reading.map_map]
      rfl

theorem readParts_of_part_error (h : SelectorPart.read? text = some (.error failure)) :
    readParts text = .error failure := by
  rw [readParts]
  split
  · next hSome => rw [h] at hSome; cases hSome
  · next hSome => rw [h] at hSome; cases hSome; rfl
  · next hSome => rw [h] at hSome; cases hSome

theorem exists_of_readParts_eq_error (h : readParts text = .error failure) :
    ∃ read parts mark missing rest, text = read ++ mark :: rest ∧ Parts read parts (mark :: rest) ∧
      (mark = '#' ∧ missing = .missingId ∨ mark = '.' ∧ missing = .missingClass) ∧
      Ends rest ∧ failure = .here missing rest := by
  fun_induction readParts text with
  | case1 text hNone => cases h
  | case2 text inner hSome =>
    obtain rfl := Except.error.inj h
    obtain ⟨mark, missing, rest, rfl, hMark, hEnds, rfl⟩ :=
      SelectorPart.exists_of_read?_eq_error hSome
    exact ⟨[], [], mark, missing, rest, rfl, .nil, hMark, hEnds, rfl⟩
  | case3 text part more hSome _ ih =>
    obtain ⟨read, parts, mark, missing, rest, rfl, hParts, hFault⟩ :=
      ih (Reading.map_eq_error_iff.mp h)
    obtain ⟨first, rfl, hPart⟩ := SelectorPart.read?_eq_some_ok_iff.mp hSome
    exact ⟨first ++ read, part :: parts, mark, missing, rest, (List.append_assoc _ _ _).symm,
      .cons hPart hParts, hFault⟩

theorem viable_group {read blanks next : List Char} {parts : List SelectorPart}
    (hParts : Parts read parts next) (hBlanks : Blanks blanks) :
    Phrase.selectors.completes (read ++ blanks) :=
  ⟨_, .last (hParts.of_ends (.behind hBlanks (.cons rfl _))) (names_iff.mpr rfl) hBlanks⟩

theorem readParts_atFrontier (h : readParts text = .error failure) :
    failure.AtFrontier outer .selectors text := by
  obtain ⟨read, parts, mark, missing, rest, rfl, hParts, hMark, hEnds, rfl⟩ :=
    exists_of_readParts_eq_error h
  have hSpans : Fault.Spans missing (outer ++ (read ++ [mark])) rest 0 := by
    rcases hMark with ⟨-, rfl⟩ | ⟨-, rfl⟩ <;> rfl
  -- any name completes the part, and a brace the group
  have hPart : ∃ part, Part [mark, 'a'] part ['\x7b'] := by
    rcases hMark with ⟨rfl, -⟩ | ⟨rfl, -⟩
    · exact ⟨_, .id (name_a (.cons rfl _))⟩
    · exact ⟨_, .className (name_a (.cons rfl _))⟩
  rw [List.append_cons]
  refine .here _ rfl hSpans ⟨⟨['a'], ?_⟩, ?_⟩
  · obtain ⟨part, hPart⟩ := hPart
    have hParts' : Parts read parts [mark, 'a', '\x7b'] := hParts.of_head rfl
    have hAll := hParts'.append (.singleton hPart)
    have hGroup := viable_group hAll .nil
    rwa [List.append_nil, List.append_cons] at hGroup
  · rintro c hc more ⟨selectors, left, hReads⟩
    obtain ⟨rest, rfl⟩ := List.head?_eq_some_iff.mp hc
    have hError := SelectorPart.read?_of_ends hMark (.cons (hEnds c rfl) more)
    have hParts' : Parts read parts (mark :: c :: more) := hParts.of_head rfl
    have hFails : readParts (read ++ mark :: c :: more) = .error (.here missing (c :: more)) := by
      rw [readParts_append hParts', readParts_of_part_error hError]
      rfl
    rw [List.append_assoc, List.singleton_append, readSelectors_of_parts_error hFails] at hReads
    cases hReads

theorem Failure.AtFrontier.behind_comma {read blanks blanks' : List Char}
    {parts : List SelectorPart}
    (h : failure.AtFrontier (outer ++ (read ++ blanks ++ ',' :: blanks')) .selectors text)
    (hParts : Parts read parts (blanks ++ ',' :: (blanks' ++ text))) (hBlanks : Blanks blanks)
    (hBlanks' : Blanks blanks') (hHead : ∀ c ∈ text.head?, Text.isBlank c = false) :
    failure.AtFrontier outer .selectors (read ++ (blanks ++ ',' :: (blanks' ++ text))) := by
  have hText (t : List Char) : read ++ (blanks ++ ',' :: (blanks' ++ t)) =
      read ++ blanks ++ ',' :: blanks' ++ t := by simp
  rw [hText]
  refine h.lift ?_ ?_
  · rintro t ⟨selectors, hGroup⟩
    have hParts' : Parts read parts (blanks ++ ',' :: (blanks' ++ t ++ ['\x7b'])) :=
      hParts.of_head (head?_append_cons _ _ _ _)
    have hAll := Group.cons hParts' (names_iff.mpr rfl) hBlanks hBlanks' hGroup
    exact ⟨[], _, by simpa using hAll⟩
  · intro t ht hReads
    have hRead : readParts (read ++ (blanks ++ ',' :: (blanks' ++ t))) = .ok (parts, _) :=
      readParts_of_mark hParts hBlanks (.inl rfl)
    have hSkip : Text.skipBlanks (blanks' ++ t) = t :=
      skipBlanks_eq_iff.mpr ⟨⟨blanks', rfl, hBlanks'⟩, ht ▸ hHead⟩
    change (readSelectors (read ++ blanks ++ ',' :: blanks' ++ t)).Succeeds at hReads
    rw [← hText, readSelectors_of_parts hRead, skipBlanks_append_mark hBlanks rfl] at hReads
    dsimp only at hReads
    rw [if_pos rfl, hSkip] at hReads
    exact hReads.of_map

/-- Behind a selector and blanks, a character that is neither a comma nor a brace is a fault. -/
theorem stray_atFrontier {read blanks more : List Char} {parts : List SelectorPart} {c : Char}
    (hParts : Parts read parts (blanks ++ c :: more))
    (hNone : SelectorPart.read? (blanks ++ c :: more) = none) (hBlanks : Blanks blanks)
    (hBlank : Text.isBlank c = false) (hComma : c ≠ ',') (hBrace : c ≠ '\x7b') :
    (Failure.here (.strayInSelectors c) (c :: more)).AtFrontier outer .selectors
      (read ++ (blanks ++ c :: more)) := by
  rw [← List.append_assoc]
  refine .here _ rfl rfl ⟨⟨[], ?_⟩, ?_⟩
  · rw [List.append_nil]
    exact viable_group hParts hBlanks
  · rintro d hd more' ⟨selectors, rest, hReads⟩
    obtain rfl := Option.some.inj hd
    have hStart := head?_append_cons blanks c more' more
    have hRead : readParts (read ++ (blanks ++ c :: more')) = .ok (parts, _) :=
      readParts_eq_ok_iff.mpr ⟨⟨read, rfl, hParts.of_head hStart⟩,
        SelectorPart.read?_eq_none_of_head hNone hStart⟩
    rw [List.append_assoc, readSelectors_of_parts hRead,
      skipBlanks_append_mark hBlanks hBlank] at hReads
    dsimp only at hReads
    rw [if_neg hComma, if_neg hBrace] at hReads
    cases hReads

theorem readSelectors_atFrontier (h : readSelectors text = .error failure) :
    failure.AtFrontier outer .selectors text := by
  fun_induction readSelectors text generalizing outer with
  | case1 text inner hRead =>
    obtain rfl := Except.error.inj h
    exact readParts_atFrontier hRead
  | case2 text parts after hRead hSkip =>
    obtain rfl := Except.error.inj h
    obtain ⟨⟨read, rfl, hParts⟩, -⟩ := readParts_eq_ok_iff.mp hRead
    obtain ⟨⟨blanks, rfl, hBlanks⟩, -⟩ := skipBlanks_eq_iff.mp hSkip
    rw [List.append_nil] at *
    refine .at_end rfl rfl ⟨[], ?_⟩
    rw [List.append_nil]
    exact viable_group hParts hBlanks
  | case3 text parts after hRead more hSkip _ ih =>
    obtain ⟨⟨read, rfl, hParts⟩, -⟩ := readParts_eq_ok_iff.mp hRead
    obtain ⟨⟨blanks, rfl, hBlanks⟩, -⟩ := skipBlanks_eq_iff.mp hSkip
    obtain ⟨⟨blanks', hMore, hBlanks'⟩, hHead⟩ :=
      skipBlanks_eq_iff.mp (rfl : Text.skipBlanks more = _)
    have hOthers := Reading.map_eq_error_iff.mp h
    generalize Text.skipBlanks more = others at *
    subst hMore
    exact (ih hOthers).behind_comma hParts hBlanks hBlanks' hHead
  | case4 text parts after hRead more hSkip => cases h
  | case5 text parts after hRead c more hSkip hComma hBrace =>
    obtain rfl := Except.error.inj h
    obtain ⟨⟨read, rfl, hParts⟩, hNone⟩ := readParts_eq_ok_iff.mp hRead
    obtain ⟨⟨blanks, rfl, hBlanks⟩, hHead⟩ := skipBlanks_eq_iff.mp hSkip
    exact stray_atFrontier hParts hNone hBlanks (hHead c rfl) hComma hBrace

end BlockFlow
