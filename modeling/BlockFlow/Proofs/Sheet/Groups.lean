import BlockFlow.Proofs.Sheet.Tokens
import Mathlib.Data.List.Induction

/-! # Reading groups of selectors

A group is read up to the brace behind it. Blanks before a group are skipped first, and with them
those that belong to a selector without parts: reading is therefore related to a group with blanks
before it.
-/

namespace BlockFlow

open Grammar

theorem Selector.ofParts_concat (parts : List SelectorPart) (part : SelectorPart) :
    ofParts (parts ++ [part]) = (ofParts parts).add part := by
  rw [ofParts, List.foldl_append]
  rfl

theorem names_iff {parts : List SelectorPart} {s : Selector} :
    Names parts s ↔ s = Selector.ofParts parts := by
  have hOfParts : Names parts (Selector.ofParts parts) := by
    induction parts using List.reverseRecOn with
    | nil => exact ⟨rfl, rfl, rfl⟩
    | append_singleton parts part ih =>
      rw [Selector.ofParts_concat]
      cases part with
      | tag name => exact ⟨by simp [Selector.add], by simp [Selector.add, ih.id],
          by simp [Selector.add, ih.classes]⟩
      | id name => exact ⟨by simp [Selector.add, ih.tag], by simp [Selector.add],
          by simp [Selector.add, ih.classes]⟩
      | className name => exact ⟨by simp [Selector.add, ih.tag], by simp [Selector.add, ih.id],
          by simp [Selector.add, ih.classes]⟩
      | universal => exact ⟨by simp [Selector.add, ih.tag], by simp [Selector.add, ih.id],
          by simp [Selector.add, ih.classes]⟩
  constructor
  · intro h
    obtain ⟨tag, id, classes⟩ := s
    rw [Selector.mk.injEq]
    exact ⟨h.tag.trans hOfParts.tag.symm, h.id.trans hOfParts.id.symm,
      h.classes.trans hOfParts.classes.symm⟩
  · rintro rfl
    exact hOfParts

theorem SelectorPart.read?_eq_some_ok_iff {text rest : List Char} {part : SelectorPart} :
    read? text = some (.ok (part, rest)) ↔ ∃ read, text = read ++ rest ∧ Part read part rest := by
  constructor
  · intro h
    unfold read? at h
    split at h
    · cases h
    · obtain ⟨name, hName, rfl⟩ := Reading.map_eq_ok_iff.mp (Option.some.inj h)
      obtain ⟨chars, rfl, hChars, rfl⟩ := readName_eq_ok_iff.mp hName
      exact ⟨'#' :: chars, rfl, .id hChars⟩
    · obtain ⟨name, hName, rfl⟩ := Reading.map_eq_ok_iff.mp (Option.some.inj h)
      obtain ⟨chars, rfl, hChars, rfl⟩ := readName_eq_ok_iff.mp hName
      exact ⟨'.' :: chars, rfl, .className hChars⟩
    · obtain ⟨rfl, rfl⟩ := Prod.mk.inj (Except.ok.inj (Option.some.inj h))
      exact ⟨['*'], rfl, .universal⟩
    · next c more _ _ _ =>
      split at h
      · next hc =>
        obtain ⟨rfl, rfl⟩ := Prod.mk.inj (Except.ok.inj (Option.some.inj h))
        refine ⟨_, (leadingName_append_afterName _).symm, .tag (name_leadingName ?_)⟩
        rw [leadingName, List.takeWhile_cons_of_pos hc]
        exact List.cons_ne_nil _ _
      · cases h
  · rintro ⟨read, rfl, h⟩
    cases h with
    | @id name _ hName =>
      have hRead : readName .missingId (name ++ rest) = .ok (_, rest) :=
        readName_eq_ok_iff.mpr ⟨name, rfl, hName, rfl⟩
      rw [List.cons_append, read?, hRead]
      rfl
    | @className name _ hName =>
      have hRead : readName .missingClass (name ++ rest) = .ok (_, rest) :=
        readName_eq_ok_iff.mpr ⟨name, rfl, hName, rfl⟩
      rw [List.cons_append, read?, hRead]
      rfl
    | universal => rfl
    | tag hName =>
      have hLeading := hName.leadingName
      have hAfter := hName.afterName
      obtain ⟨c, more, rfl⟩ := List.exists_cons_of_ne_nil hName.nonempty
      have hc := hName.chars c List.mem_cons_self
      rw [List.cons_append] at *
      unfold read?
      split
      · contradiction
      · next heq => rw [(List.cons.inj heq).1] at hc; cases hc
      · next heq => rw [(List.cons.inj heq).1] at hc; cases hc
      · next heq => rw [(List.cons.inj heq).1] at hc; cases hc
      · next heq =>
        obtain ⟨rfl, rfl⟩ := List.cons.inj heq
        rw [if_pos hc, hLeading, hAfter]

theorem SelectorPart.read?_eq_none {text : List Char}
    (h : ∀ c ∈ text.head?, Text.isBlank c = true ∨ c = ',' ∨ c = '\x7b') : read? text = none := by
  cases text with
  | nil => rfl
  | cons c rest =>
    have hc := h c rfl
    unfold read?
    split
    · rfl
    · next heq => rw [(List.cons.inj heq).1] at hc; exact absurd hc (by decide)
    · next heq => rw [(List.cons.inj heq).1] at hc; exact absurd hc (by decide)
    · next heq => rw [(List.cons.inj heq).1] at hc; exact absurd hc (by decide)
    · next heq =>
      obtain ⟨rfl, rfl⟩ := List.cons.inj heq
      apply if_neg
      rcases hc with hc | rfl | rfl
      · rw [isNameChar_eq_false_of_isBlank hc]
        exact Bool.false_ne_true
      · decide
      · decide

theorem Grammar.Part.of_head {text next next' : List Char} {part : SelectorPart}
    (h : Part text part next) (hHead : next'.head? = next.head?) : Part text part next' := by
  cases h with
  | id hName => exact .id (hName.of_head hHead)
  | className hName => exact .className (hName.of_head hHead)
  | universal => exact .universal
  | tag hName => exact .tag (hName.of_head hHead)

theorem Grammar.Parts.of_head {text next next' : List Char} {parts : List SelectorPart}
    (h : Parts text parts next) (hHead : next'.head? = next.head?) : Parts text parts next' := by
  induction h with
  | nil => exact .nil
  | cons hPart _ ih => exact .cons (hPart.of_head (head?_append_of_head? hHead _)) (ih hHead)

theorem Grammar.Part.of_ends {text next next' : List Char} {part : SelectorPart}
    (h : Part text part next) (hNext : Ends next') : Part text part next' := by
  cases h with
  | id hName => exact .id (hName.of_ends hNext)
  | className hName => exact .className (hName.of_ends hNext)
  | universal => exact .universal
  | tag hName => exact .tag (hName.of_ends hNext)

theorem Grammar.Parts.of_ends {text next next' : List Char} {parts : List SelectorPart}
    (h : Parts text parts next) (hNext : Ends next') : Parts text parts next' := by
  induction h with
  | nil => exact .nil
  | @cons first part more parts next hPart _ ih =>
    refine .cons ?_ ih
    cases more with
    | nil => exact hPart.of_ends hNext
    | cons c more => exact hPart.of_head rfl

theorem Grammar.Parts.append {left right next : List Char} {first second : List SelectorPart}
    (hLeft : Parts left first (right ++ next)) (hRight : Parts right second next) :
    Parts (left ++ right) (first ++ second) next := by
  generalize hAfter : right ++ next = after at hLeft
  induction hLeft with
  | nil => exact hRight
  | @cons text part more parts after hPart hParts ih =>
    subst hAfter
    rw [List.append_assoc]
    refine .cons ?_ (ih rfl)
    rw [List.append_assoc]
    exact hPart

theorem Grammar.Parts.singleton {text next : List Char} {part : SelectorPart}
    (h : Part text part next) : Parts text [part] next := by
  rw [← List.append_nil text]
  exact .cons h .nil

theorem readParts_eq_ok_iff {text rest : List Char} {parts : List SelectorPart} :
    readParts text = .ok (parts, rest) ↔
      (∃ read, text = read ++ rest ∧ Parts read parts rest) ∧ SelectorPart.read? rest = none := by
  constructor
  · intro h
    fun_induction readParts text generalizing parts with
    | case1 text hNone =>
      obtain ⟨rfl, rfl⟩ := Prod.mk.inj (Except.ok.inj h)
      exact ⟨⟨[], rfl, .nil⟩, hNone⟩
    | case2 text failure hSome => cases h
    | case3 text part more hSome _ ih =>
      obtain ⟨others, hOthers, rfl⟩ := Reading.map_eq_ok_iff.mp h
      obtain ⟨⟨read, rfl, hParts⟩, hNone⟩ := ih hOthers
      obtain ⟨first, rfl, hPart⟩ := SelectorPart.read?_eq_some_ok_iff.mp hSome
      exact ⟨⟨first ++ read, (List.append_assoc _ _ _).symm, .cons hPart hParts⟩, hNone⟩
  · rintro ⟨⟨read, rfl, hParts⟩, hNone⟩
    induction hParts with
    | nil =>
      unfold readParts
      split
      · rfl
      · next hSome => rw [List.nil_append, hNone] at hSome; cases hSome
      · next hSome => rw [List.nil_append, hNone] at hSome; cases hSome
    | @cons first part more parts next hPart _ ih =>
      have hRead : SelectorPart.read? (first ++ more ++ next) = some (.ok (part, more ++ next)) :=
        SelectorPart.read?_eq_some_ok_iff.mpr ⟨first, List.append_assoc _ _ _, hPart⟩
      unfold readParts
      split
      · next hSome => rw [hRead] at hSome; cases hSome
      · next hSome => rw [hRead] at hSome; cases hSome
      · next hSome =>
        rw [hRead] at hSome
        obtain ⟨rfl, rfl⟩ := Prod.mk.inj (Except.ok.inj (Option.some.inj hSome))
        rw [ih hNone]
        rfl

theorem readSelectors_of_parts {text after : List Char} {parts : List SelectorPart}
    (h : readParts text = .ok (parts, after)) :
    readSelectors text = match Text.skipBlanks after with
      | [] => .error (.here .endOfSelectors [])
      | c :: more =>
        if c = ',' then (readSelectors (Text.skipBlanks more)).map (Selector.ofParts parts :: ·)
        else if c = '\x7b' then .ok ([Selector.ofParts parts], more)
        else .error (.here (.strayInSelectors c) (c :: more)) := by
  rw [readSelectors]
  split
  · next hRead => rw [h] at hRead; cases hRead
  · next hRead =>
    rw [h] at hRead
    obtain ⟨rfl, rfl⟩ := Prod.mk.inj (Except.ok.inj hRead)
    split
    · next hSkip => simp only [hSkip]
    · next hSkip => simp only [hSkip]

theorem readSelectors_of_parts_error {text : List Char} {failure : Failure}
    (h : readParts text = .error failure) : readSelectors text = .error failure := by
  rw [readSelectors]
  split
  · next hRead =>
    rw [hRead] at h
    exact congrArg Except.error (Except.error.inj h)
  · next hRead =>
    rw [hRead] at h
    cases h

theorem readParts_of_mark {text blanks rest next : List Char} {parts : List SelectorPart}
    {mark : Char} (hParts : Parts text parts (blanks ++ mark :: next)) (hBlanks : Blanks blanks)
    (hMark : mark = ',' ∨ mark = '\x7b') :
    readParts (text ++ (blanks ++ mark :: rest)) = .ok (parts, blanks ++ mark :: rest) := by
  refine readParts_eq_ok_iff.mpr ⟨⟨text, rfl, ?_⟩, ?_⟩
  · exact hParts.of_head (head?_append_cons blanks mark rest next)
  · apply SelectorPart.read?_eq_none
    intro c hc
    cases blanks with
    | nil =>
      obtain rfl := Option.some.inj hc
      exact .inr hMark
    | cons d blanks =>
      obtain rfl := Option.some.inj hc
      exact .inl (hBlanks d List.mem_cons_self)

theorem Grammar.Part.head {text next : List Char} {part : SelectorPart} (h : Part text part next) :
    ∃ c more, text = c :: more ∧ Text.isBlank c = false := by
  cases h with
  | id hName => exact ⟨'#', _, rfl, rfl⟩
  | className hName => exact ⟨'.', _, rfl, rfl⟩
  | universal => exact ⟨'*', _, rfl, rfl⟩
  | tag hName =>
    obtain ⟨c, more, rfl⟩ := List.exists_cons_of_ne_nil hName.nonempty
    exact ⟨c, more, rfl, isBlank_eq_false_of_isNameChar (hName.chars c List.mem_cons_self)⟩

/-- Skipping blanks before a selector leaves the selector. One without parts has only blanks between
what precedes it and the next mark, and these are skipped as well. -/
theorem skipBlanks_parts {lead text blanks next rest : List Char} {parts : List SelectorPart}
    {mark : Char} (hLead : Blanks lead) (hParts : Parts text parts (blanks ++ mark :: next))
    (hBlanks : Blanks blanks) (hMark : Text.isBlank mark = false) :
    ∃ blanks', Blanks blanks' ∧ Parts text parts (blanks' ++ mark :: next) ∧
      Text.skipBlanks (lead ++ (text ++ (blanks ++ mark :: rest))) =
        text ++ (blanks' ++ mark :: rest) := by
  cases hParts with
  | nil =>
    refine ⟨[], fun _ hc => absurd hc List.not_mem_nil, .nil, ?_⟩
    rw [List.nil_append, List.nil_append, List.nil_append, ← List.append_assoc]
    exact skipBlanks_append_mark (hLead.append hBlanks) hMark
  | @cons first part more parts _ hPart hParts =>
    refine ⟨blanks, hBlanks, .cons hPart hParts, ?_⟩
    obtain ⟨c, first, rfl, hc⟩ := hPart.head
    exact skipBlanks_append_mark hLead hc

theorem readSelectors_of_group {group next : List Char} {selectors : List Selector}
    (h : Group group selectors next) (hNext : next = ['\x7b']) {lead : List Char}
    (hLead : Blanks lead) (rest : List Char) :
    readSelectors (Text.skipBlanks (lead ++ (group ++ '\x7b' :: rest))) =
      .ok (selectors, rest) := by
  induction h generalizing lead with
  | @last text parts s blanks next hParts hNames hBlanks =>
    subst hNext
    obtain ⟨blanks, hBlanks, hParts, hSkip⟩ := skipBlanks_parts hLead hParts hBlanks rfl
    rw [List.append_assoc, hSkip, names_iff.mp hNames,
      readSelectors_of_parts (readParts_of_mark hParts hBlanks (.inr rfl)),
      skipBlanks_append_mark hBlanks rfl]
    rfl
  | @cons text parts s blanks blanks' more selectors next hParts hNames hBlanks hBlanks' hMore ih =>
    subst hNext
    obtain ⟨blanks, hBlanks, hParts, hSkip⟩ := skipBlanks_parts hLead hParts hBlanks rfl
    rw [List.append_assoc, List.append_assoc, List.cons_append, hSkip, names_iff.mp hNames,
      readSelectors_of_parts (readParts_of_mark hParts hBlanks (.inl rfl)),
      skipBlanks_append_mark hBlanks rfl]
    dsimp only
    rw [if_pos rfl, List.append_assoc, ih rfl hBlanks']
    rfl

theorem group_of_readSelectors {text rest : List Char} {selectors : List Selector}
    (h : readSelectors text = .ok (selectors, rest)) :
    ∃ group, text = group ++ '\x7b' :: rest ∧ Group group selectors ['\x7b'] := by
  fun_induction readSelectors text generalizing selectors with
  | case1 text failure hRead => cases h
  | case2 text parts after hRead hSkip => cases h
  | case3 text parts after hRead more hSkip _ ih =>
    obtain ⟨others, hOthers, rfl⟩ := Reading.map_eq_ok_iff.mp h
    obtain ⟨⟨read, rfl, hParts⟩, -⟩ := readParts_eq_ok_iff.mp hRead
    obtain ⟨⟨blanks, rfl, hBlanks⟩, -⟩ := skipBlanks_eq_iff.mp hSkip
    obtain ⟨group, hGroup, hMore⟩ := ih hOthers
    obtain ⟨⟨blanks', rfl, hBlanks'⟩, -⟩ := skipBlanks_eq_iff.mp hGroup
    refine ⟨read ++ blanks ++ ',' :: (blanks' ++ group), ?_,
      .cons (hParts.of_head (head?_append_cons _ _ _ _)) (names_iff.mpr rfl) hBlanks hBlanks'
        hMore⟩
    simp only [List.append_assoc, List.cons_append]
  | case4 text parts after hRead more hSkip =>
    obtain ⟨rfl, rfl⟩ := Prod.mk.inj (Except.ok.inj h)
    obtain ⟨⟨read, rfl, hParts⟩, -⟩ := readParts_eq_ok_iff.mp hRead
    obtain ⟨⟨blanks, rfl, hBlanks⟩, -⟩ := skipBlanks_eq_iff.mp hSkip
    exact ⟨read ++ blanks, (List.append_assoc _ _ _).symm,
      .last (hParts.of_head (head?_append_cons _ _ _ _)) (names_iff.mpr rfl) hBlanks⟩
  | case5 text parts after hRead c more hSkip _ _ => cases h

end BlockFlow
