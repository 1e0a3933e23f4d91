import BlockFlow.Sheet.Reader.Basic
import BlockFlow.Sheet.Selector

/-! # Reading selectors

A selector is a run of parts with nothing between them; a group of selectors is separated by commas,
with blanks allowed, and ends with the brace that opens the declarations. A selector may have no
part at all.
-/

namespace BlockFlow

/-- The part of a selector at the start of a text, if one begins there. -/
def SelectorPart.read? : List Char → Option (Reading SelectorPart)
  | [] => none
  | '#' :: rest => some ((readName .missingId rest).map .id)
  | '.' :: rest => some ((readName .missingClass rest).map .className)
  | '*' :: rest => some (.ok (.universal, rest))
  | c :: rest =>
    if isNameChar c then
      some (.ok (.tag (String.ofList (leadingName (c :: rest))), afterName (c :: rest)))
    else none

theorem SelectorPart.read?_within {text : List Char} {r : Reading SelectorPart}
    (h : read? text = some r) : r.Within text := by
  unfold read? at h
  split at h
  · cases h
  · obtain rfl := Option.some.inj h
    exact (readName_within _ _).map.mono (List.suffix_cons _ _)
  · obtain rfl := Option.some.inj h
    exact (readName_within _ _).map.mono (List.suffix_cons _ _)
  · obtain rfl := Option.some.inj h
    exact List.suffix_cons _ _
  · split at h
    · obtain rfl := Option.some.inj h
      exact afterName_suffix _
    · cases h

theorem SelectorPart.length_lt_of_read? {text rest : List Char} {part : SelectorPart}
    (h : read? text = some (.ok (part, rest))) : rest.length < text.length := by
  unfold read? at h
  split at h
  · cases h
  · next more =>
    cases hn : readName .missingId more with
    | error f => simp [hn, Reading.map] at h
    | ok p =>
      obtain ⟨name, after⟩ := p
      have := length_lt_of_readName hn
      simp only [hn, Reading.map, Option.some.injEq, Except.ok.injEq, Prod.mk.injEq] at h
      simp only [List.length_cons, ← h.2]
      omega
  · next more =>
    cases hn : readName .missingClass more with
    | error f => simp [hn, Reading.map] at h
    | ok p =>
      obtain ⟨name, after⟩ := p
      have := length_lt_of_readName hn
      simp only [hn, Reading.map, Option.some.injEq, Except.ok.injEq, Prod.mk.injEq] at h
      simp only [List.length_cons, ← h.2]
      omega
  · simp only [Option.some.injEq, Except.ok.injEq, Prod.mk.injEq] at h
    simp [← h.2]
  · next c more _ _ _ =>
    split at h
    · next hc =>
      simp only [Option.some.injEq, Except.ok.injEq, Prod.mk.injEq] at h
      have := (afterName_suffix more).length_le
      have hcons : afterName (c :: more) = afterName more := by simp [afterName, hc]
      simp only [List.length_cons, ← h.2, hcons]
      omega
    · cases h

/-- The parts of a selector, as many as there are. -/
def readParts (text : List Char) : Reading (List SelectorPart) :=
  match h : SelectorPart.read? text with
  | none => .ok ([], text)
  | some (.error failure) => .error failure
  | some (.ok (part, rest)) =>
    have := SelectorPart.length_lt_of_read? h
    (readParts rest).map (part :: ·)
termination_by text.length

theorem readParts_within (text : List Char) : (readParts text).Within text := by
  fun_induction readParts text with
  | case1 => exact List.suffix_rfl
  | case2 text failure h => exact SelectorPart.read?_within h
  | case3 text part rest h _ ih => exact ih.map.mono (SelectorPart.read?_within h)

/-- A group of selectors as written, up to the brace after it. -/
def readSelectors (text : List Char) : Reading (List Selector) :=
  match h : readParts text with
  | .error failure => .error failure
  | .ok (parts, rest) =>
    match h' : Text.skipBlanks rest with
    | [] => .error (.here .endOfSelectors [])
    | c :: more =>
      if c = ',' then
        have : (Text.skipBlanks more).length < text.length := by
          have hparts := readParts_within text
          rw [h] at hparts
          have h1 := List.IsSuffix.length_le hparts
          have h2 := Text.length_skipBlanks_le rest
          have h3 := Text.length_skipBlanks_le more
          rw [h', List.length_cons] at h2
          omega
        (readSelectors (Text.skipBlanks more)).map (Selector.ofParts parts :: ·)
      else if c = '\x7b' then .ok ([Selector.ofParts parts], more)
      else .error (.here (.strayInSelectors c) (c :: more))
termination_by text.length

theorem readSelectors_within (text : List Char) : (readSelectors text).Within text := by
  fun_induction readSelectors text with
  | case1 text failure h =>
    have := readParts_within text
    rwa [h] at this
  | case2 text parts rest h h' => exact .here (List.nil_suffix)
  | case3 text parts rest h more h' _ ih =>
    have hrest : rest <:+ text := by
      have := readParts_within text
      rwa [h] at this
    have hmore : ',' :: more <:+ rest := Text.suffix_of_skipBlanks h'
    exact ih.map.mono ((Text.skipBlanks_suffix more).trans
      ((List.suffix_cons _ _).trans (hmore.trans hrest)))
  | case4 text parts rest h more h' _ =>
    have hrest : rest <:+ text := by
      have := readParts_within text
      rwa [h] at this
    have hmore : '\x7b' :: more <:+ rest := Text.suffix_of_skipBlanks h'
    exact (List.suffix_cons _ _).trans (hmore.trans hrest)
  | case5 text parts rest h c more h' _ _ =>
    have hrest : rest <:+ text := by
      have := readParts_within text
      rwa [h] at this
    have hmore : c :: more <:+ rest := Text.suffix_of_skipBlanks h'
    exact .here (hmore.trans hrest)

/-- The brace after a group of selectors is read, so that less text is left. -/
theorem length_lt_of_readSelectors {text rest : List Char} {selectors : List Selector}
    (h : readSelectors text = .ok (selectors, rest)) : rest.length < text.length := by
  fun_induction readSelectors text generalizing selectors with
  | case1 text failure hp => cases h
  | case2 text parts after hp hb => cases h
  | case3 text parts after hp more hb hlt ih =>
    cases hr : readSelectors (Text.skipBlanks more) with
    | error failure => simp [hr, Reading.map] at h
    | ok p =>
      obtain ⟨others, left⟩ := p
      simp only [hr, Reading.map, Except.ok.injEq, Prod.mk.injEq] at h
      have := ih (h.2 ▸ hr)
      omega
  | case4 text parts after hp more hb _ =>
    simp only [Except.ok.injEq, Prod.mk.injEq] at h
    have hparts := readParts_within text
    rw [hp] at hparts
    have h1 := List.IsSuffix.length_le hparts
    have h2 := Text.length_skipBlanks_le after
    rw [hb, List.length_cons] at h2
    rw [← h.2]
    omega
  | case5 text parts after hp c more hb _ _ => cases h

end BlockFlow
