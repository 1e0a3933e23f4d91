import BlockFlow.Proofs.Sheet.Recognition

/-! # Where declarations stand

An opening is a text that ends in the body of a rule, where a declaration can begin: complete rules,
then the selectors and the brace of one more, then some of its declarations. Reading a text that
starts with an opening is a matter of what follows the opening, in either mode.
-/

namespace BlockFlow

open Grammar

namespace Grammar

/-- A text that ends in the body of a rule: the rules before it, its selectors, and the declarations
and blanks of the body so far. -/
inductive Opening : List Char → List Rule → List Selector → List (Declaration Float) → Prop
  | mk {before rules group written ranked blanks body ds} : Sheet before rules →
      Group group written ['\x7b'] → Selector.Ranked written ranked → Blanks blanks →
      Spaced IsDeclaration body ds →
      Opening (before ++ (group ++ '\x7b' :: (blanks ++ body))) rules ranked ds

namespace Spaced

variable {α : Type} {Item : List Char → α → Prop} {text : List Char} {a : α} {as : List α}

theorem singleton (h : Item text a) : Spaced Item text [a] := by
  have hOne := Spaced.cons h .nil .nil
  rwa [List.append_nil, List.append_nil] at hOne

theorem append {right : List Char} {others : List α} (hl : Spaced Item text as)
    (hr : Spaced Item right others) : Spaced Item (text ++ right) (as ++ others) := by
  induction hl with
  | nil => exact hr
  | cons hText hBlanks _ ih =>
    rw [List.append_assoc]
    exact .cons hText hBlanks ih

/-- Blanks behind some items belong to the last of them. -/
theorem append_blanks {blanks : List Char} (h : Spaced Item text (a :: as))
    (hBlanks : Blanks blanks) : Spaced Item (text ++ blanks) (a :: as) := by
  induction as generalizing text a with
  | nil =>
    cases h with
    | cons hText hBlanks' hMore =>
      cases hMore
      rw [List.append_nil, List.append_assoc, ← List.append_nil (_ ++ blanks), ← List.append_assoc]
      exact .cons hText (hBlanks'.append hBlanks) .nil
  | cons b as ih =>
    cases h with
    | cons hText hBlanks' hMore =>
      rw [List.append_assoc]
      exact .cons hText hBlanks' (ih hMore)

end Spaced

theorem Sheet.append_blanks {text blanks : List Char} {rules : List Rule} (h : Sheet text rules)
    (hBlanks : Blanks blanks) : Sheet (text ++ blanks) rules := by
  obtain ⟨lead, more, rfl, hLead, hRules⟩ := h
  cases rules with
  | nil =>
    cases hRules
    exact ⟨lead ++ blanks, [], by rw [List.append_nil, List.append_nil], hLead.append hBlanks, .nil⟩
  | cons rule rules =>
    exact ⟨lead, more ++ blanks, List.append_assoc _ _ _, hLead, hRules.append_blanks hBlanks⟩

theorem Sheet.append_rule {text next : List Char} {rules : List Rule} {rule : Rule}
    (h : Sheet text rules) (hRule : IsRule next rule) : Sheet (text ++ next) (rules ++ [rule]) := by
  obtain ⟨lead, more, rfl, hLead, hRules⟩ := h
  exact ⟨lead, more ++ next, List.append_assoc _ _ _, hLead, hRules.append (.singleton hRule)⟩

theorem Sheet.opening {text blanks group : List Char} {rules : List Rule}
    {selectors : List Selector} (h : Sheet text rules) (hBlanks : Blanks blanks)
    (hGroup : Group group selectors ['\x7b']) :
    Opening (text ++ (blanks ++ (group ++ ['\x7b']))) rules (Selector.bySpecificity selectors)
      [] := by
  have hOpening := Opening.mk (h.append_blanks hBlanks) hGroup (Selector.ranked_iff.mpr rfl)
    .nil .nil
  rwa [List.append_assoc] at hOpening

namespace Opening

variable {text : List Char} {rules : List Rule} {selectors : List Selector}
  {ds : List (Declaration Float)}

theorem append_blanks {blanks : List Char} (h : Opening text rules selectors ds)
    (hBlanks : Blanks blanks) : Opening (text ++ blanks) rules selectors ds := by
  obtain @⟨before, _, group, _, _, blanks', body, _, hBefore, hGroup, hRanked, hBlanks', hBody⟩ := h
  cases ds with
  | nil =>
    cases hBody
    have hText : before ++ (group ++ '\x7b' :: (blanks' ++ [])) ++ blanks =
        before ++ (group ++ '\x7b' :: (blanks' ++ blanks ++ [])) := by simp
    rw [hText]
    exact .mk hBefore hGroup hRanked (hBlanks'.append hBlanks) .nil
  | cons d ds =>
    have hText : before ++ (group ++ '\x7b' :: (blanks' ++ body)) ++ blanks =
        before ++ (group ++ '\x7b' :: (blanks' ++ (body ++ blanks))) := by simp
    rw [hText]
    exact .mk hBefore hGroup hRanked hBlanks' (hBody.append_blanks hBlanks)

theorem append_declaration {next : List Char} {d : Declaration Float}
    (h : Opening text rules selectors ds) (hNext : IsDeclaration next d) :
    Opening (text ++ next) rules selectors (ds ++ [d]) := by
  obtain @⟨before, _, group, _, _, blanks', body, _, hBefore, hGroup, hRanked, hBlanks', hBody⟩ := h
  have hText : before ++ (group ++ '\x7b' :: (blanks' ++ body)) ++ next =
      before ++ (group ++ '\x7b' :: (blanks' ++ (body ++ next))) := by simp
  rw [hText]
  exact .mk hBefore hGroup hRanked hBlanks' (hBody.append (.singleton hNext))

theorem close (h : Opening text rules selectors ds) :
    Sheet (text ++ ['\x7d']) (rules ++ [⟨selectors, ds⟩]) := by
  obtain @⟨before, _, group, _, _, blanks', body, _, hBefore, hGroup, hRanked, hBlanks', hBody⟩ := h
  have hText : before ++ (group ++ '\x7b' :: (blanks' ++ body)) ++ ['\x7d'] =
      before ++ (group ++ '\x7b' :: (blanks' ++ body ++ ['\x7d'])) := by simp
  rw [hText]
  exact hBefore.append_rule (.mk hGroup hRanked hBlanks' hBody)

end Opening

end Grammar

/-- What reading gives from the body of a rule on, with the rules before it, its selectors and the
declarations so far. -/
def readInside (mode : Mode) (rules : List Rule) (selectors : List Selector)
    (ds : List (Declaration Float)) (text : List Char) : Outcome (List Rule) :=
  ((readBody mode text).map fun more => ⟨selectors, ds ++ more⟩).andThen
    fun rule rest => (readRules mode rest).map (rules ++ rule :: ·)

theorem readRules_of_opening (mode : Mode) {text : List Char} {rules : List Rule}
    {selectors : List Selector} {ds : List (Declaration Float)}
    (h : Opening text rules selectors ds) (rest : List Char) :
    readRules mode (text ++ rest) = readInside mode rules selectors ds rest := by
  obtain @⟨before, _, group, written, _, blanks, body, _, hBefore, hGroup, hRanked, hBlanks, hBody⟩
    := h
  have hText : before ++ (group ++ '\x7b' :: (blanks ++ body)) ++ rest =
      before ++ ([] ++ (group ++ '\x7b' :: (blanks ++ (body ++ rest)))) := by simp
  rw [hText, readRules_of_sheet mode hBefore, readRules_of_group mode .nil hGroup,
    readBody_append mode hBlanks hBody, Selector.ranked_iff.mp hRanked, readInside]
  simp only [Outcome.map_map, Outcome.map_andThen, Outcome.andThen_map]
  rfl

end BlockFlow
