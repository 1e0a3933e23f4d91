import BlockFlow.Proofs.Sheet.Bodies
import BlockFlow.Proofs.Sheet.Groups
import BlockFlow.Sheet.Parse

/-! # Reading accepts exactly the grammar

Behind a derived list of rules reading goes on in either mode as if from the start. The main
statement is `parse_eq_ok_iff`: a text is a style sheet in strict mode exactly if the grammar derives
it, and its rules are those of the derivation.
-/

namespace BlockFlow

open Grammar

theorem Rule.read_of_selectors {text rest : List Char} {selectors : List Selector}
    (h : readSelectors text = .ok (selectors, rest)) (mode : Mode) :
    Rule.read mode text =
      (readBody mode rest).map fun ds => ⟨Selector.bySpecificity selectors, ds⟩ := by
  rw [Rule.read, h, Outcome.andThen_ok]

theorem readRules_eq (mode : Mode) (text : List Char) :
    readRules mode text = match Text.skipBlanks text with
      | [] => ⟨[], .ok ([], [])⟩
      | c :: more => (Rule.read mode (c :: more)).andThen fun rule rest =>
          (readRules mode rest).map (rule :: ·) := by
  rw [readRules]
  split
  · next hSkip => simp only [hSkip]
  · next c more hSkip =>
    simp only [hSkip]
    split
    · next hRead => simp only [Outcome.andThen, hRead]
    · next hRead => simp only [Outcome.andThen, hRead]

theorem readRules_skipBlanks (mode : Mode) (text : List Char) :
    readRules mode (Text.skipBlanks text) = readRules mode text := by
  have hSkip : Text.skipBlanks (Text.skipBlanks text) = Text.skipBlanks text :=
    dropWhile_eq_self (head?_dropWhile _ _)
  rw [readRules_eq mode (Text.skipBlanks text), hSkip, ← readRules_eq]

theorem readRules_of_group (mode : Mode) {blanks group : List Char} {selectors : List Selector}
    (hBlanks : Blanks blanks) (h : Group group selectors ['\x7b']) (rest : List Char) :
    readRules mode (blanks ++ (group ++ '\x7b' :: rest)) =
      ((readBody mode rest).map (Rule.mk (Selector.bySpecificity selectors))).andThen
        fun rule rest => (readRules mode rest).map (rule :: ·) := by
  have hSelectors := readSelectors_of_group h rfl hBlanks rest
  rw [← readRules_skipBlanks, readRules_eq,
    show Text.skipBlanks (Text.skipBlanks _) = _ from dropWhile_eq_self (head?_dropWhile _ _)]
  split
  · next hSkip =>
    have hLength := length_lt_of_readSelectors hSelectors
    rw [hSkip] at hLength
    exact absurd hLength (Nat.not_lt_zero _)
  · next c more hSkip =>
    rw [hSkip] at hSelectors
    rw [Rule.read_of_selectors hSelectors]

theorem readRules_of_rule (mode : Mode) {blanks text : List Char} {rule : Rule}
    (hBlanks : Blanks blanks) (h : IsRule text rule) (rest : List Char) :
    readRules mode (blanks ++ (text ++ rest)) = (readRules mode rest).map (rule :: ·) := by
  obtain @⟨group, written, ranked, blanks', body, ds, hGroup, hRanked, hBlanks', hBody⟩ := h
  have hText : group ++ '\x7b' :: (blanks' ++ body ++ ['\x7d']) ++ rest =
      group ++ '\x7b' :: (blanks' ++ (body ++ '\x7d' :: rest)) := by
    simp only [List.append_assoc, List.cons_append, List.nil_append]
  rw [hText, readRules_of_group mode hBlanks hGroup, readBody_append mode hBlanks' hBody,
    readBody_of_brace, Selector.ranked_iff.mp hRanked]
  simp only [Outcome.map, Reading.map, Outcome.andThen_ok, List.append_nil]

theorem readRules_append (mode : Mode) {blanks text : List Char} {rules : List Rule}
    (hBlanks : Blanks blanks) (h : Spaced IsRule text rules) (rest : List Char) :
    readRules mode (blanks ++ (text ++ rest)) = (readRules mode rest).map (rules ++ ·) := by
  induction h generalizing blanks with
  | nil =>
    have hSkip : Text.skipBlanks (blanks ++ rest) = Text.skipBlanks rest :=
      List.dropWhile_append_of_pos hBlanks
    rw [List.nil_append, ← readRules_skipBlanks, hSkip, readRules_skipBlanks]
    exact (Outcome.map_id _).symm
  | cons hRule hBlanks' _ ih =>
    rw [List.append_assoc, List.append_assoc, readRules_of_rule mode hBlanks hRule, ih hBlanks',
      Outcome.map_map]
    rfl

/-- What follows a style sheet is read as if from the start. -/
theorem readRules_of_sheet (mode : Mode) {text : List Char} {rules : List Rule}
    (h : Sheet text rules) (rest : List Char) :
    readRules mode (text ++ rest) = (readRules mode rest).map (rules ++ ·) := by
  obtain ⟨blanks, more, rfl, hBlanks, hRules⟩ := h
  rw [List.append_assoc, readRules_append mode hBlanks hRules]

theorem rule_of_read {text rest : List Char} {rule : Rule}
    (h : (Rule.read .strict text).reading = .ok (rule, rest)) :
    ∃ read, text = read ++ rest ∧ IsRule read rule := by
  cases hSelectors : readSelectors text with
  | error failure =>
    rw [Rule.read, hSelectors] at h
    cases h
  | ok p =>
    obtain ⟨selectors, more⟩ := p
    rw [Rule.read_of_selectors hSelectors] at h
    obtain ⟨ds, hBody, rfl⟩ := Reading.map_eq_ok_iff.mp h
    obtain ⟨group, rfl, hGroup⟩ := group_of_readSelectors hSelectors
    obtain ⟨blanks, body, rfl, hBlanks, hBody⟩ := declarations_of_readBody hBody
    refine ⟨group ++ '\x7b' :: (blanks ++ body ++ ['\x7d']), ?_,
      .mk hGroup (Selector.ranked_iff.mpr rfl) hBlanks hBody⟩
    simp only [List.append_assoc, List.cons_append, List.nil_append]

theorem sheet_of_readRules {text rest : List Char} {rules : List Rule}
    (h : (readRules .strict text).reading = .ok (rules, rest)) : rest = [] ∧ Sheet text rules := by
  fun_induction readRules .strict text generalizing rules with
  | case1 text hSkip =>
    obtain ⟨rfl, rfl⟩ := Prod.mk.inj (Except.ok.inj h)
    obtain ⟨⟨blanks, rfl, hBlanks⟩, -⟩ := skipBlanks_eq_iff.mp hSkip
    exact ⟨rfl, blanks, [], rfl, hBlanks, .nil⟩
  | case2 text c more hSkip failure hRead => cases h
  | case3 text c more hSkip rule after hRead _ _ =>
    rename_i ih
    obtain ⟨others, hOthers, rfl⟩ := Reading.map_eq_ok_iff.mp h
    obtain ⟨rfl, blanks', tail, rfl, hBlanks', hTail⟩ := ih hOthers
    obtain ⟨read, hText, hRule⟩ := rule_of_read hRead
    obtain ⟨⟨blanks, rfl, hBlanks⟩, -⟩ := skipBlanks_eq_iff.mp hSkip
    refine ⟨rfl, blanks, read ++ blanks' ++ tail, ?_, hBlanks, .cons hRule hBlanks' hTail⟩
    rw [hText, List.append_assoc]

theorem reading_readRules_iff {text : List Char} {rules : List Rule} :
    (readRules .strict text).reading = .ok (rules, []) ↔ Sheet text rules := by
  constructor
  · intro h
    exact (sheet_of_readRules h).2
  · intro h
    have hRead := readRules_of_sheet .strict h []
    rw [List.append_nil, readRules_eq .strict []] at hRead
    rw [hRead]
    simp only [Text.skipBlanks, List.dropWhile_nil, Outcome.map, Reading.map, List.append_nil]

theorem Reading.result_eq_ok_iff {α : Type} {source : List Char} {r : Reading α} {a : α} :
    r.result source = .ok a ↔ ∃ rest, r = .ok (a, rest) := by
  constructor
  · intro h
    cases r with
    | error failure => cases h
    | ok p => exact ⟨p.2, congrArg (fun b => Except.ok (b, p.2)) (Except.ok.inj h)⟩
  · rintro ⟨rest, rfl⟩
    rfl

theorem result_parse_eq_ok_iff {source : String} {sheet : Stylesheet} :
    (Stylesheet.parse .strict source).result = .ok sheet ↔
      (readRules .strict source.toList).reading = .ok (sheet.rules, []) := by
  rw [Stylesheet.parse, Reading.result_eq_ok_iff]
  constructor
  · rintro ⟨rest, h⟩
    obtain ⟨rules, hRules, rfl⟩ := Reading.map_eq_ok_iff.mp h
    obtain ⟨rfl, -⟩ := sheet_of_readRules hRules
    exact hRules
  · intro h
    exact ⟨[], Reading.map_eq_ok_iff.mpr ⟨sheet.rules, h, rfl⟩⟩

/-- Strict reading takes exactly the texts that the grammar derives for style sheets, and gives the
rules that the derivation stands for. -/
theorem parse_eq_ok_iff (source : String) (sheet : Stylesheet) :
    (Stylesheet.parse .strict source).result = .ok sheet ↔ Sheet source.toList sheet.rules := by
  rw [result_parse_eq_ok_iff, reading_readRules_iff]

end BlockFlow
