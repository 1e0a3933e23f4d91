import BlockFlow.Proofs.Sheet.Braces
import Mathlib.Data.Prod.Lex

/-! # The selectors of a rule in the order of their ranks

In either mode a source that is read falls into groups of selectors, each with a body in braces behind
it. The selectors of a rule are those of its group, sorted stably by rank: which order they come out
in depends on this group alone, and of the group only on the order in each rank.
-/

namespace BlockFlow

open Grammar Selector

namespace Grammar

/-- The groups of selectors of a source as written, one for each rule; what the bodies of the rules
hold does not matter. -/
inductive Written : List Char → List (List Selector) → Prop
  | nil {blanks} : Blanks blanks → Written blanks []
  | cons {blanks group selectors body more groups} : Blanks blanks →
      Group group selectors ['\x7b'] → '\x7d' ∉ body → Written more groups →
      Written (blanks ++ (group ++ '\x7b' :: (body ++ '\x7d' :: more))) (selectors :: groups)

end Grammar

/-- The numbers of ids, classes and tags in their lexicographic order. -/
def Specificity.triple (s : Specificity) : ℕ ×ₗ ℕ ×ₗ ℕ := toLex (s.ids, toLex (s.classes, s.tags))

namespace Selector

/-- Permutations of each other in which the selectors of each rank stand in the same order. -/
structure Rearranged (left right : List Selector) : Prop where
  perm : left.Perm right
  kept : ∀ rank, ofRank rank left = ofRank rank right

/-- The written selectors from the highest rank to the lowest, in each rank as they were written. -/
structure StablySorted (written sorted : List Selector) : Prop extends Rearranged sorted written where
  descending : sorted.Pairwise fun a b => b.specificity.triple ≤ a.specificity.triple

end Selector

/-- A rule of a source that is read in the mode, with its group of selectors as written. -/
def IsRuleOf (mode : Mode) (source : String) (written : List Selector) (rule : Rule) : Prop :=
  ∃ sheet groups, (Stylesheet.parse mode source).result = .ok sheet ∧
    Written source.toList groups ∧ (written, rule) ∈ groups.zip sheet.rules

/-- The source falls into these groups and no others, one for each rule of the sheet. A rule has the
selectors of its group sorted stably by rank, and has the same as another rule, of this source or of
any other, exactly if their groups differ by a rearrangement that leaves each rank in its order. -/
structure Stylesheet.SortedFrom (sheet : Stylesheet) (source : String)
    (groups : List (List Selector)) : Prop where
  written : Written source.toList groups
  unique : ∀ others, Written source.toList others → others = groups
  length : groups.length = sheet.rules.length
  sorted : ∀ written rule, (written, rule) ∈ groups.zip sheet.rules →
    StablySorted written rule.selectors
  alone : ∀ written rule, (written, rule) ∈ groups.zip sheet.rules →
    ∀ mode source' written' rule', IsRuleOf mode source' written' rule' →
      (Rearranged written written' ↔ rule.selectors = rule'.selectors)

/-! ## Sorting one group -/

theorem Specificity.atMost_iff_triple_le (a b : Specificity) :
    a.atMost b = true ↔ a.triple ≤ b.triple := by
  rw [atMost_iff, triple, triple, Prod.Lex.toLex_le_toLex, Prod.Lex.toLex_le_toLex]

namespace Selector

theorem perm_bySpecificity (selectors : List Selector) :
    (bySpecificity selectors).Perm selectors :=
  List.mergeSort_perm _ _

theorem stablySorted_bySpecificity (selectors : List Selector) :
    StablySorted selectors (bySpecificity selectors) where
  perm := perm_bySpecificity selectors
  kept rank := ofRank_bySpecificity rank selectors
  descending := by
    have hDescending := descending_bySpecificity selectors
    simpa only [Descending, Specificity.atMost_iff_triple_le] using hDescending

theorem rearranged_iff {left right : List Selector} :
    Rearranged left right ↔ bySpecificity left = bySpecificity right := by
  constructor
  · rintro ⟨-, hKept⟩
    apply ranked_iff.mp
    refine ⟨descending_bySpecificity left, fun rank => ?_⟩
    rw [ofRank_bySpecificity, hKept]
  · intro h
    have hPerm := perm_bySpecificity right
    rw [← h] at hPerm
    refine ⟨(perm_bySpecificity left).symm.trans hPerm, fun rank => ?_⟩
    rw [← ofRank_bySpecificity rank left, h, ofRank_bySpecificity]

end Selector

/-! ## The groups of a source -/

theorem exists_body_of_readBody {mode : Mode} {text rest : List Char}
    {ds : List (Declaration Float)} (h : (readBody mode text).reading = .ok (ds, rest)) :
    ∃ body, text = body ++ '\x7d' :: rest ∧ '\x7d' ∉ body := by
  fun_induction readBody mode text generalizing ds with
  | case1 text hSkip => cases h
  | case2 text more hSkip =>
    obtain ⟨-, rfl⟩ := Prod.mk.inj (Except.ok.inj h)
    obtain ⟨⟨blanks, hText, hBlanks⟩, -⟩ := skipBlanks_eq_iff.mp hSkip
    exact ⟨blanks, hText, hBlanks.inside.not_mem_brace⟩
  | case3 text c more hSkip hBrace failure hRead => cases h
  | case4 text c more hSkip hBrace entry after hRead _ ih =>
    obtain ⟨others, hOthers⟩ := Outcome.exists_of_withEntry h
    obtain ⟨body, rfl, hBody⟩ := ih hOthers
    obtain ⟨read, hText, hEntry⟩ := Entry.exists_read hRead
    obtain ⟨⟨blanks, rfl, hBlanks⟩, -⟩ := skipBlanks_eq_iff.mp hSkip
    have hBlank : '\x7d' ∉ blanks := Blanks.inside hBlanks |>.not_mem_brace
    exact ⟨blanks ++ (read ++ body), by simp [hText], by simp [hBlank, hEntry, hBody]⟩

theorem exists_group_of_read {mode : Mode} {text rest : List Char} {rule : Rule}
    (h : (Rule.read mode text).reading = .ok (rule, rest)) :
    ∃ group selectors body, text = group ++ '\x7b' :: (body ++ '\x7d' :: rest) ∧
      Group group selectors ['\x7b'] ∧ '\x7d' ∉ body ∧ rule.selectors = bySpecificity selectors := by
  cases hSelectors : readSelectors text with
  | error failure =>
    rw [Rule.read, hSelectors] at h
    cases h
  | ok p =>
    obtain ⟨selectors, after⟩ := p
    rw [Rule.read_of_selectors hSelectors] at h
    obtain ⟨ds, hRead, rfl⟩ := Reading.map_eq_ok_iff.mp h
    obtain ⟨group, rfl, hGroup⟩ := group_of_readSelectors hSelectors
    obtain ⟨body, rfl, hBody⟩ := exists_body_of_readBody hRead
    exact ⟨group, selectors, body, rfl, hGroup, hBody, rfl⟩

theorem exists_written_of_readRules {mode : Mode} {text rest : List Char} {rules : List Rule}
    (h : (readRules mode text).reading = .ok (rules, rest)) :
    ∃ groups, Written text groups ∧
      List.Forall₂ (fun written rule => rule.selectors = bySpecificity written) groups rules := by
  fun_induction readRules mode text generalizing rules with
  | case1 text hSkip =>
    obtain ⟨rfl, -⟩ := Prod.mk.inj (Except.ok.inj h)
    obtain ⟨⟨blanks, rfl, hBlanks⟩, -⟩ := skipBlanks_eq_iff.mp hSkip
    refine ⟨[], ?_, .nil⟩
    rw [List.append_nil]
    exact .nil hBlanks
  | case2 text c more hSkip failure hRead => cases h
  | case3 text c more hSkip rule after hRead _ _ =>
    rename_i ih
    obtain ⟨others, hOthers, rfl⟩ := Reading.map_eq_ok_iff.mp h
    obtain ⟨groups, hGroups, hSorted⟩ := ih hOthers
    obtain ⟨group, selectors, body, hText, hGroup, hBody, hSelectors⟩ := exists_group_of_read hRead
    obtain ⟨⟨blanks, rfl, hBlanks⟩, -⟩ := skipBlanks_eq_iff.mp hSkip
    rw [hText]
    exact ⟨selectors :: groups, .cons hBlanks hGroup hBody hGroups, .cons hSelectors hSorted⟩

theorem ne_nil_of_readSelectors {text : List Char} {p : List Selector × List Char}
    (h : readSelectors text = .ok p) : text ≠ [] := by
  rintro rfl
  exact absurd (length_lt_of_readSelectors h) (Nat.not_lt_zero _)

theorem dropWhile_body {body : List Char} (h : '\x7d' ∉ body) (more : List Char) :
    (body ++ '\x7d' :: more).dropWhile (· != '\x7d') = '\x7d' :: more := by
  refine dropWhile_run (fun c hc => ?_) (by simp)
  rw [bne_iff_ne]
  rintro rfl
  exact h hc

namespace Grammar

theorem Written.read {text : List Char} {groups : List (List Selector)} (h : Written text groups) :
    (groups = [] ∧ Text.skipBlanks text = []) ∨
      ∃ selectors others body more, groups = selectors :: others ∧ '\x7d' ∉ body ∧
        readSelectors (Text.skipBlanks text) = .ok (selectors, body ++ '\x7d' :: more) ∧
        Written more others := by
  cases h with
  | nil hBlanks =>
    exact .inl ⟨rfl, skipBlanks_eq_iff.mpr ⟨⟨text, by simp, hBlanks⟩, by simp⟩⟩
  | cons hBlanks hGroup hBody hMore =>
    exact .inr ⟨_, _, _, _, rfl, hBody, readSelectors_of_group hGroup rfl hBlanks _, hMore⟩

theorem Written.unique {text : List Char} {groups others : List (List Selector)}
    (h : Written text groups) (h' : Written text others) : groups = others := by
  induction groups generalizing text others with
  | nil =>
    obtain ⟨-, hSkip⟩ | ⟨_, _, _, _, hCons, -⟩ := h.read
    · obtain ⟨rfl, -⟩ | ⟨_, _, _, _, -, -, hRead, -⟩ := h'.read
      · rfl
      · exact absurd hSkip (ne_nil_of_readSelectors hRead)
    · cases hCons
  | cons selectors groups ih =>
    obtain ⟨hNil, -⟩ | ⟨_, _, body, more, hCons, hBody, hRead, hMore⟩ := h.read
    · cases hNil
    · obtain ⟨rfl, rfl⟩ := List.cons.inj hCons
      obtain ⟨-, hSkip⟩ | ⟨_, _, body', more', rfl, hBody', hRead', hMore'⟩ := h'.read
      · exact absurd hSkip (ne_nil_of_readSelectors hRead)
      · obtain ⟨rfl, hRest⟩ := Prod.mk.inj (Except.ok.inj (hRead.symm.trans hRead'))
        -- both bodies end at the first brace of what the group leaves
        have hDrop := dropWhile_body hBody more
        rw [hRest, dropWhile_body hBody' more'] at hDrop
        obtain rfl := (List.cons.inj hDrop).2
        rw [ih hMore hMore']

end Grammar

theorem exists_written_of_parse {mode : Mode} {source : String} {sheet : Stylesheet}
    (h : (Stylesheet.parse mode source).result = .ok sheet) :
    ∃ groups, Written source.toList groups ∧ List.Forall₂
      (fun written rule => rule.selectors = bySpecificity written) groups sheet.rules := by
  obtain ⟨rest, hRead⟩ := Reading.result_eq_ok_iff.mp h
  obtain ⟨rules, hRules, rfl⟩ := Reading.map_eq_ok_iff.mp hRead
  exact exists_written_of_readRules hRules

theorem IsRuleOf.selectors {mode : Mode} {source : String} {written : List Selector} {rule : Rule}
    (h : IsRuleOf mode source written rule) : rule.selectors = bySpecificity written := by
  obtain ⟨sheet, groups, hParse, hWritten, hMem⟩ := h
  obtain ⟨others, hOthers, hSorted⟩ := exists_written_of_parse hParse
  obtain rfl := hWritten.unique hOthers
  exact (List.forall₂_iff_zip.mp hSorted).2 hMem

/-- Whatever source is read, in whichever mode, the selectors of each rule are those of its written
group, sorted stably by rank and by nothing else. -/
theorem parse_selectors_sorted {mode : Mode} {source : String} {sheet : Stylesheet}
    (h : (Stylesheet.parse mode source).result = .ok sheet) :
    ∃ groups, sheet.SortedFrom source groups := by
  obtain ⟨groups, hGroups, hSorted⟩ := exists_written_of_parse h
  have hSelectors {written : List Selector} {rule : Rule}
      (hMem : (written, rule) ∈ groups.zip sheet.rules) :
      rule.selectors = bySpecificity written :=
    IsRuleOf.selectors ⟨sheet, groups, h, hGroups, hMem⟩
  refine ⟨groups, hGroups, fun others hOthers => hOthers.unique hGroups, hSorted.length_eq, ?_, ?_⟩
  · intro written rule hMem
    rw [hSelectors hMem]
    exact stablySorted_bySpecificity written
  · intro written rule hMem mode source' written' rule' hRule
    rw [hSelectors hMem, hRule.selectors, rearranged_iff]

/-- Two classes with an id between them, a selector without parts, and a body that is passed over. -/
theorem parse_selectors_sorted_of_tie :
    let a : Selector := ⟨none, none, ["a"]⟩
    let b : Selector := ⟨none, none, ["b"]⟩
    let d : Selector := ⟨none, some "d", []⟩
    let sheet : Stylesheet := ⟨[⟨[d, b, a, .everything], []⟩]⟩
    (Stylesheet.parse .recovering ".b,#d,.a,\x7bx;\x7d").result = .ok sheet ∧
      ∃ groups, sheet.SortedFrom ".b,#d,.a,\x7bx;\x7d" groups := by
  intro a b d sheet
  have hSorted : bySpecificity [b, d, a, .everything] = [d, b, a, .everything] := by
    simp [bySpecificity, List.mergeSort, List.MergeSort.Internal.splitInTwo, Specificity.atMost,
      specificity, everything, a, b, d]
  have hParse : (Stylesheet.parse .recovering ".b,#d,.a,\x7bx;\x7d").result =
      .ok ⟨[⟨bySpecificity [b, d, a, .everything], []⟩]⟩ := by with_unfolding_all rfl
  rw [hSorted] at hParse
  exact ⟨hParse, parse_selectors_sorted hParse⟩

end BlockFlow
