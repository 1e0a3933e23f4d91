import BlockFlow.Proofs.Sheet.Concatenation
import BlockFlow.Proofs.Sheet.DeclarationFrontier
import BlockFlow.Proofs.Sheet.SelectorFrontier
import Mathlib.Order.Bounds.Basic

/-! # Where errors are reported

Rules and declarations hand on the frontier of what they are made of. The main statement is
`parse_error_place`: an error of strict reading is reported where the longest start of the text ends
that some text completes, or at the start of the token in which it ends.
-/

namespace BlockFlow

open Grammar

variable {outer text : List Char} {failure : Failure}

/-! ## Bodies -/

def Phrase.body : Phrase where
  completes text := ∃ blanks body ds, text = blanks ++ (body ++ ['\x7d']) ∧ Blanks blanks ∧
    Spaced IsDeclaration body ds
  reads text := (readBody .strict text).reading.Succeeds

theorem readBody_atFrontier (h : (readBody .strict text).reading = .error failure) :
    failure.AtFrontier outer .body text := by
  fun_induction readBody .strict text generalizing outer with
  | case1 text hSkip =>
    obtain rfl := Except.error.inj h
    obtain ⟨⟨blanks, rfl, hBlanks⟩, -⟩ := skipBlanks_eq_iff.mp hSkip
    rw [List.append_nil]
    exact .at_end rfl rfl ⟨['\x7d'], blanks, [], [], rfl, hBlanks, .nil⟩
  | case2 text more hSkip => cases h
  | case3 text c more hSkip hBrace inner hRead =>
    obtain rfl := Except.error.inj h
    obtain ⟨⟨blanks, rfl, hBlanks⟩, hHead⟩ := skipBlanks_eq_iff.mp hSkip
    have hDeclaration := Reading.map_eq_error_iff.mp hRead
    -- the first character alone decides that a declaration has to follow
    refine (Declaration.atFrontier hDeclaration).lift ?_ ?_
    · rintro t ⟨d, hd⟩
      exact ⟨['\x7d'], blanks, t, [d], List.append_assoc _ _ _, hBlanks, .singleton hd⟩
    · rintro t ht ⟨ds, rest, hReads⟩
      obtain ⟨tail, rfl⟩ := List.head?_eq_some_iff.mp ht
      change (readBody .strict (blanks ++ c :: tail)).reading = _ at hReads
      rw [readBody_eq, skipBlanks_append_mark hBlanks (hHead c rfl)] at hReads
      dsimp only at hReads
      rw [if_neg hBrace, Entry.read] at hReads
      cases hd : Declaration.read (c :: tail) with
      | ok p => exact ⟨p.1, p.2, hd⟩
      | error inner =>
        rw [hd] at hReads
        cases hReads
  | case4 text c more hSkip hBrace entry after hRead _ ih =>
    obtain ⟨⟨blanks, rfl, hBlanks⟩, -⟩ := skipBlanks_eq_iff.mp hSkip
    obtain ⟨d, hDeclaration, rfl⟩ := Reading.map_eq_ok_iff.mp hRead
    obtain ⟨read, hText, hd⟩ := Declaration.read_eq_ok_iff.mp hDeclaration
    rw [hText, ← List.append_assoc]
    -- a declaration that was read can stand before any body and changes nothing behind it
    refine (ih (Reading.map_eq_error_iff.mp h)).lift ?_ ?_
    · rintro t ⟨blanks', body, ds, rfl, hBlanks', hBody⟩
      exact ⟨[], blanks, read ++ blanks' ++ body, d :: ds, by simp, hBlanks,
        .cons hd hBlanks' hBody⟩
    · intro t _ hReads
      change (readBody .strict (blanks ++ read ++ t)).reading.Succeeds at hReads
      rw [List.append_assoc, readBody_append .strict hBlanks (.singleton hd)] at hReads
      exact hReads.of_map

/-! ## Style sheets -/

def Phrase.sheet : Phrase where
  completes text := ∃ rules, Sheet text rules
  reads text := (readRules .strict text).reading.Succeeds

/-- Selectors that fail, with blanks before them, are a sheet that fails. -/
theorem readSelectors_atFrontier_sheet {blanks : List Char} (hBlanks : Blanks blanks)
    (hHead : ∃ c ∈ text.head?, Text.isBlank c = false) (h : readSelectors text = .error failure) :
    failure.AtFrontier outer .sheet (blanks ++ text) := by
  refine (readSelectors_atFrontier h).lift ?_ ?_
  · rintro t ⟨selectors, hGroup⟩
    have hRule := IsRule.mk hGroup (Selector.ranked_iff.mpr rfl) .nil .nil
    exact ⟨['\x7b', '\x7d'], _, blanks, _, List.append_assoc _ _ _, hBlanks, .singleton hRule⟩
  · rintro t ht ⟨rules, rest, hReads⟩
    obtain ⟨c, hc, hBlank⟩ := hHead
    obtain ⟨tail, rfl⟩ := List.head?_eq_some_iff.mp (ht.trans hc)
    change (readRules .strict (blanks ++ c :: tail)).reading = _ at hReads
    rw [readRules_eq, skipBlanks_append_mark hBlanks hBlank] at hReads
    cases hSelectors : readSelectors (c :: tail) with
    | ok p => exact ⟨p.1, p.2, hSelectors⟩
    | error inner =>
      dsimp only at hReads
      rw [Rule.read, hSelectors] at hReads
      cases hReads

theorem readBody_atFrontier_sheet {blanks group : List Char} {selectors : List Selector}
    (hBlanks : Blanks blanks) (hGroup : Group group selectors ['\x7b'])
    (h : (readBody .strict text).reading = .error failure) :
    failure.AtFrontier outer .sheet (blanks ++ (group ++ '\x7b' :: text)) := by
  have hText (t : List Char) : blanks ++ (group ++ '\x7b' :: t) =
      blanks ++ group ++ ['\x7b'] ++ t := by simp
  rw [hText]
  refine (readBody_atFrontier h).lift ?_ ?_
  · rintro t ⟨blanks', body, ds, rfl, hBlanks', hBody⟩
    have hRule := IsRule.mk hGroup (Selector.ranked_iff.mpr rfl) hBlanks' hBody
    exact ⟨[], _, blanks, _, by simp, hBlanks, .singleton hRule⟩
  · rintro t - ⟨rules, rest, hReads⟩
    change (readRules .strict (blanks ++ group ++ ['\x7b'] ++ t)).reading = _ at hReads
    rw [← hText, readRules_of_group .strict hBlanks hGroup] at hReads
    cases hBody : (readBody .strict t).reading with
    | ok p => exact ⟨p.1, p.2, hBody⟩
    | error inner =>
      rw [Outcome.andThen, Outcome.map, hBody] at hReads
      cases hReads

theorem readRules_atFrontier (h : (readRules .strict text).reading = .error failure) :
    failure.AtFrontier outer .sheet text := by
  fun_induction readRules .strict text generalizing outer with
  | case1 text hSkip => cases h
  | case2 text c more hSkip inner hRead =>
    obtain rfl := Except.error.inj h
    obtain ⟨⟨blanks, rfl, hBlanks⟩, hHead⟩ := skipBlanks_eq_iff.mp hSkip
    cases hSelectors : readSelectors (c :: more) with
    | error inner =>
      rw [Rule.read, hSelectors] at hRead
      obtain rfl := Except.error.inj hRead
      exact readSelectors_atFrontier_sheet hBlanks ⟨c, rfl, hHead c rfl⟩ hSelectors
    | ok p =>
      obtain ⟨selectors, after⟩ := p
      obtain ⟨group, hText, hGroup⟩ := group_of_readSelectors hSelectors
      rw [Rule.read_of_selectors hSelectors] at hRead
      rw [hText]
      exact readBody_atFrontier_sheet hBlanks hGroup (Reading.map_eq_error_iff.mp hRead)
  | case3 text c more hSkip rule after hRead _ _ =>
    rename_i ih
    obtain ⟨⟨blanks, rfl, hBlanks⟩, -⟩ := skipBlanks_eq_iff.mp hSkip
    obtain ⟨read, hText, hRule⟩ := rule_of_read hRead
    rw [hText, ← List.append_assoc]
    refine (ih (Reading.map_eq_error_iff.mp h)).lift ?_ ?_
    · rintro t ⟨rules, blanks', tail, rfl, hBlanks', hTail⟩
      exact ⟨[], rule :: rules, blanks, read ++ blanks' ++ tail, by simp, hBlanks,
        .cons hRule hBlanks' hTail⟩
    · intro t _ hReads
      change (readRules .strict (blanks ++ read ++ t)).reading.Succeeds at hReads
      rw [List.append_assoc, readRules_of_rule .strict hBlanks hRule] at hReads
      exact hReads.of_map

/-! ## Lists of declarations -/

def Phrase.declarations : Phrase where
  completes text := (readDeclarations text).Succeeds
  reads text := (readDeclarations text).Succeeds

theorem readDeclarations_atFrontier (h : readDeclarations text = .error failure) :
    failure.AtFrontier outer .declarations text := by
  fun_induction readDeclarations text generalizing outer with
  | case1 text hSkip => cases h
  | case2 text c more hSkip inner hRead =>
    obtain rfl := Except.error.inj h
    obtain ⟨⟨blanks, rfl, hBlanks⟩, hHead⟩ := skipBlanks_eq_iff.mp hSkip
    refine (Declaration.atFrontier hRead).lift ?_ ?_
    · rintro t ⟨d, hd⟩
      refine ⟨[], [d], [], ?_⟩
      rw [List.append_assoc, readDeclarations_of_declaration hBlanks hd, readDeclarations_eq]
      rfl
    · intro t ht hReads
      obtain ⟨tail, rfl⟩ := List.head?_eq_some_iff.mp ht
      change (readDeclarations (blanks ++ c :: tail)).Succeeds at hReads
      rw [readDeclarations_eq, skipBlanks_append_mark hBlanks (hHead c rfl)] at hReads
      exact hReads.of_andThen
  | case3 text c more hSkip d after hRead _ ih =>
    obtain ⟨⟨blanks, rfl, hBlanks⟩, -⟩ := skipBlanks_eq_iff.mp hSkip
    obtain ⟨read, hText, hd⟩ := Declaration.read_eq_ok_iff.mp hRead
    rw [hText, ← List.append_assoc]
    refine (ih (Reading.map_eq_error_iff.mp h)).lift ?_ ?_
    · rintro t ⟨ds, rest, ht⟩
      refine ⟨[], d :: ds, rest, ?_⟩
      rw [List.append_nil, List.append_assoc, readDeclarations_of_declaration hBlanks hd, ht]
      rfl
    · intro t _ hReads
      change (readDeclarations (blanks ++ read ++ t)).Succeeds at hReads
      rw [List.append_assoc, readDeclarations_of_declaration hBlanks hd] at hReads
      exact hReads.of_map

/-! ## Places -/

/-- An error in a source, when some sources are accepted: `p` characters precede the one place that
it is reported at, and the first `q` characters are the longest start of the source that some text
completes to an accepted one. -/
structure SyntaxError.LocatedAt (accepted : List Char → Prop) (source : List Char)
    (e : SyntaxError) (p q : Nat) : Prop where
  place : ∀ n, (n ≤ source.length ∧ e.place = ⟨1 + (source.take n).count '\n',
    1 + ((source.take n).reverse.takeWhile (· != '\n')).length⟩) ↔ n = p
  longest : IsGreatest {n | n ≤ source.length ∧ ∃ more, accepted (source.take n ++ more)} q
  le : p ≤ q
  token : e.fault.Spans (source.take p) (source.drop p) (q - p)

theorem Failure.AtFrontier.located {phrase : Phrase} {accepted : List Char → Prop}
    (h : failure.AtFrontier [] phrase text) (hCompletes : ∀ t, phrase.completes t → accepted t)
    (hReads : ∀ t, accepted t → phrase.reads t) :
    ∃ p q, (SyntaxError.ofFailure text failure).LocatedAt accepted text p q := by
  obtain ⟨read, inside, beyond, rfl, hPosition, hSpans, ⟨more, hMore⟩, hDead⟩ := h
  have hTake : (read ++ (inside ++ beyond)).take read.length = read := List.take_left
  have hFrontier : (read ++ (inside ++ beyond)).take (read.length + inside.length) =
      read ++ inside := by
    rw [← List.append_assoc, ← List.length_append, List.take_left]
  refine ⟨read.length, read.length + inside.length, ?_, ⟨⟨?_, more, ?_⟩, ?_⟩,
    Nat.le_add_right _ _, ?_⟩
  · intro n
    have hPlace : (SyntaxError.ofFailure (read ++ (inside ++ beyond)) failure).place =
        .after ((read ++ (inside ++ beyond)).take read.length) := by
      rw [SyntaxError.ofFailure, hPosition, Text.Place.within_append, hTake]
    rw [hPlace, ← Text.Place.after_eq]
    constructor
    · rintro ⟨hn, hAfter⟩
      exact ((Text.Place.after_take_inj (by simp) hn).mp hAfter).symm
    · rintro rfl
      exact ⟨by simp, rfl⟩
  · simp
  · rw [hFrontier]
    exact hCompletes _ hMore
  · rintro n ⟨hn, rest, hAccepted⟩
    by_contra hLong
    -- a longer start goes on with the first character beyond the frontier
    obtain ⟨k, rfl⟩ := Nat.exists_eq_add_of_lt (Nat.lt_of_not_le hLong)
    cases beyond with
    | nil =>
      simp only [List.length_append, List.length_nil] at hn
      omega
    | cons c beyond =>
      have hLonger : (read ++ (inside ++ c :: beyond)).take (read.length + inside.length + k + 1) =
          read ++ inside ++ c :: beyond.take k := by
        rw [← List.append_assoc, Nat.add_assoc _ k, ← List.length_append,
          List.take_length_add_append, List.take_succ_cons]
      rw [hLonger, List.append_assoc, List.cons_append] at hAccepted
      exact hDead c rfl _ (hReads _ hAccepted)
  · rw [Nat.add_sub_cancel_left, hTake, List.drop_left]
    exact hSpans

theorem Reading.result_eq_error_iff {α : Type} {source : List Char} {r : Reading α}
    {e : SyntaxError} :
    r.result source = .error e ↔ ∃ failure, r = .error failure ∧ e = .ofFailure source failure := by
  constructor
  · intro h
    cases r with
    | ok p => cases h
    | error failure => exact ⟨failure, rfl, (Except.error.inj h).symm⟩
  · rintro ⟨failure, rfl, rfl⟩
    rfl

/-- An error of strict reading is reported at one place. The text before the place can always be
completed to one that is accepted, and no longer start of the text can, except that an error about a
number, a unit or a color is reported at the start of this token and may lie in it. The same holds
for lists of declarations. -/
theorem parse_error_place (source : String) :
    (∀ e, (Stylesheet.parse .strict source).result = .error e → ∃ p q, e.LocatedAt
      (fun text => ∃ sheet, (Stylesheet.parse .strict (String.ofList text)).result = .ok sheet)
      source.toList p q) ∧
    (∀ e, Declaration.parseList source = .error e → ∃ p q, e.LocatedAt
      (fun text => ∃ ds, Declaration.parseList (String.ofList text) = .ok ds)
      source.toList p q) := by
  constructor
  · intro e h
    obtain ⟨failure, hFailure, rfl⟩ := Reading.result_eq_error_iff.mp h
    have hRead := Reading.map_eq_error_iff.mp hFailure
    refine (readRules_atFrontier hRead).located ?_ ?_
    · rintro t ⟨rules, hSheet⟩
      refine ⟨⟨rules⟩, result_parse_eq_ok_iff.mpr ?_⟩
      rw [String.toList_ofList]
      exact reading_readRules_iff.mpr hSheet
    · rintro t ⟨sheet, hParse⟩
      rw [result_parse_eq_ok_iff, String.toList_ofList] at hParse
      exact ⟨sheet.rules, [], hParse⟩
  · intro e h
    obtain ⟨failure, hRead, rfl⟩ := Reading.result_eq_error_iff.mp h
    refine (readDeclarations_atFrontier hRead).located ?_ ?_
    · rintro t ⟨ds, rest, ht⟩
      refine ⟨ds, Reading.result_eq_ok_iff.mpr ⟨rest, ?_⟩⟩
      rwa [String.toList_ofList]
    · rintro t ⟨ds, hParse⟩
      obtain ⟨rest, ht⟩ := Reading.result_eq_ok_iff.mp hParse
      rw [String.toList_ofList] at ht
      exact ⟨ds, rest, ht⟩

end BlockFlow
