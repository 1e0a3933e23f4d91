import BlockFlow.Proofs.Sheet.Opening
import BlockFlow.Proofs.Sheet.Seam
import BlockFlow.Proofs.Text.Places
import Mathlib.Data.List.Forall2

/-! # One text behind another

A text that was read to its end leaves the reader where it started, so that a text behind it is read
as if it stood alone: its rules and its warnings follow those of the first text, and an error in it
stays the same error, further on. The main statement is `parse_append`.
-/

namespace BlockFlow

open Grammar

/-! ## Outcomes with more text behind them -/

namespace Outcome

variable {α β : Type}

def extend (extra : List Char) (o : Outcome α) : Outcome α :=
  ⟨o.skipped.map (·.extend extra), o.reading.extend extra⟩

theorem extend_map (extra : List Char) (f : α → β) (o : Outcome α) :
    (o.map f).extend extra = (o.extend extra).map f := by
  rw [Outcome.map, extend, Reading.extend_map]
  rfl

theorem extend_withEntry (extra : List Char) (e : Entry)
    (o : Outcome (List (Declaration Float))) :
    (o.withEntry e).extend extra = (o.extend extra).withEntry (e.extend extra) := by
  cases e with
  | declaration d => exact extend_map extra _ o
  | skipped s => rfl

theorem exists_of_withEntry {e : Entry} {o : Outcome (List (Declaration Float))}
    {ds : List (Declaration Float)} {rest : List Char}
    (h : (o.withEntry e).reading = .ok (ds, rest)) : ∃ others, o.reading = .ok (others, rest) := by
  cases e with
  | declaration d =>
    obtain ⟨others, hOthers, -⟩ := Reading.map_eq_ok_iff.mp h
    exact ⟨others, hOthers⟩
  | skipped s => exact ⟨ds, h⟩

end Outcome

theorem Entry.suffix_of_read {mode : Mode} {text rest : List Char} {e : Entry}
    (h : Entry.read mode text = .ok (e, rest)) : rest <:+ text := by
  have hWithin := Entry.read_within mode text
  rwa [h] at hWithin

theorem marked_of_readBody {mode : Mode} {text rest : List Char} {ds : List (Declaration Float)}
    (h : (readBody mode text).reading = .ok (ds, rest)) : Marked text := by
  fun_induction readBody mode text generalizing ds with
  | case1 text hSkip => cases h
  | case2 text more hSkip =>
    have hBrace : Marked ('\x7d' :: more) := ⟨_, List.mem_cons_self, rfl⟩
    exact hBrace.of_suffix (Text.suffix_of_skipBlanks hSkip)
  | case3 text c more hSkip hBrace failure hRead => cases h
  | case4 text c more hSkip hBrace entry after hRead _ ih =>
    obtain ⟨others, hOthers⟩ := Outcome.exists_of_withEntry h
    exact (ih hOthers).of_suffix
      ((Entry.suffix_of_read hRead).trans (Text.suffix_of_skipBlanks hSkip))

theorem readBody_extend {mode : Mode} {text rest : List Char} {ds : List (Declaration Float)}
    (h : (readBody mode text).reading = .ok (ds, rest)) (extra : List Char) :
    readBody mode (text ++ extra) = (readBody mode text).extend extra := by
  fun_induction readBody mode text generalizing ds with
  | case1 text hSkip => cases h
  | case2 text more hSkip =>
    have hNonempty : Text.skipBlanks text ≠ [] := by simp [hSkip]
    rw [readBody_eq, skipBlanks_append hNonempty, hSkip]
    rfl
  | case3 text c more hSkip hBrace failure hRead => cases h
  | case4 text c more hSkip hBrace entry after hRead _ ih =>
    obtain ⟨others, hOthers⟩ := Outcome.exists_of_withEntry h
    have hNonempty : Text.skipBlanks text ≠ [] := by simp [hSkip]
    have hMarked : Marked (c :: more) :=
      (marked_of_readBody hOthers).of_suffix (Entry.suffix_of_read hRead)
    have hRead' := Entry.read_append mode hMarked extra
    rw [hRead] at hRead'
    rw [readBody_eq, skipBlanks_append hNonempty, hSkip, List.cons_append]
    dsimp only
    rw [if_neg hBrace, ← List.cons_append, hRead', Outcome.extend_withEntry, ← ih hOthers]
    rfl

theorem Rule.read_extend {mode : Mode} {text rest : List Char} {rule : Rule}
    (hHead : Text.skipBlanks text = text) (h : (Rule.read mode text).reading = .ok (rule, rest))
    (extra : List Char) : Rule.read mode (text ++ extra) = (Rule.read mode text).extend extra := by
  cases hSelectors : readSelectors text with
  | error failure =>
    rw [Rule.read, hSelectors] at h
    cases h
  | ok p =>
    obtain ⟨selectors, after⟩ := p
    obtain ⟨group, rfl, hGroup⟩ := group_of_readSelectors hSelectors
    have hNonempty : Text.skipBlanks (group ++ '\x7b' :: after) ≠ [] := by simp [hHead]
    have hLonger := readSelectors_of_group hGroup rfl .nil (after ++ extra)
    rw [List.nil_append, ← List.cons_append, ← List.append_assoc, skipBlanks_append hNonempty,
      hHead] at hLonger
    rw [Rule.read_of_selectors hSelectors] at h
    obtain ⟨ds, hBody, -⟩ := Reading.map_eq_ok_iff.mp h
    rw [Rule.read_of_selectors hSelectors, Rule.read_of_selectors hLonger, readBody_extend hBody,
      Outcome.extend_map]

theorem readRules_of_read {mode : Mode} {text ahead rest : List Char} {skipped : List Skipped}
    {rule : Rule} (hSkip : Text.skipBlanks text = ahead) (hAhead : ahead ≠ [])
    (h : Rule.read mode ahead = ⟨skipped, .ok (rule, rest)⟩) :
    readRules mode text = ⟨skipped ++ (readRules mode rest).skipped,
      (readRules mode rest).reading.map (rule :: ·)⟩ := by
  obtain ⟨c, more, rfl⟩ := List.exists_cons_of_ne_nil hAhead
  rw [readRules_eq, hSkip]
  dsimp only
  rw [h]
  rfl

/-- Behind the end of a text reading goes on as from the start of the next one. -/
theorem readRules_extend {mode : Mode} {text rest : List Char} {rules : List Rule}
    (h : (readRules mode text).reading = .ok (rules, rest)) (extra : List Char) :
    readRules mode (text ++ extra) =
      ⟨(readRules mode text).skipped.map (·.extend extra) ++ (readRules mode extra).skipped,
        (readRules mode extra).reading.map (rules ++ ·)⟩ := by
  induction hLength : text.length using Nat.strongRecOn generalizing text rules with
  | ind n ih =>
    cases hSkip : Text.skipBlanks text with
    | nil =>
      obtain ⟨⟨blanks, rfl, hBlanks⟩, -⟩ := skipBlanks_eq_iff.mp hSkip
      have hRead : readRules mode (blanks ++ []) = ⟨[], .ok ([], [])⟩ := by
        rw [readRules_eq, hSkip]
      have hExtra : Text.skipBlanks (blanks ++ extra) = Text.skipBlanks extra :=
        List.dropWhile_append_of_pos hBlanks
      rw [hRead] at h
      obtain ⟨rfl, -⟩ := Prod.mk.inj (Except.ok.inj h)
      rw [hRead, List.append_nil, ← readRules_skipBlanks, hExtra, readRules_skipBlanks]
      exact (Outcome.map_id _).symm
    | cons c more =>
      have hHead : Text.skipBlanks (c :: more) = c :: more :=
        hSkip ▸ dropWhile_eq_self (head?_dropWhile Text.isBlank text)
      have hAhead : Text.skipBlanks (text ++ extra) = (c :: more) ++ extra := by
        rw [skipBlanks_append (by simp [hSkip]), hSkip]
      rcases hRule : Rule.read mode (c :: more) with ⟨skipped, reading⟩
      cases reading with
      | error failure =>
        rw [readRules_eq, hSkip] at h
        dsimp only at h
        rw [hRule] at h
        cases h
      | ok p =>
        obtain ⟨rule, after⟩ := p
        have hReading : (Rule.read mode (c :: more)).reading = .ok (rule, after) := by rw [hRule]
        have hExtended : Rule.read mode ((c :: more) ++ extra) =
            ⟨skipped.map (·.extend extra), .ok (rule, after ++ extra)⟩ := by
          rw [Rule.read_extend hHead hReading, hRule]
          rfl
        have hText := readRules_of_read hSkip (List.cons_ne_nil _ _) hRule
        have hLonger := readRules_of_read hAhead (by simp) hExtended
        have hLess : after.length < n :=
          hLength ▸ Text.length_lt_of_skipBlanks hSkip (Rule.length_lt_of_read hReading)
        rw [hText] at h
        obtain ⟨others, hOthers, rfl⟩ := Reading.map_eq_ok_iff.mp h
        rw [hLonger, hText, ih _ hLess hOthers rfl, List.map_append, List.append_assoc,
          Reading.map_map]
        rfl

theorem readDeclarations_eq (text : List Char) :
    readDeclarations text = match Text.skipBlanks text with
      | [] => .ok ([], [])
      | c :: more => (Declaration.read (c :: more)).andThen fun d rest =>
          (readDeclarations rest).map (d :: ·) := by
  rw [readDeclarations]
  split
  · next hSkip => simp only [hSkip]
  · next c more hSkip =>
    simp only [hSkip]
    split
    · next hRead => rw [hRead]; rfl
    · next hRead => rw [hRead]; rfl

theorem readDeclarations_skipBlanks (text : List Char) :
    readDeclarations (Text.skipBlanks text) = readDeclarations text := by
  have hSkip : Text.skipBlanks (Text.skipBlanks text) = Text.skipBlanks text :=
    dropWhile_eq_self (head?_dropWhile _ _)
  rw [readDeclarations_eq (Text.skipBlanks text), hSkip, ← readDeclarations_eq]

theorem readDeclarations_of_declaration {blanks text : List Char} {d : Declaration Float}
    (hBlanks : Blanks blanks) (h : IsDeclaration text d) (rest : List Char) :
    readDeclarations (blanks ++ (text ++ rest)) = (readDeclarations rest).map (d :: ·) := by
  have hRead := Declaration.read_eq_ok_iff.mpr ⟨text, (rfl : text ++ rest = _), h⟩
  obtain ⟨c, tail, rfl, hc⟩ := h.head
  rw [List.cons_append] at *
  rw [readDeclarations_eq, skipBlanks_append_mark hBlanks (isBlank_eq_false_of_isNameChar hc)]
  dsimp only
  rw [hRead]
  rfl

theorem readDeclarations_extend {text rest : List Char} {ds : List (Declaration Float)}
    (h : readDeclarations text = .ok (ds, rest)) (extra : List Char) :
    readDeclarations (text ++ extra) = (readDeclarations extra).map (ds ++ ·) := by
  fun_induction readDeclarations text generalizing ds with
  | case1 text hSkip =>
    obtain ⟨⟨blanks, rfl, hBlanks⟩, -⟩ := skipBlanks_eq_iff.mp hSkip
    obtain ⟨rfl, -⟩ := Prod.mk.inj (Except.ok.inj h)
    have hExtra : Text.skipBlanks (blanks ++ extra) = Text.skipBlanks extra :=
      List.dropWhile_append_of_pos hBlanks
    rw [List.append_nil, ← readDeclarations_skipBlanks, hExtra, readDeclarations_skipBlanks]
    exact (Reading.map_id _).symm
  | case2 text c more hSkip failure hRead => cases h
  | case3 text c more hSkip d after hRead _ ih =>
    obtain ⟨others, hOthers, rfl⟩ := Reading.map_eq_ok_iff.mp h
    obtain ⟨read, hText, hRead⟩ := Declaration.read_eq_ok_iff.mp hRead
    obtain ⟨⟨blanks, rfl, hBlanks⟩, -⟩ := skipBlanks_eq_iff.mp hSkip
    rw [hText, List.append_assoc, List.append_assoc,
      readDeclarations_of_declaration hBlanks hRead, ih hOthers, Reading.map_map]
    rfl

/-! ## What is noted stands in the text -/

theorem Entry.suffix_of_skipped {mode : Mode} {text rest : List Char} {s : Skipped}
    (h : Entry.read mode text = .ok (.skipped s, rest)) : s.position <:+ text := by
  cases mode with
  | strict =>
    obtain ⟨d, -, hEntry⟩ := Reading.map_eq_ok_iff.mp h
    cases hEntry
  | recovering =>
    have hWithin := Declaration.read_within text
    cases hRead : Declaration.read text with
    | ok p =>
      rw [Entry.read, Entry.recover, hRead] at h
      cases h
    | error failure =>
      rw [hRead] at hWithin
      rw [Entry.read, Entry.recover_of_failure hRead] at h
      cases h
      exact hWithin.1

theorem suffix_of_mem_readBody {mode : Mode} {text : List Char} :
    ∀ s ∈ (readBody mode text).skipped, s.position <:+ text := by
  fun_induction readBody mode text with
  | case1 text hSkip => exact List.forall_mem_nil _
  | case2 text more hSkip => exact List.forall_mem_nil _
  | case3 text c more hSkip hBrace failure hRead => exact List.forall_mem_nil _
  | case4 text c more hSkip hBrace entry after hRead _ ih =>
    have hText : c :: more <:+ text := Text.suffix_of_skipBlanks hSkip
    intro s hs
    cases entry with
    | declaration d => exact (ih s hs).trans ((Entry.suffix_of_read hRead).trans hText)
    | skipped first =>
      rcases List.mem_cons.mp hs with rfl | hs
      · exact (Entry.suffix_of_skipped hRead).trans hText
      · exact (ih s hs).trans ((Entry.suffix_of_read hRead).trans hText)

theorem suffix_of_mem_readRules {mode : Mode} {text : List Char} :
    ∀ s ∈ (readRules mode text).skipped, s.position <:+ text := by
  have hRule (text : List Char) : ∀ s ∈ (Rule.read mode text).skipped, s.position <:+ text := by
    intro s hs
    cases hSelectors : readSelectors text with
    | error failure =>
      rw [Rule.read, hSelectors] at hs
      cases hs
    | ok p =>
      have hWithin := readSelectors_within text
      rw [hSelectors] at hWithin
      rw [Rule.read_of_selectors hSelectors] at hs
      exact (suffix_of_mem_readBody s hs).trans hWithin
  fun_induction readRules mode text with
  | case1 text hSkip => exact List.forall_mem_nil _
  | case2 text c more hSkip failure hRead =>
    have hText : c :: more <:+ text := Text.suffix_of_skipBlanks hSkip
    exact fun s hs => (hRule _ s hs).trans hText
  | case3 text c more hSkip rule after hRead _ others ih =>
    have hText : c :: more <:+ text := Text.suffix_of_skipBlanks hSkip
    have hWithin := Rule.read_within mode (c :: more)
    rw [hRead] at hWithin
    intro s hs
    rcases List.mem_append.mp hs with hs | hs
    · exact (hRule _ s hs).trans hText
    · exact (ih s hs).trans (List.IsSuffix.trans hWithin hText)

/-! ## Errors and warnings further on -/

/-- The same warning behind another text: it is about the same character, which stands further on,
by as many characters as the other text has. -/
structure Diagnostic.Moved (first second : List Char) (d moved : Diagnostic) : Prop where
  severity : moved.severity = d.severity
  message : moved.message = d.message
  property : moved.property = d.property
  location : ∃ n ≤ second.length, d.location = (Text.Place.after (second.take n)).location ∧
    moved.location = (Text.Place.after ((first ++ second).take (first.length + n))).location

structure SyntaxError.Moved (first second : List Char) (e moved : SyntaxError) : Prop where
  fault : moved.fault = e.fault
  place : ∃ n ≤ second.length, e.place = .after (second.take n) ∧
    moved.place = .after ((first ++ second).take (first.length + n))

/-- What comes of two texts, the second behind the first, if the first was read well and the second
alone gives what is given: what was read is joined to that of the first, and an error is moved. -/
inductive SyntaxError.Continued {α : Type} (first second : List Char) (join : α → α) :
    Except SyntaxError α → Except SyntaxError α → Prop
  | ok (a : α) : Continued first second join (.ok a) (.ok (join a))
  | error {e moved} : e.Moved first second moved →
      Continued first second join (.error e) (.error moved)

theorem Skipped.diagnostic_extend (source extra : List Char) (s : Skipped) :
    (s.extend extra).diagnostic (source ++ extra) = s.diagnostic source := by
  rw [Skipped.diagnostic, Skipped.diagnostic, extend, Text.Place.within_append_right]

theorem Skipped.diagnostic_moved {source : List Char} {s : Skipped} (h : s.position <:+ source)
    (before : List Char) :
    (s.diagnostic source).Moved before source (s.diagnostic (before ++ source)) where
  severity := rfl
  message := rfl
  property := rfl
  location := by
    refine ⟨source.length - s.position.length, Nat.sub_le _ _, rfl, ?_⟩
    rw [Skipped.diagnostic, Text.Place.within_append_left h]

theorem SyntaxError.moved_ofFailure {source : List Char} {failure : Failure}
    (h : failure.position <:+ source) (before : List Char) :
    (ofFailure source failure).Moved before source (ofFailure (before ++ source) failure) where
  fault := rfl
  place := by
    refine ⟨source.length - failure.position.length, Nat.sub_le _ _, rfl, ?_⟩
    exact Text.Place.within_append_left h before

theorem Reading.result_continued {α : Type} {source : List Char} {r : Reading α}
    (h : r.Within source) (before : List Char) (join : α → α) :
    SyntaxError.Continued before source join (r.result source)
      ((r.map join).result (before ++ source)) := by
  cases r with
  | ok p => exact .ok p.1
  | error failure => exact .error (SyntaxError.moved_ofFailure h.1 before)

theorem readRules_within (mode : Mode) (text : List Char) :
    (readRules mode text).reading.Within text := by
  fun_induction readRules mode text with
  | case1 text hSkip => exact List.nil_suffix
  | case2 text c more hSkip failure hRead =>
    have hWithin := Rule.read_within mode (c :: more)
    rw [hRead] at hWithin
    exact (show Reading.Within (c :: more) (.error failure : Reading (List Rule)) from hWithin).mono
      (Text.suffix_of_skipBlanks hSkip)
  | case3 text c more hSkip rule after hRead _ others ih =>
    have hWithin := Rule.read_within mode (c :: more)
    rw [hRead] at hWithin
    exact ih.map.mono (List.IsSuffix.trans hWithin (Text.suffix_of_skipBlanks hSkip))

theorem readDeclarations_within (text : List Char) : (readDeclarations text).Within text := by
  fun_induction readDeclarations text with
  | case1 text hSkip => exact List.nil_suffix
  | case2 text c more hSkip failure hRead =>
    have hWithin := Declaration.read_within (c :: more)
    rw [hRead] at hWithin
    exact (show Reading.Within (c :: more)
      (.error failure : Reading (List (Declaration Float))) from hWithin).mono
      (Text.suffix_of_skipBlanks hSkip)
  | case3 text c more hSkip d after hRead _ ih =>
    have hWithin := Declaration.read_within (c :: more)
    rw [hRead] at hWithin
    exact ih.map.mono (List.IsSuffix.trans hWithin (Text.suffix_of_skipBlanks hSkip))

/-- If a text is read well, another one behind it is read as if it stood alone, in either mode:
its rules and warnings come behind those of the first text, and an error in it remains the same
error, but for its place. The same holds for two lists of declarations. -/
theorem parse_append (first second : String) :
    (∀ mode sheet, (Stylesheet.parse mode first).result = .ok sheet →
      (∃ moved, List.Forall₂ (Diagnostic.Moved first.toList second.toList)
          (Stylesheet.parse mode second).diagnostics moved ∧
        (Stylesheet.parse mode (first ++ second)).diagnostics =
          (Stylesheet.parse mode first).diagnostics ++ moved) ∧
      SyntaxError.Continued first.toList second.toList
        (fun other => (⟨sheet.rules ++ other.rules⟩ : Stylesheet))
        (Stylesheet.parse mode second).result (Stylesheet.parse mode (first ++ second)).result) ∧
    (∀ ds, Declaration.parseList first = .ok ds →
      SyntaxError.Continued first.toList second.toList (ds ++ ·)
        (Declaration.parseList second) (Declaration.parseList (first ++ second))) := by
  constructor
  · intro mode sheet h
    obtain ⟨rest, hMap⟩ := Reading.result_eq_ok_iff.mp h
    obtain ⟨rules, hRead, rfl⟩ := Reading.map_eq_ok_iff.mp hMap
    have hParse : Stylesheet.parse mode (first ++ second) =
        ⟨((readRules mode first.toList).skipped.map (·.extend second.toList) ++
            (readRules mode second.toList).skipped).map
            (·.diagnostic (first.toList ++ second.toList)),
          (((readRules mode second.toList).reading.map Stylesheet.mk).map
            fun other => (⟨rules ++ other.rules⟩ : Stylesheet)).result
            (first.toList ++ second.toList)⟩ := by
      rw [Stylesheet.parse, String.toList_append, readRules_extend hRead, Reading.map_map]
      dsimp only
      rw [Reading.map_map]
      rfl
    constructor
    · refine ⟨(readRules mode second.toList).skipped.map
        (·.diagnostic (first.toList ++ second.toList)), ?_, ?_⟩
      · rw [Stylesheet.parse, List.forall₂_map_left_iff, List.forall₂_map_right_iff,
          List.forall₂_same]
        exact fun s hs => Skipped.diagnostic_moved (suffix_of_mem_readRules s hs) _
      · have hFirst : (readRules mode first.toList).skipped.map
            ((·.diagnostic (first.toList ++ second.toList)) ∘ (·.extend second.toList)) =
              (readRules mode first.toList).skipped.map (·.diagnostic first.toList) :=
          List.map_congr_left fun s _ => Skipped.diagnostic_extend _ _ s
        rw [hParse, List.map_append, List.map_map, hFirst]
        rfl
    · rw [hParse, Stylesheet.parse]
      exact Reading.result_continued (readRules_within mode _).map _ _
  · intro ds h
    obtain ⟨rest, hRead⟩ := Reading.result_eq_ok_iff.mp h
    rw [Declaration.parseList, Declaration.parseList, String.toList_append,
      readDeclarations_extend hRead]
    exact Reading.result_continued (readDeclarations_within _) _ _

end BlockFlow
