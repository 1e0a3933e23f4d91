import BlockFlow.Proofs.Sheet.Blanking
import BlockFlow.Proofs.Sheet.Opening
import BlockFlow.Proofs.Sheet.Resynchronisation

/-! # Recovery is strict reading of a blanked text

Reading a text in recovering mode passes over some spans of it. With the spans before it blanked
out, each of them is where strict reading fails, and it fails with the fault that was noted; with all
of them blanked out strict reading ends as the recovering one does. The main statement is
`parse_recovering_refines`.

The reader is followed from one state to the next: between rules, or in the body of one. In either
it ends in the same way in both modes, or it takes some text and is in such a state again, or it
passes over a stretch of a body, and then a blanked stretch would have led it to the same state.
-/

namespace BlockFlow

open Grammar

/-! ## States of the reader -/

/-- A text behind which the reader is between rules, or in the body of one. -/
inductive Reached (before : List Char) : Prop
  | sheet {rules} : Sheet before rules → Reached before
  | opening {rules selectors ds} : Opening before rules selectors ds → Reached before

/-- In the body of a rule, blanks and then a declaration that cannot be read stand next. -/
structure Malformed (before blanks bad after : List Char) (failure : Failure) : Prop where
  opening : ∃ rules selectors ds, Opening before rules selectors ds
  blanks : Blanks blanks
  head : ∃ c more, bad = c :: more ∧ Text.isBlank c = false ∧ c ≠ '\x7d'
  failure : Declaration.read (bad ++ after) = .error failure
  stretch : Stretch bad after
  skip : skipDeclaration (bad ++ after) = after

theorem skipBlanks_eq_cons {text more : List Char} {c : Char}
    (h : Text.skipBlanks text = c :: more) :
    ∃ blanks, text = blanks ++ c :: more ∧ Blanks blanks ∧ Text.isBlank c = false := by
  obtain ⟨⟨blanks, hText, hBlanks⟩, hHead⟩ := skipBlanks_eq_iff.mp h
  exact ⟨blanks, hText, hBlanks, hHead c rfl⟩

/-- Between rules reading ends, or goes on into the body of a rule. -/
theorem sheet_step {before : List Char} {rules : List Rule} (h : Sheet before rules)
    (rest : List Char) :
    (∃ reading, ∀ mode, readRules mode (before ++ rest) = ⟨[], reading⟩) ∨
      ∃ next rest', rest = next ++ rest' ∧ next ≠ [] ∧ Reached (before ++ next) := by
  simp only [readRules_of_sheet _ h]
  cases hSkip : Text.skipBlanks rest with
  | nil =>
    left
    refine ⟨.ok (rules ++ [], []), fun mode => ?_⟩
    rw [readRules_eq, hSkip]
    rfl
  | cons c more =>
    obtain ⟨blanks, rfl, hBlanks, -⟩ := skipBlanks_eq_cons hSkip
    cases hSelectors : readSelectors (c :: more) with
    | error failure =>
      left
      refine ⟨.error failure, fun mode => ?_⟩
      rw [readRules_eq, hSkip]
      simp only [Rule.read, hSelectors]
      rfl
    | ok p =>
      right
      obtain ⟨selectors, rest'⟩ := p
      obtain ⟨group, hText, hGroup⟩ := group_of_readSelectors hSelectors
      refine ⟨blanks ++ (group ++ ['\x7b']), rest', ?_, ?_, .opening (h.opening hBlanks hGroup)⟩
      · rw [hText]
        simp only [List.append_assoc, List.cons_append, List.nil_append]
      · simp

/-- In the body of a rule reading ends, goes on behind a declaration or behind the body, or has a
malformed declaration before it. -/
theorem opening_step {before : List Char} {rules : List Rule} {selectors : List Selector}
    {ds : List (Declaration Float)} (h : Opening before rules selectors ds) (rest : List Char) :
    (∃ reading, ∀ mode, readRules mode (before ++ rest) = ⟨[], reading⟩) ∨
      (∃ next rest', rest = next ++ rest' ∧ next ≠ [] ∧ Reached (before ++ next)) ∨
      ∃ blanks bad after failure, rest = blanks ++ (bad ++ after) ∧
        Malformed before blanks bad after failure := by
  simp only [readRules_of_opening _ h]
  cases hSkip : Text.skipBlanks rest with
  | nil =>
    left
    refine ⟨.error (.here .unclosedRule []), fun mode => ?_⟩
    rw [readInside, readBody_eq, hSkip]
    rfl
  | cons c more =>
    right
    obtain ⟨blanks, rfl, hBlanks, hc⟩ := skipBlanks_eq_cons hSkip
    by_cases hBrace : c = '\x7d'
    · left
      have hClose := (h.append_blanks hBlanks).close
      rw [List.append_assoc] at hClose
      refine ⟨blanks ++ ['\x7d'], more, ?_, by simp, .sheet hClose⟩
      rw [hBrace, List.append_assoc]
      rfl
    · cases hRead : Declaration.read (c :: more) with
      | ok p =>
        left
        obtain ⟨d, rest'⟩ := p
        obtain ⟨read, hText, hDeclaration⟩ := Declaration.read_eq_ok_iff.mp hRead
        obtain ⟨e, tail, rfl, -⟩ := hDeclaration.head
        have hOpening := (h.append_blanks hBlanks).append_declaration hDeclaration
        rw [List.append_assoc] at hOpening
        refine ⟨blanks ++ e :: tail, rest', ?_, by simp, .opening hOpening⟩
        rw [hText, List.append_assoc]
      | error failure =>
        right
        obtain ⟨bad, hText, hStretch⟩ := stretch_skipDeclaration (c :: more)
        refine ⟨blanks, bad, skipDeclaration (c :: more), failure, by rw [← hText],
          ⟨_, _, _, h⟩, hBlanks, ?_, by rw [← hText, hRead], hStretch, by rw [← hText]⟩
        cases bad with
        | nil =>
          have hLess := length_skipDeclaration_lt more hBrace
          rw [← List.nil_append (skipDeclaration (c :: more)), ← hText] at hLess
          exact absurd hLess (Nat.lt_irrefl _)
        | cons e tail =>
          obtain ⟨rfl, -⟩ := List.cons.inj hText
          exact ⟨_, tail, rfl, hc, hBrace⟩

namespace Malformed

variable {before blanks bad after : List Char} {failure : Failure}

/-- What is noted about the declaration. -/
def noted (failure : Failure) (bad after : List Char) : Skipped :=
  ⟨failure.fault, failure.position, String.ofList (leadingName (bad ++ after))⟩

theorem readBody_strict (h : Malformed before blanks bad after failure) :
    readBody .strict (blanks ++ (bad ++ after)) = ⟨[], .error failure⟩ := by
  obtain ⟨c, more, rfl, hc, hBrace⟩ := h.head
  have hRead : Entry.read .strict (c :: (more ++ after)) = .error failure := by
    rw [Entry.read, ← List.cons_append, h.failure]
    rfl
  rw [readBody_eq, List.cons_append, skipBlanks_append_mark h.blanks hc]
  dsimp only
  rw [if_neg hBrace, hRead]

theorem readBody_recovering (h : Malformed before blanks bad after failure) :
    readBody .recovering (blanks ++ (bad ++ after)) =
      (readBody .recovering after).withEntry (.skipped (noted failure bad after)) := by
  obtain ⟨c, more, rfl, hc, hBrace⟩ := h.head
  have hRead : Entry.read .recovering (c :: (more ++ after)) =
      .ok (.skipped (noted failure (c :: more) after), after) := by
    rw [Entry.read, ← List.cons_append, Entry.recover_of_failure h.failure, h.skip, noted]
  rw [readBody_eq, List.cons_append, skipBlanks_append_mark h.blanks hc]
  dsimp only
  rw [if_neg hBrace, hRead]

theorem blanks_map_blankChar (bad : List Char) : Blanks (bad.map blankChar) := by
  intro c hc
  obtain ⟨d, -, rfl⟩ := List.mem_map.mp hc
  unfold blankChar
  split
  · next h => rw [h]; rfl
  · rfl

/-- Behind a blanked declaration the reader is in the body as before. -/
theorem opening_blanked (h : Malformed before blanks bad after failure) :
    ∃ rules selectors ds, Opening before rules selectors ds ∧
      Opening (before ++ (blanks ++ bad.map blankChar)) rules selectors ds := by
  obtain ⟨rules, selectors, ds, hOpening⟩ := h.opening
  exact ⟨rules, selectors, ds, hOpening,
    hOpening.append_blanks (h.blanks.append (blanks_map_blankChar bad))⟩

theorem readRules_strict (h : Malformed before blanks bad after failure) :
    readRules .strict (before ++ (blanks ++ (bad ++ after))) = ⟨[], .error failure⟩ := by
  obtain ⟨rules, selectors, ds, hOpening⟩ := h.opening
  rw [readRules_of_opening _ hOpening, readInside, h.readBody_strict]
  rfl

/-- A recovering reader notes the declaration, and goes on as if it had been blanked out. -/
theorem readRules_recovering (h : Malformed before blanks bad after failure) :
    readRules .recovering (before ++ (blanks ++ (bad ++ after))) =
      let o := readRules .recovering (before ++ (blanks ++ bad.map blankChar) ++ after)
      ⟨noted failure bad after :: o.skipped, o.reading⟩ := by
  obtain ⟨rules, selectors, ds, hOpening, hBlanked⟩ := h.opening_blanked
  rw [readRules_of_opening _ hOpening, readRules_of_opening _ hBlanked, readInside, readInside,
    h.readBody_recovering]
  cases hBody : readBody .recovering after with
  | mk skipped reading => cases reading <;> rfl

end Malformed

/-! ## Runs of the reader -/

/-- The span is a stretch of the text. -/
structure Span.IsStretch (s : Span) (text : List Char) : Prop where
  nonempty : s.start < s.stop
  stretch : ∃ bad after, text.drop s.start = bad ++ after ∧ s.stop = s.start + bad.length ∧
    Stretch bad after

/-- Strict reading of the text fails at a declaration which starts with the span, in the way that
was noted. -/
structure Span.Reports (s : Span) (text : List Char) (k : Skipped) : Prop where
  opening : ∃ rules selectors ds, Opening (text.take s.start) rules selectors ds
  head : ∀ c ∈ (text.drop s.start).head?, Text.isBlank c = false
  failure : ∃ rest, readRules .strict text = ⟨[], .error ⟨k.fault, k.position, rest⟩⟩
  place : ∃ n, s.start ≤ n ∧ n ≤ s.stop ∧ n ≤ text.length ∧ k.position = text.drop n
  property : k.property = String.ofList (leadingName (text.drop s.start))

/-- An outcome is reached by strict readings: each reports one of the spans, until with all of them
blanked out the reading is that of the outcome. -/
structure Iterates (text : List Char) (first : Nat) (spans : List Span)
    (o : Outcome (List Rule)) : Prop where
  count : spans.length = o.skipped.length
  behind : ∀ s ∈ spans, first ≤ s.start
  ordered : spans.Pairwise fun a b => a.stop ≤ b.start
  stretches : ∀ s ∈ spans, s.IsStretch text
  reports : ∀ (i : Nat) (s : Span) (k : Skipped), spans[i]? = some s → o.skipped[i]? = some k →
    s.Reports (blankOut (spans.take i) text) k
  result : readRules .strict (blankOut spans text) = ⟨[], o.reading⟩

namespace Iterates

variable {text : List Char} {first : Nat} {spans : List Span} {o : Outcome (List Rule)}

theorem nil {reading : Reading (List Rule)} (h : readRules .strict text = ⟨[], reading⟩) :
    Iterates text first [] ⟨[], reading⟩ where
  count := rfl
  behind s hs := absurd hs List.not_mem_nil
  ordered := .nil
  stretches s hs := absurd hs List.not_mem_nil
  reports i s k hs hk := by cases hs
  result := by rw [blankOut_nil, h]

theorem mono (h : Iterates text first spans o) {first' : Nat} (hLe : first' ≤ first) :
    Iterates text first' spans o :=
  { h with behind := fun s hs => Nat.le_trans hLe (h.behind s hs) }

theorem cons {s : Span} {k : Skipped} (hStretch : s.IsStretch text) (hReports : s.Reports text k)
    (h : Iterates (blankOut [s] text) s.stop spans o) :
    Iterates text s.start (s :: spans) ⟨k :: o.skipped, o.reading⟩ where
  count := by rw [List.length_cons, List.length_cons, h.count]
  behind t ht := by
    rcases List.mem_cons.mp ht with rfl | ht
    · exact Nat.le_refl _
    · exact Nat.le_trans (Nat.le_of_lt hStretch.nonempty) (h.behind t ht)
  ordered := List.pairwise_cons.mpr ⟨h.behind, h.ordered⟩
  stretches t ht := by
    rcases List.mem_cons.mp ht with rfl | ht
    · exact hStretch
    · obtain ⟨hNonempty, bad, after, hDrop, hStop, hBad⟩ := h.stretches t ht
      rw [drop_blankOut (by simpa using h.behind t ht)] at hDrop
      exact ⟨hNonempty, bad, after, hDrop, hStop, hBad⟩
  reports i t m ht hm := by
    cases i with
    | zero =>
      cases ht
      cases hm
      rw [List.take_zero, blankOut_nil]
      exact hReports
    | succ i =>
      rw [List.take_succ_cons, blankOut_cons]
      exact h.reports i t m ht hm
  result := by
    rw [blankOut_cons]
    exact h.result

end Iterates

namespace Malformed

variable {before blanks bad after : List Char} {failure : Failure}

theorem length_pos (h : Malformed before blanks bad after failure) : 0 < bad.length := by
  obtain ⟨c, more, rfl, -⟩ := h.head
  exact Nat.succ_pos _

theorem position (h : Malformed before blanks bad after failure) :
    ∃ read more, bad = read ++ more ∧ failure.position = more ++ after := by
  have hWithin := Declaration.read_within (bad ++ after)
  rw [h.failure] at hWithin
  obtain ⟨⟨read, hRead⟩, hRest⟩ := hWithin
  obtain ⟨inside, hInside, hIn⟩ := Declaration.read_failsInside _ _ h.failure
  have hAfter : after <:+ failure.rest := by
    have hSkip := h.skip
    rw [hInside, skipDeclaration_append hIn] at hSkip
    rw [← hSkip]
    exact skipDeclaration_suffix _
  obtain ⟨more, hMore⟩ := hAfter.trans hRest
  refine ⟨read, more, ?_, hMore.symm⟩
  rw [← hMore, ← List.append_assoc] at hRead
  exact (List.append_cancel_right hRead).symm

theorem reports (h : Malformed before blanks bad after failure) {s : Span}
    (hStart : s.start = (before ++ blanks).length) (hStop : s.stop = s.start + bad.length) :
    s.Reports (before ++ (blanks ++ (bad ++ after))) (noted failure bad after) := by
  have hText : before ++ (blanks ++ (bad ++ after)) = before ++ blanks ++ (bad ++ after) :=
    (List.append_assoc _ _ _).symm
  have hDrop : (before ++ (blanks ++ (bad ++ after))).drop s.start = bad ++ after := by
    rw [hText, hStart, List.drop_left]
  obtain ⟨rules, selectors, ds, hOpening⟩ := h.opening
  constructor
  · refine ⟨rules, selectors, ds, ?_⟩
    rw [hText, hStart, List.take_left]
    exact hOpening.append_blanks h.blanks
  · rw [hDrop]
    obtain ⟨c, more, rfl, hc, -⟩ := h.head
    intro d hd
    cases hd
    exact hc
  · exact ⟨failure.rest, h.readRules_strict⟩
  · obtain ⟨read, more, rfl, hPosition⟩ := h.position
    refine ⟨s.start + read.length, Nat.le_add_right _ _, ?_, ?_, ?_⟩
    · rw [hStop, List.length_append]
      omega
    · rw [hStart]
      simp only [List.length_append]
      omega
    · rw [← List.drop_drop, hDrop, List.append_assoc, List.drop_left]
      exact hPosition
  · rw [hDrop]
    rfl

end Malformed

/-- Whatever state the reader is in, strict readings lead to the outcome of the recovering one. -/
theorem exists_iterates {before : List Char} (h : Reached before) (rest : List Char) :
    ∃ spans, Iterates (before ++ rest) before.length spans
      (readRules .recovering (before ++ rest)) := by
  induction hLength : rest.length using Nat.strongRecOn generalizing before rest with
  | ind n ih =>
    have hStep : (∃ reading, ∀ mode, readRules mode (before ++ rest) = ⟨[], reading⟩) ∨
        (∃ next rest', rest = next ++ rest' ∧ next ≠ [] ∧ Reached (before ++ next)) ∨
        ∃ blanks bad after failure, rest = blanks ++ (bad ++ after) ∧
          Malformed before blanks bad after failure := by
      cases h with
      | sheet h => exact (sheet_step h rest).imp_right .inl
      | opening h => exact opening_step h rest
    rcases hStep with ⟨reading, hEnd⟩ | ⟨next, rest', rfl, hNext, hReached⟩ |
      ⟨blanks, bad, after, failure, rfl, hBad⟩
    · rw [hEnd .recovering]
      exact ⟨[], .nil (hEnd .strict)⟩
    · have hLess : rest'.length < n := by
        have := List.length_pos_iff.mpr hNext
        rw [← hLength, List.length_append]
        omega
      obtain ⟨spans, hSpans⟩ := ih _ hLess hReached rest' rfl
      rw [List.append_assoc] at hSpans
      refine ⟨spans, hSpans.mono ?_⟩
      rw [List.length_append]
      omega
    · have hLess : after.length < n := by
        have := hBad.length_pos
        rw [← hLength, List.length_append, List.length_append]
        omega
      obtain ⟨_, _, _, -, hBlanked⟩ := hBad.opening_blanked
      obtain ⟨spans, hSpans⟩ := ih _ hLess (.opening hBlanked) after rfl
      let s : Span := ⟨(before ++ blanks).length, (before ++ blanks).length + bad.length⟩
      have hText : blankOut [s] (before ++ (blanks ++ (bad ++ after))) =
          before ++ (blanks ++ bad.map blankChar) ++ after := by
        rw [← List.append_assoc before, blankOut_append]
        simp only [List.append_assoc]
      have hStop : (before ++ (blanks ++ bad.map blankChar)).length = s.stop := by
        simp only [s, List.length_append, List.length_map]
        omega
      rw [← hText, hStop] at hSpans
      rw [hBad.readRules_recovering, ← hText]
      refine ⟨s :: spans, (Iterates.cons ⟨?_, bad, after, ?_, rfl, hBad.stretch⟩
        (hBad.reports rfl rfl) hSpans).mono ?_⟩
      · exact Nat.lt_add_of_pos_right hBad.length_pos
      · rw [← List.append_assoc before]
        exact List.drop_left
      · simp only [s, List.length_append]
        omega

/-! ## The main statement -/

/-- The warning is about the declaration that starts with the span. With the spans before it blanked
out, the text in front of it leads into the body of a rule, and strict reading raises the error that
the warning quotes. -/
structure Span.Explains (s : Span) (source blanked : List Char) (d : Diagnostic) : Prop where
  opening : ∃ rules selectors ds, Opening (blanked.take s.start) rules selectors ds
  head : ∀ c ∈ (source.drop s.start).head?, Text.isBlank c = false
  error : ∃ e, Stylesheet.parse .strict (String.ofList blanked) = ⟨[], .error e⟩ ∧
    d.severity = .warning ∧ d.message = "Skipped malformed declaration: " ++ e.fault.message ∧
    d.location = e.place.location ∧
    ∃ n, s.start ≤ n ∧ n ≤ s.stop ∧ e.place = .after (source.take n)
  property : d.property = match leadingName (source.drop s.start) with
    | [] => none
    | name => some (String.ofList name)

theorem explains_of_reports {s : Span} {source : List Char} {k : Skipped} {spans : List Span}
    (h : s.Reports (blankOut spans source) k)
    (hDrop : (blankOut spans source).drop s.start = source.drop s.start) :
    s.Explains source (blankOut spans source) (k.diagnostic source) := by
  constructor
  · exact h.opening
  · rw [← hDrop]
    exact h.head
  · obtain ⟨rest, hRead⟩ := h.failure
    obtain ⟨n, hStart, hStop, hLength, hPosition⟩ := h.place
    refine ⟨⟨k.fault, .within source k.position⟩, ?_, rfl, rfl, rfl, n, hStart, hStop, ?_⟩
    · rw [Stylesheet.parse, String.toList_ofList, hRead, ← Text.Place.within_blankOut spans]
      rfl
    · rw [← Text.Place.within_blankOut spans, hPosition, Text.Place.within_drop hLength,
        Text.Place.after_take_blankOut]
  · rw [Skipped.diagnostic, h.property, hDrop]
    cases leadingName (source.drop s.start) with
    | nil => rfl
    | cons c more => simp [String.isEmpty_iff]

theorem Reading.result_blankOut {α : Type} (spans : List Span) (text : List Char)
    (r : Reading α) : r.result (blankOut spans text) = r.result text := by
  cases r with
  | ok p => rfl
  | error failure =>
    rw [Reading.result, Reading.result, SyntaxError.ofFailure, SyntaxError.ofFailure,
      Text.Place.within_blankOut]

theorem stop_le_of_mem_take {spans : List Span} (h : spans.Pairwise fun a b => a.stop ≤ b.start)
    {i : Nat} {s : Span} (hs : spans[i]? = some s) : ∀ t ∈ spans.take i, t.stop ≤ s.start := by
  intro t ht
  obtain ⟨hi, rfl⟩ := List.getElem?_eq_some_iff.mp hs
  obtain ⟨j, hj, rfl⟩ := List.mem_take_iff_getElem.mp ht
  exact List.pairwise_iff_getElem.mp h j i _ _ (by omega)

/-- A recovering reader passes over spans of the text, one for each warning. With the spans before
it blanked out, each of them is where strict reading raises the error that the warning is about; with
all of them blanked out, strict reading ends as the recovering one did. -/
theorem parse_recovering_refines (source : String) :
    ∃ spans : List Span,
      spans.length = (Stylesheet.parse .recovering source).diagnostics.length ∧
      (spans.Pairwise fun a b => a.stop ≤ b.start) ∧
      (∀ s ∈ spans, s.IsStretch source.toList) ∧
      (∀ (i : Nat) (s : Span) (d : Diagnostic), spans[i]? = some s →
        (Stylesheet.parse .recovering source).diagnostics[i]? = some d →
        s.Explains source.toList (blankOut (spans.take i) source.toList) d) ∧
      Stylesheet.parse .strict (String.ofList (blankOut spans source.toList)) =
        ⟨[], (Stylesheet.parse .recovering source).result⟩ := by
  have hStart : Reached [] := .sheet ⟨[], [], rfl, .nil, .nil⟩
  obtain ⟨spans, h⟩ := exists_iterates hStart source.toList
  rw [List.nil_append] at h
  refine ⟨spans, ?_, h.ordered, h.stretches, ?_, ?_⟩
  · rw [Stylesheet.parse, List.length_map]
    exact h.count
  · intro i s d hs hd
    rw [Stylesheet.parse, List.getElem?_map] at hd
    obtain ⟨k, hk, rfl⟩ := Option.map_eq_some_iff.mp hd
    exact explains_of_reports (h.reports i s k hs hk)
      (drop_blankOut (stop_le_of_mem_take h.ordered hs) _)
  · rw [Stylesheet.parse, String.toList_ofList, h.result, Reading.result_blankOut]
    rfl

end BlockFlow
