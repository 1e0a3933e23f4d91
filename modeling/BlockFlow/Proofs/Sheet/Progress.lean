import BlockFlow.Proofs.Sheet.Braces
import BlockFlow.Proofs.Sheet.Turns

/-! # Where recovery resumes, and that reading makes progress

In recovering mode an entry ends in the same place whether or not it is well formed: behind the next
semicolon, before the next closing brace, or at the end of the text. So only a closing brace can hold
the reader where it is. The loops of a style sheet leave at a brace; a bare list of declarations does
not, and comes to an end exactly if there is none in it.
-/

namespace BlockFlow

open Grammar

/-- From `p` on and before `k` the text has neither a semicolon nor a closing brace. -/
def Unmarked (source : List Char) (p k : Nat) : Prop :=
  ∀ j, p ≤ j → j < k → source[j]? ≠ some ';' ∧ source[j]? ≠ some '\x7d'

/-- The position from which a text is read after an entry that starts at `p`. -/
inductive ResumesAt (source : List Char) (p : Nat) : Nat → Prop
  | semicolon {k} : p ≤ k → Unmarked source p k → source[k]? = some ';' → ResumesAt source p (k + 1)
  | brace {k} : p ≤ k → Unmarked source p k → source[k]? = some '\x7d' → ResumesAt source p k
  | finish : Unmarked source p source.length → ResumesAt source p source.length

/-- One entry from `p` to `q` in recovering mode, and what is kept of it: a declaration, or a note of
the fault that it was skipped for. -/
structure Entry.Recovers (source : List Char) (p q : Nat) (entry : Entry) : Prop where
  read : Entry.read .recovering (source.drop p) = .ok (entry, source.drop q)
  bounded : q ≤ source.length
  resumes : ResumesAt source p q
  stays : q = p ↔ source[p]? = some '\x7d'
  kept : (∃ d, Declaration.read (source.drop p) = .ok (d, source.drop q) ∧
      declarationsOf [entry] = [d] ∧ skippedOf [entry] = []) ∨
    ∃ failure noted, Declaration.read (source.drop p) = .error failure ∧
      declarationsOf [entry] = [] ∧ skippedOf [entry] = [noted]

/-- Reading from `p` on recovers after one entry, and makes progress in all loops. -/
structure Progresses (source : List Char) (p : Nat) : Prop where
  entry : ∃ entry q, Entry.Recovers source p q entry
  parts : TurnByTurn partTurn (fun part r => r.map (part :: ·)) readParts
  selectors : TurnByTurn selectorTurn (fun s r => r.map (s :: ·)) readSelectors
  body : ∀ mode, TurnByTurn (entryTurn mode) Outcome.withEntry (readBody mode)
  rules : ∀ mode, TurnByTurn (ruleTurn mode) Outcome.withRule (readRules mode)
  list : ∀ entries, recoverEntries? (source.drop p) = some entries ↔
    Turns recoverTurn (source.drop p) entries []
  ends : (∃ entries result, Turns recoverTurn (source.drop p) entries result) ↔
    '\x7d' ∉ source.drop p

/-! ## One entry -/

theorem Inside.unmarked {source inside after : List Char} {p : Nat} (h : Inside inside)
    (hText : source.drop p = inside ++ after) : Unmarked source p (p + inside.length) := by
  intro j hp hj
  have hChar : source[j]? = some inside[j - p] := by
    have hSame : source[j]? = (source.drop p)[j - p]? := by
      rw [List.getElem?_drop, Nat.add_sub_cancel' hp]
    rw [hSame, hText, List.getElem?_append_left (by omega), List.getElem?_eq_getElem]
  have hInside := h _ (List.getElem_mem (show j - p < inside.length by omega))
  rw [hChar]
  constructor <;>
  · intro hMark
    rw [Option.some.inj hMark] at hInside
    cases hInside

theorem Stretch.resumesAt {source bad after : List Char} {p : Nat} (hp : p ≤ source.length)
    (h : Stretch bad after) (hText : source.drop p = bad ++ after) :
    ResumesAt source p (p + bad.length) := by
  have hMark (i : Nat) : source[p + i]? = (bad ++ after)[i]? := by
    rw [← hText, List.getElem?_drop]
  cases h with
  | @semicolon inside after hInside =>
    rw [List.append_assoc] at hText
    rw [List.length_append, ← Nat.add_assoc]
    refine .semicolon (Nat.le_add_right _ _) (hInside.unmarked hText) ?_
    rw [hMark]
    simp
  | brace hInside hAfter =>
    have hUnmarked := hInside.unmarked hText
    cases after with
    | nil =>
      have hEnd : p + bad.length = source.length := by
        have hLength := congrArg List.length hText
        rw [List.append_nil, List.length_drop] at hLength
        omega
      rw [hEnd] at hUnmarked ⊢
      exact .finish hUnmarked
    | cons c after =>
      obtain rfl := hAfter c rfl
      refine .brace (Nat.le_add_right _ _) hUnmarked ?_
      rw [hMark]
      simp

theorem ResumesAt.stays_iff {source : List Char} {p q : Nat} (hp : p < source.length)
    (h : ResumesAt source p q) : q = p ↔ source[p]? = some '\x7d' := by
  cases h with
  | @semicolon k hk hUnmarked hMark =>
    refine ⟨fun hStays => absurd hStays (by omega), fun hBrace => ?_⟩
    rcases Nat.eq_or_lt_of_le hk with rfl | hLess
    · cases hMark.symm.trans hBrace
    · exact absurd hBrace (hUnmarked p (Nat.le_refl p) hLess).2
  | brace hk hUnmarked hMark =>
    refine ⟨fun hStays => hStays ▸ hMark, fun hBrace => ?_⟩
    rcases Nat.eq_or_lt_of_le hk with hSame | hLess
    · exact hSame.symm
    · exact absurd hBrace (hUnmarked p (Nat.le_refl p) hLess).2
  | finish hUnmarked =>
    exact ⟨fun hStays => absurd hStays (Nat.ne_of_gt hp),
      fun hBrace => absurd hBrace (hUnmarked p (Nat.le_refl p) hp).2⟩

theorem exists_recovers {source : List Char} {p : Nat} (hp : p < source.length) :
    ∃ entry q, Entry.Recovers source p q entry := by
  obtain ⟨bad, hText, hStretch⟩ := stretch_skipDeclaration (source.drop p)
  have hRest : (Entry.recover (source.drop p)).2 = source.drop (p + bad.length) := by
    rw [Entry.snd_recover, ← List.drop_drop]
    nth_rewrite 2 [hText]
    exact List.drop_left.symm
  have hRead : Entry.read .recovering (source.drop p) =
      .ok ((Entry.recover (source.drop p)).1, source.drop (p + bad.length)) := by
    rw [← hRest]
    rfl
  have hResumes := hStretch.resumesAt (Nat.le_of_lt hp) hText
  refine ⟨_, _, hRead, ?_, hResumes, hResumes.stays_iff hp, ?_⟩
  · have hLength := congrArg List.length hText
    rw [List.length_append, List.length_drop] at hLength
    omega
  -- what is kept is the one thing that depends on the declaration
  · cases hDeclaration : Declaration.read (source.drop p) with
    | ok found =>
      obtain ⟨d, rest⟩ := found
      rw [← hRest]
      simp only [Entry.recover, hDeclaration]
      exact .inl ⟨d, rfl, rfl, rfl⟩
    | error failure =>
      simp only [Entry.recover, hDeclaration]
      exact .inr ⟨failure, _, rfl, rfl, rfl⟩

/-! ## Bare declarations -/

/-- As no turn takes a closing brace that it starts with, a loop that was left met none. -/
theorem Turns.not_mem_brace {text : List Char} {entries result : List Entry}
    (h : Turns recoverTurn text entries result) : '\x7d' ∉ text := by
  induction h with
  | @last text result hTurn =>
    unfold recoverTurn at hTurn
    split at hTurn
    · next hSkip =>
      obtain ⟨⟨blanks, rfl, hBlanks⟩, -⟩ := skipBlanks_eq_iff.mp hSkip
      simpa using Blanks.inside hBlanks |>.not_mem_brace
    · cases hTurn
  | @next text entry rest entries result hTurn _ ih =>
    unfold recoverTurn at hTurn
    split at hTurn
    · cases hTurn
    · next c more hSkip =>
      obtain ⟨-, rfl⟩ := Turn.next.inj hTurn
      obtain ⟨⟨blanks, rfl, hBlanks⟩, -⟩ := skipBlanks_eq_iff.mp hSkip
      have hRead : Entry.read .recovering (c :: more) =
          .ok ((Entry.recover (c :: more)).1, (Entry.recover (c :: more)).2) := rfl
      obtain ⟨read, hText, hBrace⟩ := Entry.exists_read hRead
      rw [hText]
      simp [Blanks.inside hBlanks |>.not_mem_brace, hBrace, ih]

theorem recoverEntries?_eq_some_iff {text : List Char} {entries : List Entry} :
    recoverEntries? text = some entries ↔ Turns recoverTurn text entries [] := by
  constructor
  · exact turns_of_recoverEntries?
  · intro h
    obtain ⟨others, hOthers⟩ := exists_recoverEntries? h.not_mem_brace
    rw [hOthers, (turns_of_recoverEntries? hOthers).unique h |>.1]

theorem exists_turns_iff {text : List Char} :
    (∃ entries result, Turns recoverTurn text entries result) ↔ '\x7d' ∉ text := by
  constructor
  · rintro ⟨entries, result, h⟩
    exact h.not_mem_brace
  · intro h
    obtain ⟨entries, hEntries⟩ := exists_recoverEntries? h
    exact ⟨entries, [], turns_of_recoverEntries? hEntries⟩

/-- From everywhere in a text recovery resumes at the same place, be the declaration there well formed
or not, and reading makes progress; only in a bare list can a closing brace hold it up for ever. -/
theorem recovery_progresses {source : List Char} {p : Nat} (hp : p < source.length) :
    Progresses source p where
  entry := exists_recovers hp
  parts := advancing_readParts.turnByTurn
  selectors := advancing_readSelectors.turnByTurn
  body mode := (advancing_readBody mode).turnByTurn
  rules mode := (advancing_readRules mode).turnByTurn
  list _ := recoverEntries?_eq_some_iff
  ends := exists_turns_iff

/-- A declaration whose color has five digits, so that the semicolon stands where a sixth would. -/
theorem recovery_progresses_at_color :
    0 < "a:#12345;\x7d".toList.length ∧ Progresses "a:#12345;\x7d".toList 0 :=
  ⟨by decide, recovery_progresses (by decide)⟩

end BlockFlow
